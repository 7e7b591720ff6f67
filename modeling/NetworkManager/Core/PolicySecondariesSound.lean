import Mathlib.Data.List.TakeWhile
import NetworkManager.Core.PolicySecondaries

/-!
# Secondary connections decide about their own activation

The policy does not check that the data of a secondary was made for the current activation of the
device, and a walk over the data keeps a pointer to the next one while other code runs. Where
neither happens, every state change is the one that the secondaries of the activation ask for.
-/

namespace NetworkManager.Core

open Lib List

/-- A state change is the one that the secondaries of the activation ask for. -/
structure SecondariesMove.Sound (m : SecondariesMove) : Prop where
  allActivated : m.connected = true → m.started ≠ [] ∧ ∀ a ∈ m.started, a ∈ m.activated
  oneDeactivated : m.connected = false →
    m.active ∈ m.started ∧ m.active ∈ m.deactivated ∧ ∃ a ∈ m.started, a ∉ m.activated

/-- The report of a secondary removes the data. -/
def PendingSecondaryData.Finishes (e : PendingSecondaryData) (active : ℕ) (connected : Bool) :
    Prop :=
  active ∈ e.secondaries ∧ (connected = true → ∀ a ∈ e.secondaries, a = active)

instance (e : PendingSecondaryData) (active : ℕ) (connected : Bool) :
    Decidable (e.Finishes active connected) :=
  inferInstanceAs (Decidable (_ ∧ (_ → _)))

/-- `process_secondaries()` changes the state of the device. -/
def SecondariesDevice.Moves (d : SecondariesDevice) (connected : Bool) : Prop :=
  d.state = .secondaries ∨ connected = false ∧ d.state = .activated

instance (d : SecondariesDevice) (connected : Bool) : Decidable (d.Moves connected) :=
  inferInstanceAs (Decidable (_ ∨ _))

namespace SecondariesSystem

/-- The secondaries of the devices decide about their activation only. -/
structure Sound (s : SecondariesSystem) : Prop where
  moves : ∀ m ∈ s.moves, m.Sound
  /-- A device does not stay in `SECONDARIES` when all its secondaries became `ACTIVATED`. -/
  waits : ∀ d ∈ s.devices, d.state = .secondaries → d.started ≠ [] →
    ∃ a ∈ d.started, a ∉ s.activated
  /-- All data that was ever made waits or was freed once. -/
  freedOnce : (s.pendingSecondaries.map (·.id) ++ s.freed).Perm (List.range s.nextData)
  notUsedAfterFree : s.usedAfterFree = false

/-- The data that the report of an active connection removes is not the next one of a walk, and if
the device is moved then it is for its current act request and it may change its state. -/
def ReportInReach (s : SecondariesSystem) (active : ℕ) (connected : Bool) : Prop :=
  ∀ e ∈ s.pendingSecondaries, e.Finishes active connected →
    (∀ c ∈ s.calls, ∀ w ∈ c.walk, e.id ∉ w.next) ∧
      ∀ d ∈ s.devices, d.id = e.device → d.Moves connected →
        e.request = d.actRequest ∧ ¬ s.InStateChanged e.device

instance (s : SecondariesSystem) (active : ℕ) (connected : Bool) :
    Decidable (s.ReportInReach active connected) :=
  inferInstanceAs (Decidable (∀ e ∈ s.pendingSecondaries, e.Finishes active connected →
    (∀ c ∈ s.calls, ∀ w ∈ c.walk, e.id ∉ w.next) ∧
      ∀ d ∈ s.devices, d.id = e.device → d.Moves connected →
        e.request = d.actRequest ∧ ¬ s.InStateChanged e.device))

/-- A device does not start secondaries while data for the same act request waits, and the reports
are in reach. -/
def InReach (s : SecondariesSystem) : SecondariesEvent → Prop
  | .deviceState device .secondaries _ => ∀ e ∈ s.pendingSecondaries, ∀ d ∈ s.devices,
      e.device = device → d.id = device → e.request ≠ d.actRequest
  | .activeState active state => ∀ ac ∈ s.actives, ac.id = active → ac.added = true →
      TakesState ac state → (state = .activated → s.ReportInReach active true) ∧
        (state = .deactivated → s.ReportInReach active false)
  | _ => True

end SecondariesSystem

/-! ## Walks -/

variable {e : PendingSecondaryData}

namespace PendingSecondaryData

variable {active : ℕ}

theorem walk_disconnected (rest secondaries : List ℕ) :
    walk active false rest secondaries = if active ∈ rest then none else some secondaries := by
  induction rest with
  | nil => rfl
  | cons a rest ih =>
    by_cases ha : active = a
    · simp [walk, ha]
    · simp [walk, ha, ih]

theorem walk_connected (rest kept : List ℕ) (hkept : active ∉ kept) :
    walk active true rest (kept ++ rest) =
      if active ∈ rest ∧ kept ++ rest.filter (· ≠ active) = [] then none
      else some (kept ++ rest.filter (· ≠ active)) := by
  induction rest generalizing kept with
  | nil => simp [walk]
  | cons a rest ih =>
    by_cases ha : active = a
    · subst ha
      have herase : (kept ++ active :: rest).erase active = kept ++ rest := by
        rw [erase_append_right _ hkept, erase_cons_head]
      have hfilter : (active :: rest).filter (· ≠ active) = rest.filter (· ≠ active) := by simp
      simp only [walk, ne_eq, not_true_eq_false, if_false, if_true, herase]
      rw [hfilter]
      by_cases hnil : kept ++ rest = []
      · obtain ⟨rfl, rfl⟩ := append_eq_nil_iff.mp hnil
        simp
      · rw [if_neg hnil, ih kept hkept]
        by_cases hempty : kept ++ rest.filter (· ≠ active) = []
        · obtain ⟨rfl, hrest⟩ := append_eq_nil_iff.mp hempty
          have hmem : active ∈ rest := by
            obtain ⟨b, hb⟩ := exists_mem_of_ne_nil rest (by simpa using hnil)
            have hb' := filter_eq_nil_iff.mp hrest b hb
            have : b = active := by simpa using hb'
            exact this ▸ hb
          rw [if_pos ⟨hmem, hempty⟩, if_pos ⟨mem_cons_self, hempty⟩]
        · rw [if_neg fun h => hempty h.2, if_neg fun h => hempty h.2]
    · have hfilter : (a :: rest).filter (· ≠ active) = a :: rest.filter (· ≠ active) := by
        simp [Ne.symm ha]
      have happend : kept ++ a :: rest = (kept ++ [a]) ++ rest := by simp
      have hkept' : active ∉ kept ++ [a] := by simp [hkept, ha]
      simp only [walk, ne_eq, ha, not_false_eq_true, if_true]
      rw [happend, ih (kept ++ [a]) hkept', hfilter]
      simp [ha]

def drop (active : ℕ) (e : PendingSecondaryData) : PendingSecondaryData :=
  { e with secondaries := e.secondaries.filter (· ≠ active) }

theorem drop_of_not_mem (h : active ∉ e.secondaries) : e.drop active = e := by
  have hfilter : e.secondaries.filter (· ≠ active) = e.secondaries := by
    rw [filter_eq_self]
    intro a ha
    simpa using fun hne : a = active => h (hne ▸ ha)
  rw [drop, hfilter]

theorem walk_eq {connected : Bool} (e : PendingSecondaryData) :
    walk active connected e.secondaries e.secondaries =
      if e.Finishes active connected then none else some (e.drop active).secondaries := by
  cases connected with
  | false =>
    rw [walk_disconnected]
    by_cases hmem : active ∈ e.secondaries
    · simp [Finishes, hmem]
    · simp [Finishes, hmem, drop_of_not_mem hmem]
  | true =>
    have hloop := walk_connected e.secondaries [] (by simp : active ∉ [])
    rw [nil_append] at hloop
    have hiff : active ∈ e.secondaries ∧ e.secondaries.filter (· ≠ active) = [] ↔
        e.Finishes active true := by
      simp [Finishes, filter_eq_nil_iff]
    rw [hloop, nil_append]
    exact if_congr hiff rfl rfl

end PendingSecondaryData

namespace SecondariesSystem

variable {s : SecondariesSystem} {active : ℕ} {connected : Bool} {device : ℕ}
  {d : SecondariesDevice} {state : NMDeviceState} {walk : Option SecondariesWalk}
  {s' : SecondariesSystem} {f : SecondaryActive → SecondaryActive}

theorem lookupDevice_eq_some (h : KeyUnique SecondariesDevice.id s.devices) :
    s.lookupDevice device = some d ↔ d ∈ s.devices ∧ d.id = device :=
  lookup_eq_some_iff h

theorem setSecondaries_drop (hids : KeyUnique PendingSecondaryData.id s.pendingSecondaries)
    (he : e ∈ s.pendingSecondaries) (hmem : active ∉ e.secondaries) :
    s.setSecondaries e.id (e.drop active).secondaries = s := by
  rw [PendingSecondaryData.drop_of_not_mem hmem, setSecondaries, modifyKey_eq_self]
  intro e' he' hid
  rw [eq_of_key_eq hids he' he hid]

theorem processSecondaries_of_not_mem (hids : KeyUnique PendingSecondaryData.id s.pendingSecondaries)
    (rest : List PendingSecondaryData) (hrest : ∀ e ∈ rest, e ∈ s.pendingSecondaries)
    (hmem : ∀ e ∈ rest, active ∉ e.secondaries) :
    processSecondaries active connected rest s = s := by
  induction rest with
  | nil => rfl
  | cons e rest ih =>
    have he := hmem e mem_cons_self
    have hfinishes : ¬ e.Finishes active connected := fun h => he h.1
    simp only [processSecondaries, PendingSecondaryData.walk_eq, if_neg hfinishes]
    rw [setSecondaries_drop hids (hrest e mem_cons_self) he]
    exact ih (fun e' h => hrest e' (mem_cons_of_mem e h))
      (fun e' h => hmem e' (mem_cons_of_mem e h))

def dropActive (s : SecondariesSystem) (active : ℕ) : SecondariesSystem :=
  { s with pendingSecondaries := s.pendingSecondaries.map (·.drop active) }

theorem setSecondaries_eq_dropActive (hids : KeyUnique PendingSecondaryData.id s.pendingSecondaries)
    (he : e ∈ s.pendingSecondaries)
    (hothers : ∀ e' ∈ s.pendingSecondaries, e' ≠ e → active ∉ e'.secondaries) :
    s.setSecondaries e.id (e.drop active).secondaries = s.dropActive active := by
  have hmap : modifyKey PendingSecondaryData.id e.id (fun e' => { e' with secondaries := (e.drop active).secondaries })
      s.pendingSecondaries = s.pendingSecondaries.map (·.drop active) := by
    apply map_congr_left
    intro e' he'
    by_cases hid : e'.id = e.id
    · rw [eq_of_key_eq hids he' he hid]
      simp [PendingSecondaryData.drop]
    · have hne : e' ≠ e := fun h => hid (h ▸ rfl)
      simp [hid, PendingSecondaryData.drop_of_not_mem (hothers e' he' hne)]
  rw [setSecondaries, hmap, dropActive]

/-- What a report does where at most one data waits for the active connection: it only drops the
secondary, or it frees the data and moves its device. -/
theorem processSecondaries_cases (connected : Bool)
    (hids : KeyUnique PendingSecondaryData.id s.pendingSecondaries)
    (hone : ∀ e ∈ s.pendingSecondaries, ∀ e' ∈ s.pendingSecondaries, active ∈ e.secondaries →
      active ∈ e'.secondaries → e = e')
    (rest : List PendingSecondaryData) (hrest : rest.Sublist s.pendingSecondaries)
    (hskipped : ∀ e ∈ s.pendingSecondaries, active ∈ e.secondaries → e ∈ rest) :
    ((∀ e ∈ s.pendingSecondaries, ¬ e.Finishes active connected) ∧
      processSecondaries active connected rest s = s.dropActive active) ∨
    ∃ e ∈ s.pendingSecondaries, e.Finishes active connected ∧
      (∀ e' ∈ s.pendingSecondaries, e' ≠ e → active ∉ e'.secondaries) ∧
      ∃ next, (∀ id ∈ next, ∃ e' ∈ s.pendingSecondaries, e' ≠ e ∧ e'.id = id) ∧
        processSecondaries active connected rest s =
          ((s.freeData e.id).moveDevice e.device ⟨active, connected, next⟩).getD (s.freeData e.id) := by
  induction rest with
  | nil =>
    refine .inl ⟨fun e he h => by simpa using hskipped e he h.1, ?_⟩
    have hmap : s.pendingSecondaries.map (·.drop active) = s.pendingSecondaries := by
      conv_rhs => rw [← map_id s.pendingSecondaries]
      apply map_congr_left
      intro e he
      exact PendingSecondaryData.drop_of_not_mem fun h => by simpa using hskipped e he h
    rw [dropActive, hmap]
    rfl
  | cons e rest ih =>
    have he : e ∈ s.pendingSecondaries := hrest.subset mem_cons_self
    have hrest' : ∀ e' ∈ rest, e' ∈ s.pendingSecondaries := fun e' h =>
      hrest.subset (mem_cons_of_mem e h)
    have htail : ∀ e' ∈ rest, e'.id ≠ e.id :=
      (unique_cons.mp (hids.sublist hrest)).1
    by_cases hmem : active ∈ e.secondaries
    · have hothers : ∀ e' ∈ s.pendingSecondaries, e' ≠ e → active ∉ e'.secondaries :=
        fun e' he' hne h => hne (hone e' he' e he h hmem)
      have hclean : ∀ e' ∈ rest, active ∉ e'.secondaries := fun e' h =>
        hothers e' (hrest' e' h) fun heq => htail e' h (heq ▸ rfl)
      by_cases hfinishes : e.Finishes active connected
      · refine .inr ⟨e, he, hfinishes, hothers, rest.head?.map (·.id), ?_, ?_⟩
        · intro id hid
          obtain ⟨e', he', rfl⟩ := Option.map_eq_some_iff.mp hid
          have hin : e' ∈ rest := mem_of_mem_head? he'
          exact ⟨e', hrest' e' hin, fun heq => htail e' hin (heq ▸ rfl), rfl⟩
        · simp only [processSecondaries, PendingSecondaryData.walk_eq, if_pos hfinishes]
          cases (s.freeData e.id).moveDevice e.device ⟨active, connected, rest.head?.map (·.id)⟩ with
          | some s' => rfl
          | none =>
            refine processSecondaries_of_not_mem hids.eraseKey rest (fun e' h => ?_) hclean
            exact mem_eraseKey.mpr ⟨hrest' e' h, htail e' h⟩
      · refine .inl ⟨fun e' he' h => ?_, ?_⟩
        · obtain rfl := hone e' he' e he h.1 hmem
          exact hfinishes h
        · simp only [processSecondaries, PendingSecondaryData.walk_eq, if_neg hfinishes]
          rw [setSecondaries_eq_dropActive hids he hothers]
          have hids' : KeyUnique PendingSecondaryData.id (s.dropActive active).pendingSecondaries := by
            unfold KeyUnique
            rw [dropActive, map_map]
            exact hids
          refine processSecondaries_of_not_mem hids' rest (fun e' h => ?_) hclean
          refine mem_map.mpr ⟨e', hrest' e' h, ?_⟩
          exact PendingSecondaryData.drop_of_not_mem (hclean e' h)
    · have hfinishes : ¬ e.Finishes active connected := fun h => hmem h.1
      simp only [processSecondaries, PendingSecondaryData.walk_eq, if_neg hfinishes]
      rw [setSecondaries_drop hids he hmem]
      refine ih ((sublist_cons_self e rest).trans hrest) fun e' he' h => ?_
      rcases mem_cons.mp (hskipped e' he' h) with rfl | hin
      · exact absurd h hmem
      · exact hin

/-! ## The invariant -/

/-- A walk goes on with data that waits, and no data waits for its active connection any more. -/
structure WalkFine (s : SecondariesSystem) (w : SecondariesWalk) : Prop where
  next : ∀ id ∈ w.next, ∃ e ∈ s.pendingSecondaries, e.id = id
  active_lt : w.active < s.nextActive
  notAuthorizing : ∀ ac ∈ s.actives, ac.id = w.active → ac.authorizing = false
  notWaiting : ∀ e ∈ s.pendingSecondaries, w.active ∉ e.secondaries

/-- What holds also while a report is processed. -/
structure Tracked (s : SecondariesSystem) : Prop where
  devices : KeyUnique SecondariesDevice.id s.devices
  actives : KeyUnique SecondaryActive.id s.actives
  actives_lt : ∀ ac ∈ s.actives, ac.id < s.nextActive
  activated_lt : ∀ a ∈ s.activated, a < s.nextActive
  authorizing : ∀ ac ∈ s.actives, ac.authorizing = true → ac.id ∉ s.activated ∧ ac.added = false
  freedOnce : (s.pendingSecondaries.map (·.id) ++ s.freed).Perm (List.range s.nextData)
  requests : KeyUnique (fun e => (e.device, e.request)) s.pendingSecondaries
  known : ∀ e ∈ s.pendingSecondaries, ∃ d ∈ s.devices, d.id = e.device
  waitsFor : ∀ e ∈ s.pendingSecondaries, ∀ a ∈ e.secondaries, a ∉ s.activated ∧
    ∃ ac ∈ s.actives, ac.id = a ∧ ac.device = e.device ∧ ac.request = e.request
  /-- The data for the current act request waits for what was started and is not up. -/
  current : ∀ e ∈ s.pendingSecondaries, ∀ d ∈ s.devices, d.id = e.device →
    e.request ≤ d.actRequest ∧
      (e.request = d.actRequest → e.secondaries = d.started.filter (· ∉ s.activated))
  walks : ∀ c ∈ s.calls, ∀ w ∈ c.walk, s.WalkFine w
  moves : ∀ m ∈ s.moves, m.Sound
  notUsedAfterFree : s.usedAfterFree = false

/-- What holds in every state. -/
structure Inv (s : SecondariesSystem) : Prop extends Tracked s where
  waiting : ∀ e ∈ s.pendingSecondaries, e.secondaries ≠ []
  waits : ∀ d ∈ s.devices, d.state = .secondaries → d.started ≠ [] →
    ∃ e ∈ s.pendingSecondaries, e.device = d.id ∧ e.request = d.actRequest

theorem start_inv : start.Inv where
  devices := nodup_nil
  actives := nodup_nil
  actives_lt := by simp [start]
  activated_lt := by simp [start]
  authorizing := by simp [start]
  freedOnce := by simp [start]
  requests := nodup_nil
  known := by simp [start]
  waitsFor := by simp [start]
  current := by simp [start]
  walks := by simp [start]
  moves := by simp [start]
  notUsedAfterFree := rfl
  waiting := by simp [start]
  waits := by simp [start]

theorem Inv.sound (h : s.Inv) : s.Sound where
  moves := h.moves
  freedOnce := h.freedOnce
  notUsedAfterFree := h.notUsedAfterFree
  waits d hd hstate hstarted := by
    obtain ⟨e, he, hdevice, hrequest⟩ := h.waits d hd hstate hstarted
    have hsecondaries := (h.current e he d hd hdevice.symm).2 hrequest
    obtain ⟨a, ha⟩ := exists_mem_of_ne_nil _ (h.waiting e he)
    have hin : a ∈ d.started.filter (· ∉ s.activated) := hsecondaries ▸ ha
    exact ⟨a, mem_of_mem_filter hin, by simpa using (mem_filter.mp hin).2⟩

theorem Tracked.ids (h : s.Tracked) : KeyUnique PendingSecondaryData.id s.pendingSecondaries := by
  have hnodup := h.freedOnce.nodup_iff.mpr nodup_range
  exact (nodup_append.mp hnodup).1

theorem Tracked.one (h : s.Tracked) {e' : PendingSecondaryData} (he : e ∈ s.pendingSecondaries)
    (he' : e' ∈ s.pendingSecondaries) (hmem : active ∈ e.secondaries)
    (hmem' : active ∈ e'.secondaries) : e = e' := by
  obtain ⟨-, ac, hac, hid, hdevice, hrequest⟩ := h.waitsFor e he active hmem
  obtain ⟨-, ac', hac', hid', hdevice', hrequest'⟩ := h.waitsFor e' he' active hmem'
  obtain rfl := eq_of_key_eq h.actives hac hac' (hid.trans hid'.symm)
  refine eq_of_key_eq h.requests he he' ?_
  rw [Prod.mk.injEq]
  exact ⟨hdevice.symm.trans hdevice', hrequest.symm.trans hrequest'⟩

/-! ## Devices -/

theorem Tracked.updateDevice (h : s.Tracked) {f : SecondariesDevice → SecondariesDevice}
    (hid : ∀ d, (f d).id = d.id)
    (hcurrent : ∀ d ∈ s.devices, d.id = device → d.actRequest ≤ (f d).actRequest ∧ ∀ e ∈ s.pendingSecondaries, e.device = device → e.request = (f d).actRequest → e.request = d.actRequest ∧ (f d).started = d.started) :
    (s.updateDevice device f).Tracked := by
  refine { h with devices := h.devices.modifyKey hid, known := ?_, current := ?_,
                  walks := fun c hc w hw => { h.walks c hc w hw with } }
  · intro e he
    obtain ⟨d, hd, hdevice⟩ := h.known e he
    have hids : (s.updateDevice device f).devices.map (·.id) = s.devices.map (·.id) :=
      map_key_modifyKey hid
    have hin : e.device ∈ (s.updateDevice device f).devices.map (·.id) := by
      rw [hids, ← hdevice]
      exact mem_map_of_mem hd
    exact mem_map.mp hin
  · intro e he d' hd' hdevice
    rcases mem_modifyKey hd' with ⟨hd', -⟩ | ⟨d, hd, hkey, rfl⟩
    · exact h.current e he d' hd' hdevice
    · rw [hid] at hdevice
      obtain ⟨hle, hsame⟩ := hcurrent d hd hkey
      obtain ⟨hrequest, hsecondaries⟩ := h.current e he d hd hdevice
      refine ⟨Nat.le_trans hrequest hle, fun heq => ?_⟩
      obtain ⟨heq, hstarted⟩ := hsame e he (hdevice.symm.trans hkey) heq
      rw [hstarted]
      exact hsecondaries heq

theorem Tracked.setState (h : s.Tracked) (device : ℕ) (state : NMDeviceState) :
    (s.updateDevice device fun d => { d with state := state }).Tracked :=
  h.updateDevice (fun _ => rfl) fun _ _ _ => ⟨Nat.le_refl _, fun _ _ _ heq => ⟨heq, rfl⟩⟩

theorem Tracked.pushCall (h : s.Tracked) (device : ℕ) (walk : Option SecondariesWalk)
    (hwalk : ∀ w ∈ walk, s.WalkFine w) : { s with calls := ⟨device, walk⟩ :: s.calls }.Tracked := by
  refine { h with walks := fun c hc w hw => ?_ }
  rcases mem_cons.mp hc with rfl | hc
  · exact { hwalk w hw with }
  · exact { h.walks c hc w hw with }

theorem mem_updateDevice
    (hd : d ∈ (s.updateDevice device fun d => { d with state := state }).devices) :
    (d ∈ s.devices ∧ d.id ≠ device) ∨ (d.id = device ∧ d.state = state) := by
  rcases mem_modifyKey hd with hd | ⟨d', -, hkey, rfl⟩
  · exact .inl hd
  · exact .inr ⟨hkey, rfl⟩

theorem stateChanged_eq_some (h : s.stateChanged device state walk = some s') :
    ∃ state', (state' = state ∨ state' = .activated) ∧
      s' = { s.updateDevice device fun d => { d with state := state' } with
        calls := ⟨device, walk⟩ :: s.calls } := by
  unfold stateChanged at h
  split at h
  · cases h
  · dsimp only at h
    split_ifs at h
    · exact ⟨_, .inr rfl, (Option.some.inj h).symm⟩
    · exact ⟨_, .inl rfl, (Option.some.inj h).symm⟩

theorem stateChanged_eq_none (hdevices : KeyUnique SecondariesDevice.id s.devices)
    (hd : d ∈ s.devices) (h : s.stateChanged d.id state walk = none)
    (hfree : ¬ s.InStateChanged d.id) : d.state = state ∨ d.state = .activated := by
  have hlookup := (lookupDevice_eq_some hdevices).mpr ⟨hd, rfl⟩
  simp only [stateChanged, hlookup] at h
  split_ifs at h with hexternal hreturns hreturns
  · exact .inr (hreturns.resolve_left hfree)
  · exact .inl (hreturns.resolve_left hfree)

/-! ## Data that is removed -/

theorem Tracked.freeData (h : s.Tracked) (he : e ∈ s.pendingSecondaries)
    (hnext : ∀ c ∈ s.calls, ∀ w ∈ c.walk, e.id ∉ w.next) : (s.freeData e.id).Tracked := by
  have hsub : ∀ e' ∈ (s.freeData e.id).pendingSecondaries, e' ∈ s.pendingSecondaries :=
    fun e' he' => (mem_eraseKey.mp he').1
  refine { h with freedOnce := ?_, requests := h.requests.filter _,
                  known := fun e' he' => h.known e' (hsub e' he'),
                  waitsFor := fun e' he' => h.waitsFor e' (hsub e' he'),
                  current := fun e' he' => h.current e' (hsub e' he'), walks := ?_ }
  · have hperm := ((perm_cons_eraseKey h.ids he).map (·.id)).append_right s.freed
    refine List.Perm.trans ?_ (hperm.symm.trans h.freedOnce)
    rw [SecondariesSystem.freeData, ← append_assoc, map_cons, cons_append]
    exact perm_append_singleton _ _
  · intro c hc w hw
    have hfine := h.walks c hc w hw
    refine { hfine with next := fun id hid => ?_,
                        notWaiting := fun e' he' => hfine.notWaiting e' (hsub e' he') }
    obtain ⟨e', he', rfl⟩ := hfine.next id hid
    refine ⟨e', mem_eraseKey.mpr ⟨he', fun heq => hnext c hc w hw ?_⟩, rfl⟩
    rw [← heq]
    exact hid

theorem moveDevice_cases (hdevices : KeyUnique SecondariesDevice.id s.devices) (hd : d ∈ s.devices)
    (hid : d.id = device) {w : SecondariesWalk}
    (hfree : d.Moves w.connected → ¬ s.InStateChanged device) :
    (s.moveDevice device w = none ∧ d.state ≠ .secondaries) ∨
    ∃ state, state ≠ .secondaries ∧ d.Moves w.connected ∧
      s.moveDevice device w = some { s.updateDevice device fun d => { d with state := state } with
        calls := ⟨device, some w⟩ :: s.calls
        moves := s.moves ++
          [⟨device, w.active, w.connected, d.started, s.activated, s.deactivated⟩] } := by
  subst hid
  have hlookup := (lookupDevice_eq_some hdevices).mpr ⟨hd, rfl⟩
  by_cases hmoves : d.Moves w.connected
  · have hmoves' := hmoves
    unfold SecondariesDevice.Moves at hmoves'
    simp only [moveDevice, hlookup, if_pos hmoves']
    cases hchanged : s.stateChanged d.id (if w.connected then .activated else .failed) (some w) with
    | none =>
      refine .inl ⟨rfl, fun hstate => ?_⟩
      rcases stateChanged_eq_none hdevices hd hchanged (hfree hmoves) with h | h
      · rw [hstate] at h
        split_ifs at h
      · simp [hstate] at h
    | some s' =>
      obtain ⟨state, hstate, rfl⟩ := stateChanged_eq_some hchanged
      refine .inr ⟨state, ?_, hmoves, rfl⟩
      rcases hstate with rfl | rfl
      · split_ifs <;> simp
      · simp
  · have hmoves' := hmoves
    unfold SecondariesDevice.Moves at hmoves'
    refine .inl ⟨?_, fun hstate => hmoves (.inl hstate)⟩
    simp only [moveDevice, hlookup, if_neg hmoves']

/-- Data is removed and its device moved, as its secondaries ask for. -/
theorem Tracked.finish (h : s.Tracked) (he : e ∈ s.pendingSecondaries) {next : Option ℕ}
    (hreach : (∀ c ∈ s.calls, ∀ w ∈ c.walk, e.id ∉ w.next) ∧ ∀ d ∈ s.devices, d.id = e.device → d.Moves connected → e.request = d.actRequest ∧ ¬ s.InStateChanged e.device)
    (hnext : ∀ id ∈ next, ∃ e' ∈ s.pendingSecondaries, e' ≠ e ∧ e'.id = id)
    (hactive : active < s.nextActive ∧ ∀ ac ∈ s.actives, ac.id = active → ac.authorizing = false)
    (hothers : ∀ e' ∈ s.pendingSecondaries, e' ≠ e → active ∉ e'.secondaries)
    (hmove : ∀ d ∈ s.devices, d.id = e.device → e.request = d.actRequest → (⟨e.device, active, connected, d.started, s.activated, s.deactivated⟩ : SecondariesMove).Sound)
    (hwaiting : ∀ e' ∈ s.pendingSecondaries, e' ≠ e → e'.secondaries ≠ [])
    (hwaits : ∀ d ∈ s.devices, d.state = .secondaries → d.started ≠ [] → ∃ e ∈ s.pendingSecondaries, e.device = d.id ∧ e.request = d.actRequest) :
    (((s.freeData e.id).moveDevice e.device ⟨active, connected, next⟩).getD
      (s.freeData e.id)).Inv := by
  have hfreed := h.freeData he hreach.1
  obtain ⟨d, hd, hdevice⟩ := h.known e he
  have hstays : ∀ e' ∈ s.pendingSecondaries, e' ≠ e → e' ∈ (s.freeData e.id).pendingSecondaries :=
    fun e' he' hne => mem_eraseKey.mpr ⟨he', fun hid => hne (eq_of_key_eq h.ids he' he hid)⟩
  have hleft : ∀ e' ∈ (s.freeData e.id).pendingSecondaries, e' ∈ s.pendingSecondaries ∧ e' ≠ e := by
    intro e' he'
    obtain ⟨he', hid⟩ := mem_eraseKey.mp he'
    exact ⟨he', fun heq => hid (heq ▸ rfl)⟩
  -- Every other device in SECONDARIES still has its data.
  have hother : ∀ d' ∈ s.devices, d'.id ≠ e.device → d'.state = .secondaries → d'.started ≠ [] →
      ∃ e' ∈ (s.freeData e.id).pendingSecondaries, e'.device = d'.id ∧ e'.request = d'.actRequest := by
    intro d' hd' hne hstate hstarted
    obtain ⟨e', he', hdevice', hrequest'⟩ := hwaits d' hd' hstate hstarted
    exact ⟨e', hstays e' he' fun heq => hne (heq ▸ hdevice'.symm), hdevice', hrequest'⟩
  rcases moveDevice_cases (w := ⟨active, connected, next⟩) hfreed.devices hd hdevice
      (fun hmoves => (hreach.2 d hd hdevice hmoves).2) with ⟨hnone, hstate⟩ | ⟨state, hstate, hmoves, hsome⟩
  · rw [hnone, Option.getD_none]
    refine { hfreed with waiting := fun e' he' => ?_, waits := fun d' hd' hstate' hstarted => ?_ }
    · obtain ⟨he', hne⟩ := hleft e' he'
      exact hwaiting e' he' hne
    · refine hother d' hd' (fun hid => hstate ?_) hstate' hstarted
      rwa [eq_of_key_eq h.devices hd hd' (hdevice.trans hid.symm)]
  · rw [hsome, Option.getD_some]
    have hrequest := (hreach.2 d hd hdevice hmoves).1
    have hwalk : (s.freeData e.id).WalkFine ⟨active, connected, next⟩ := by
      refine ⟨fun id hid => ?_, hactive.1, hactive.2, fun e' he' => ?_⟩
      · obtain ⟨e', he', hne, rfl⟩ := hnext id hid
        exact ⟨e', hstays e' he' hne, rfl⟩
      · obtain ⟨he', hne⟩ := hleft e' he'
        exact hothers e' he' hne
    have hpushed := (hfreed.setState e.device state).pushCall e.device (some _)
      fun w hw => Option.some.inj hw ▸ { hwalk with }
    refine { hpushed with walks := fun c hc w hw => { hpushed.walks c hc w hw with },
                          moves := fun m hm => ?_, waiting := fun e' he' => ?_,
                          waits := fun d' hd' hstate' hstarted => ?_ }
    · rcases mem_append.mp hm with hm | hm
      · exact h.moves m hm
      · rw [mem_singleton.mp hm]
        exact hmove d hd hdevice hrequest
    · obtain ⟨he', hne⟩ := hleft e' he'
      exact hwaiting e' he' hne
    · rcases mem_updateDevice hd' with ⟨hd', hne⟩ | ⟨-, heq⟩
      · exact hother d' hd' hne hstate' hstarted
      · exact absurd (heq.symm.trans hstate') hstate

/-! ## Active connections -/

theorem Tracked.updateActive (h : s.Tracked) (hid : ∀ ac, (f ac).id = ac.id)
    (hrequest : ∀ ac, (f ac).device = ac.device ∧ (f ac).request = ac.request)
    (hauthorizing : ∀ ac ∈ s.actives, (f ac).authorizing = true → ac.authorizing = true ∧ (f ac).added = false)
    : (s.updateActive active f).Tracked := by
  -- Every active connection comes from one with the same number.
  have hfrom : ∀ ac' ∈ (s.updateActive active f).actives, ∃ ac ∈ s.actives, ac.id = ac'.id ∧
      (ac'.authorizing = true → ac.authorizing = true ∧ ac'.added = false) := by
    intro ac' hac'
    rcases mem_modifyKey hac' with ⟨hac', -⟩ | ⟨ac, hac, -, rfl⟩
    · exact ⟨ac', hac', rfl, fun hau => ⟨hau, (h.authorizing ac' hac' hau).2⟩⟩
    · exact ⟨ac, hac, (hid ac).symm, hauthorizing ac hac⟩
  refine { h with actives := h.actives.modifyKey hid, actives_lt := ?_, authorizing := ?_,
                  waitsFor := ?_, walks := ?_ }
  · intro ac' hac'
    obtain ⟨ac, hac, heq, -⟩ := hfrom ac' hac'
    exact heq ▸ h.actives_lt ac hac
  · intro ac' hac' hau
    obtain ⟨ac, hac, heq, himp⟩ := hfrom ac' hac'
    exact ⟨heq ▸ (h.authorizing ac hac (himp hau).1).1, (himp hau).2⟩
  · intro e he a ha
    obtain ⟨hup, ac, hac, hida, hdevice, hreq⟩ := h.waitsFor e he a ha
    refine ⟨hup, _, mem_map_of_mem hac, ?_⟩
    split_ifs
    · obtain ⟨hdev, hrq⟩ := hrequest ac
      exact ⟨(hid ac).trans hida, hdev.trans hdevice, hrq.trans hreq⟩
    · exact ⟨hida, hdevice, hreq⟩
  · intro c hc w hw
    refine { h.walks c hc w hw with notAuthorizing := fun ac' hac' heq => ?_ }
    obtain ⟨ac, hac, hid', himp⟩ := hfrom ac' hac'
    by_contra hau
    have hold := (h.walks c hc w hw).notAuthorizing ac hac (hid'.trans heq)
    rw [(himp (by simpa using hau)).1] at hold
    exact absurd hold (by decide)

/-- An active connection became `ACTIVATED`, and nothing waits for it any more. -/
theorem Tracked.dropActive (h : s.Tracked) (hlt : active < s.nextActive)
    (hau : ∀ ac ∈ s.actives, ac.id = active → ac.authorizing = false) :
    ({ s with activated := s.activated ++ [active] }.dropActive active).Tracked := by
  have hnotin : ∀ a, a ∉ s.activated ++ [active] ↔ a ∉ s.activated ∧ a ≠ active := by simp
  refine { h with activated_lt := ?_, authorizing := ?_, freedOnce := ?_, requests := ?_,
                  known := ?_, waitsFor := ?_, current := ?_, walks := ?_ }
  · intro a ha
    rcases mem_append.mp ha with ha | ha
    · exact h.activated_lt a ha
    · rwa [mem_singleton.mp ha]
  · intro ac hac hauthorizing
    obtain ⟨hup, hadded⟩ := h.authorizing ac hac hauthorizing
    refine ⟨(hnotin _).mpr ⟨hup, fun heq => ?_⟩, hadded⟩
    rw [hau ac hac heq] at hauthorizing
    exact absurd hauthorizing (by decide)
  · rw [SecondariesSystem.dropActive, map_map]
    exact h.freedOnce
  · unfold KeyUnique
    rw [SecondariesSystem.dropActive, map_map]
    exact h.requests
  · intro e' he'
    obtain ⟨e, he, rfl⟩ := mem_map.mp he'
    exact h.known e he
  · intro e' he' a ha
    obtain ⟨e, he, rfl⟩ := mem_map.mp he'
    obtain ⟨hmem, hne⟩ := mem_filter.mp ha
    obtain ⟨hup, hac⟩ := h.waitsFor e he a hmem
    exact ⟨(hnotin a).mpr ⟨hup, by simpa using hne⟩, hac⟩
  · intro e' he' d hd hdevice
    obtain ⟨e, he, rfl⟩ := mem_map.mp he'
    obtain ⟨hle, hsecondaries⟩ := h.current e he d hd hdevice
    refine ⟨hle, fun heq => ?_⟩
    rw [PendingSecondaryData.drop, hsecondaries heq, filter_filter]
    apply filter_congr
    intro a ha
    show (decide (a ≠ active) && decide (a ∉ s.activated)) = decide (a ∉ s.activated ++ [active])
    simp [and_comm]
  · intro c hc w hw
    have hfine := h.walks c hc w hw
    refine { hfine with next := fun id hid => ?_, notWaiting := fun e' he' hmem => ?_ }
    · obtain ⟨e, he, rfl⟩ := hfine.next id hid
      exact ⟨e.drop active, mem_map_of_mem he, rfl⟩
    · obtain ⟨e, he, rfl⟩ := mem_map.mp he'
      exact hfine.notWaiting e he (mem_filter.mp hmem).1

theorem freeData_dropActive
    (hothers : ∀ e' ∈ s.pendingSecondaries, e'.id ≠ e.id → active ∉ e'.secondaries) :
    (s.dropActive active).freeData e.id = s.freeData e.id := by
  have herase : eraseKey PendingSecondaryData.id e.id (s.pendingSecondaries.map (·.drop active)) =
      eraseKey PendingSecondaryData.id e.id s.pendingSecondaries := by
    rw [eraseKey, filter_map]
    conv_rhs => rw [eraseKey, ← map_id (List.filter _ s.pendingSecondaries)]
    apply map_congr_left
    intro e' he'
    have hin : e' ∈ eraseKey PendingSecondaryData.id e.id s.pendingSecondaries := he'
    obtain ⟨he', hne⟩ := mem_eraseKey.mp hin
    exact PendingSecondaryData.drop_of_not_mem (hothers e' he' hne)
  rw [freeData, freeData, dropActive, herase]

/-- The report that an active connection became `ACTIVATED`. -/
theorem Inv.reportActivated (h : s.Inv) (hlt : active < s.nextActive)
    (hau : ∀ ac ∈ s.actives, ac.id = active → ac.authorizing = false)
    (hreach : s.ReportInReach active true) :
    (processSecondaries active true s.pendingSecondaries
      { s with activated := s.activated ++ [active] }).Inv := by
  have hdropped := h.dropActive hlt hau
  have hwaits : ∀ d ∈ s.devices, d.state = .secondaries → d.started ≠ [] →
      ∃ e ∈ s.pendingSecondaries.map (·.drop active), e.device = d.id ∧ e.request = d.actRequest := by
    intro d hd hstate hstarted
    obtain ⟨e, he, hdevice, hrequest⟩ := h.waits d hd hstate hstarted
    exact ⟨e.drop active, mem_map_of_mem he, hdevice, hrequest⟩
  rcases processSecondaries_cases (s := { s with activated := s.activated ++ [active] })
      true h.ids (fun e he e' he' => h.one he he') _ (List.Sublist.refl _)
      (fun e he _ => he) with ⟨hnone, heq⟩ | ⟨e, he, hfinishes, hothers, next, hnext, heq⟩
  · rw [heq]
    refine { hdropped with waiting := fun e' he' => ?_, waits := hwaits }
    obtain ⟨e, he, rfl⟩ := mem_map.mp he'
    by_cases hmem : active ∈ e.secondaries
    · intro hnil
      refine hnone e he ⟨hmem, fun _ a ha => ?_⟩
      have hfilter := filter_eq_nil_iff.mp hnil a ha
      simpa using hfilter
    · rw [PendingSecondaryData.drop_of_not_mem hmem]
      exact h.waiting e he
  · have hsame : ∀ e' ∈ s.pendingSecondaries, e' ≠ e → e'.drop active = e' := fun e' he' hne =>
      PendingSecondaryData.drop_of_not_mem (hothers e' he' hne)
    rw [heq, ← freeData_dropActive fun e' he' hne => hothers e' he' fun heq => hne (heq ▸ rfl)]
    refine hdropped.finish (e := e.drop active) (mem_map_of_mem he) (hreach e he hfinishes) ?_
      ⟨hlt, hau⟩ ?_ ?_ ?_ hwaits
    · intro id hid
      obtain ⟨e', he', hne, rfl⟩ := hnext id hid
      refine ⟨e'.drop active, mem_map_of_mem he', fun heq => hne ?_, rfl⟩
      have hid := congrArg PendingSecondaryData.id heq
      exact eq_of_key_eq h.ids he' he hid
    · intro e' he' hne hmem
      obtain ⟨e', -, rfl⟩ := mem_map.mp he'
      exact absurd (mem_filter.mp hmem).2 (by simp)
    · intro d hd hdevice hrequest
      refine ⟨fun _ => ?_, fun hfalse => absurd (show true = false from hfalse) (by decide)⟩
      have hsecondaries := (h.current e he d hd hdevice).2 hrequest
      refine ⟨fun hnil => ?_, fun a ha => ?_⟩
      · exact h.waiting e he (by rw [hsecondaries, show d.started = [] from hnil, filter_nil])
      · by_cases hup : a ∈ s.activated
        · exact mem_append_left _ hup
        · have hmem : a ∈ e.secondaries := by
            rw [hsecondaries]
            exact mem_filter.mpr ⟨ha, by simpa using hup⟩
          rw [hfinishes.2 rfl a hmem]
          exact mem_append_right _ (mem_singleton_self active)
    · intro dropped hin hne
      obtain ⟨e', he', rfl⟩ := mem_map.mp hin
      have hne' : e' ≠ e := fun heq => hne (heq ▸ rfl)
      rw [hsame e' he' hne']
      exact h.waiting e' he'

theorem Inv.reportDeactivated (h : s.Inv) (hlt : active < s.nextActive)
    (hau : ∀ ac ∈ s.actives, ac.id = active → ac.authorizing = false)
    (hdown : active ∈ s.deactivated) (hreach : s.ReportInReach active false) :
    (processSecondaries active false s.pendingSecondaries s).Inv := by
  rcases processSecondaries_cases false h.ids (fun e he e' he' => h.one he he') _
      (List.Sublist.refl _) (fun e he _ => he) with
    ⟨hnone, heq⟩ | ⟨e, he, hfinishes, hothers, next, hnext, heq⟩
  · have hmap : s.pendingSecondaries.map (·.drop active) = s.pendingSecondaries := by
      conv_rhs => rw [← map_id s.pendingSecondaries]
      apply map_congr_left
      intro e he
      refine PendingSecondaryData.drop_of_not_mem fun hmem => hnone e he ⟨hmem, ?_⟩
      exact fun hfalse => absurd hfalse (by decide)
    rw [heq, dropActive, hmap]
    exact h
  · rw [heq]
    refine h.finish he (hreach e he hfinishes) hnext ⟨hlt, hau⟩ hothers ?_
      (fun e' he' _ => h.waiting e' he') h.waits
    intro d hd hdevice hrequest
    refine ⟨fun hfalse => absurd (show false = true from hfalse) (by decide), fun _ => ?_⟩
    have hsecondaries := (h.current e he d hd hdevice).2 hrequest
    have hmem := hfinishes.1
    rw [hsecondaries] at hmem
    obtain ⟨hin, hup⟩ := mem_filter.mp hmem
    exact ⟨hin, hdown, active, hin, by simpa using hup⟩

theorem Inv.updateActive (h : s.Inv) (hid : ∀ ac, (f ac).id = ac.id)
    (hrequest : ∀ ac, (f ac).device = ac.device ∧ (f ac).request = ac.request)
    (hauthorizing : ∀ ac ∈ s.actives, (f ac).authorizing = true → ac.authorizing = true ∧ (f ac).added = false)
    : (s.updateActive active f).Inv :=
  { h.toTracked.updateActive hid hrequest hauthorizing with
    waiting := h.waiting, waits := h.waits }

theorem Inv.deactivated (h : s.Inv) (deactivated : List ℕ) :
    { s with deactivated := deactivated }.Inv :=
  { h with walks := fun c hc w hw => { h.walks c hc w hw with } }

/-- What `nm_active_connection_set_state()` stores in the active connection. -/
def storeActiveState (s : SecondariesSystem) (active : ℕ) (state : NMActiveConnectionState) :
    SecondariesSystem :=
  { s.updateActive active fun ac =>
      { ac with state := state, authorizing := ac.authorizing && state ≠ .deactivated } with
    deactivated := if state = .deactivated then s.deactivated ++ [active] else s.deactivated }

theorem Inv.storeActiveState (h : s.Inv) (active : ℕ) (state : NMActiveConnectionState) :
    (s.storeActiveState active state).Inv := by
  refine Inv.deactivated ?_ _
  refine h.updateActive (fun _ => rfl) (fun _ => ⟨rfl, rfl⟩) fun ac hac hau => ?_
  have hau' : ac.authorizing = true := (Bool.and_eq_true_iff.mp hau).1
  exact ⟨hau', (h.authorizing ac hac hau').2⟩

theorem storeActiveState_authorizing (h : s.Inv) {ac : SecondaryActive} (hac : ac ∈ s.actives)
    (hadded : ac.added = true) (state : NMActiveConnectionState) :
    ∀ ac' ∈ (s.storeActiveState ac.id state).actives, ac'.id = ac.id → ac'.authorizing = false := by
  intro ac' hac' hid
  rcases mem_modifyKey hac' with ⟨-, hne⟩ | ⟨ac'', hac'', hid'', rfl⟩
  · exact absurd hid hne
  · obtain rfl := eq_of_key_eq h.actives hac'' hac hid''
    have hold : ac''.authorizing = false := by
      by_contra hau
      have := (h.authorizing ac'' hac (by simpa using hau)).2
      simp [hadded] at this
    simp [hold]

theorem Inv.activeState (h : s.Inv) (state : NMActiveConnectionState)
    (hreach : s.InReach (.activeState active state)) : (s.activeState active state).Inv := by
  unfold SecondariesSystem.activeState
  cases hlookup : lookup SecondaryActive.id active s.actives with
  | none => exact h
  | some ac =>
    have hac := mem_of_lookup hlookup
    obtain rfl := key_of_lookup hlookup
    have hstored := h.storeActiveState ac.id state
    dsimp only
    split_ifs with htakes hadded
    · obtain ⟨hup, hdown⟩ := hreach ac hac rfl hadded htakes
      have hlt : ac.id < s.nextActive := h.actives_lt ac hac
      have hau := storeActiveState_authorizing h hac hadded state
      cases state with
      | activated => exact hstored.reportActivated hlt hau (hup rfl)
      | deactivated =>
        refine hstored.reportDeactivated hlt hau ?_ (hdown rfl)
        exact mem_append_right _ (mem_singleton_self ac.id)
      | unknown => exact hstored
      | activating => exact hstored
      | deactivating => exact hstored
    · cases state with
      | activated => exact absurd (htakes.2.2 rfl) hadded
      | _ => exact hstored
    · exact h

theorem Inv.authorized (h : s.Inv) (active : ℕ) (success : Bool) :
    (s.authorized active success).Inv := by
  refine h.updateActive (fun ac => ?_) (fun ac => ?_) fun ac hac => ?_
  · split_ifs <;> rfl
  · split_ifs <;> exact ⟨rfl, rfl⟩
  · split_ifs with hau
    · simp
    · simp
    · exact fun hau' => absurd hau' hau

/-! ## Calls that return -/

theorem Inv.returnCall (h : s.Inv) : s.returnCall.Inv := by
  unfold SecondariesSystem.returnCall
  cases hcalls : s.calls with
  | nil => exact h
  | cons c calls =>
    have hmem : ∀ c' ∈ calls, c' ∈ s.calls := fun c' hc' => hcalls ▸ mem_cons_of_mem c hc'
    have hpopped : { s with calls := calls }.Inv :=
      { h with walks := fun c' hc' w hw => { h.walks c' (hmem c' hc') w hw with } }
    dsimp only
    cases hwalk : c.walk with
    | none => exact hpopped
    | some w =>
      have hfine := h.walks c (hcalls ▸ mem_cons_self) w hwalk
      dsimp only
      unfold SecondariesSystem.resume
      cases hnext : w.next with
      | none => exact hpopped
      | some data =>
        obtain ⟨e, he, hid⟩ := hfine.next data hnext
        dsimp only
        cases hrest : s.pendingSecondaries.dropWhile (·.id ≠ data) with
        | nil =>
          have hne := dropWhile_eq_nil_iff.mp hrest e he
          simp [hid] at hne
        | cons e' rest =>
          -- No data waits for the active connection any more.
          have hin : ∀ e'' ∈ e' :: rest, e'' ∈ s.pendingSecondaries := fun e'' h'' =>
            (dropWhile_sublist _).subset (hrest ▸ h'')
          dsimp only
          rw [processSecondaries_of_not_mem (s := { s with calls := calls }) h.ids _ hin
            fun e'' h'' => hfine.notWaiting e'' (hin e'' h'')]
          exact hpopped

/-! ## Secondaries that start -/

/-- An active connection that was just started for the act request of the device. -/
def Started (s : SecondariesSystem) (d : SecondariesDevice) (a : ℕ) : Prop :=
  ∃ ac ∈ s.actives, ac.id = a ∧ ac.device = d.id ∧ ac.request = d.actRequest ∧
    ac.authorizing = true

/-- Only active connections were started in between. -/
structure StartsFrom (s s' : SecondariesSystem) : Prop where
  same : s' = { s with actives := s'.actives, nextActive := s'.nextActive }
  kept : ∀ ac ∈ s.actives, ac ∈ s'.actives
  tracked : s'.Tracked

theorem StartsFrom.trans {s'' : SecondariesSystem} (h : s.StartsFrom s') (h' : s'.StartsFrom s'')
    : s.StartsFrom s'' where
  same := by
    rw [h'.same, h.same]
  kept ac hac := h'.kept ac (h.kept ac hac)
  tracked := h'.tracked

theorem Tracked.activateConnection (h : s.Tracked) (d : SecondariesDevice) (settConn : ℕ) :
    s.StartsFrom (s.activateConnection d settConn).1 ∧
      (s.activateConnection d settConn).1.Started d (s.activateConnection d settConn).2 := by
  unfold SecondariesSystem.activateConnection
  split
  · rename_i ac hfind
    have hfound := List.find?_some hfind
    simp only [Bool.and_eq_true, beq_iff_eq] at hfound
    obtain ⟨⟨hau, -⟩, ⟨-, hdevice⟩, hrequest⟩ := hfound
    exact ⟨⟨rfl, fun _ h => h, h⟩, ac, mem_of_find?_eq_some hfind, rfl, hdevice, hrequest, hau⟩
  · have hnew : ∀ ac ∈ s.actives, ac.id ≠ s.nextActive := fun ac hac =>
      Nat.ne_of_lt (h.actives_lt ac hac)
    have hkept : ∀ ac ∈ s.actives, ac ∈ s.actives ++
        [⟨s.nextActive, d.id, d.actRequest, settConn, .unknown, true, false⟩] :=
      fun ac hac => mem_append_left _ hac
    refine ⟨⟨rfl, hkept, ?_⟩, _, mem_append_right _ (mem_singleton_self _),
      rfl, rfl, rfl, rfl⟩
    refine { h with actives := h.actives.append_singleton hnew, actives_lt := fun ac hac => ?_,
                    activated_lt := fun a ha => Nat.lt_succ_of_lt (h.activated_lt a ha),
                    authorizing := fun ac hac hau => ?_, waitsFor := fun e he a ha => ?_,
                    walks := fun c hc w hw => ?_ }
    · rcases mem_append.mp hac with hac | hac
      · exact Nat.lt_succ_of_lt (h.actives_lt ac hac)
      · rw [mem_singleton.mp hac]
        exact Nat.lt_succ_self _
    · rcases mem_append.mp hac with hac | hac
      · exact h.authorizing ac hac hau
      · rw [mem_singleton.mp hac]
        exact ⟨fun hup => Nat.lt_irrefl _ (h.activated_lt _ hup), rfl⟩
    · obtain ⟨hup, ac, hac, hrest⟩ := h.waitsFor e he a ha
      exact ⟨hup, ac, hkept ac hac, hrest⟩
    · have hfine := h.walks c hc w hw
      refine { hfine with active_lt := Nat.lt_succ_of_lt hfine.active_lt,
                          notAuthorizing := fun ac hac hid => ?_ }
      rcases mem_append.mp hac with hac | hac
      · exact hfine.notAuthorizing ac hac hid
      · rw [mem_singleton.mp hac] at hid
        exact absurd hid (Nat.ne_of_gt hfine.active_lt)

theorem Tracked.activateSecondaries (h : s.Tracked) (d : SecondariesDevice)
    (secondaries : List SecondaryProfile) (started : List ℕ)
    (hstarted : ∀ a ∈ started, s.Started d a) :
    s.StartsFrom (activateSecondaries d secondaries started s).1 ∧
      ∀ started' ∈ (activateSecondaries d secondaries started s).2,
        ∀ a ∈ started', (activateSecondaries d secondaries started s).1.Started d a := by
  induction secondaries generalizing s started with
  | nil =>
    refine ⟨⟨rfl, fun _ hac => hac, h⟩, fun started' heq => ?_⟩
    obtain rfl := Option.some.inj heq
    exact hstarted
  | cons profile rest ih =>
    cases profile with
    | vpn settConn =>
      obtain ⟨hfrom, hone⟩ := h.activateConnection d settConn
      obtain ⟨hfrom', hall⟩ := ih hfrom.tracked (started ++ [(s.activateConnection d settConn).2])
        fun a ha => by
          rcases mem_append.mp ha with ha | ha
          · obtain ⟨ac, hac, hac'⟩ := hstarted a ha
            exact ⟨ac, hfrom.kept ac hac, hac'⟩
          · rw [mem_singleton.mp ha]
            exact hone
      exact ⟨hfrom.trans hfrom', hall⟩
    | missing => exact ⟨⟨rfl, fun _ hac => hac, h⟩, by simp [SecondariesSystem.activateSecondaries]⟩
    | notVpn => exact ⟨⟨rfl, fun _ hac => hac, h⟩, by simp [SecondariesSystem.activateSecondaries]⟩
    | refused => exact ⟨⟨rfl, fun _ hac => hac, h⟩, by simp [SecondariesSystem.activateSecondaries]⟩

/-- New data waits for what was started for the act request of its device. -/
theorem Tracked.newData (h : s.Tracked) (hd : d ∈ s.devices) {started : List ℕ}
    (hstarted : ∀ a ∈ started, s.Started d a)
    (hfresh : ∀ e ∈ s.pendingSecondaries, e.device = d.id → e.request ≠ d.actRequest) :
    Tracked { s.updateDevice d.id fun d => { d with started := started } with
      pendingSecondaries := s.pendingSecondaries ++ [⟨s.nextData, d.id, started, d.actRequest⟩]
      nextData := s.nextData + 1 } := by
  have hupdated : (s.updateDevice d.id fun d => { d with started := started }).Tracked := by
    refine h.updateDevice (fun _ => rfl) fun d' hd' hid => ⟨Nat.le_refl _, fun e he hdevice heq => ?_⟩
    rw [eq_of_key_eq h.devices hd' hd hid] at heq
    exact absurd heq (hfresh e he hdevice)
  refine { hupdated with freedOnce := ?_, requests := ?_, known := ?_, waitsFor := ?_,
                         current := ?_, walks := ?_ }
  · rw [map_append, range_succ, append_assoc]
    refine List.Perm.trans (List.Perm.append_left _ perm_append_comm) ?_
    rw [← append_assoc]
    exact h.freedOnce.append_right _
  · refine KeyUnique.append_singleton h.requests fun e he heq => ?_
    obtain ⟨hdevice, hrequest⟩ := Prod.mk.inj heq
    exact hfresh e he hdevice hrequest
  · intro e he
    rcases mem_append.mp he with he | he
    · exact hupdated.known e he
    · rw [mem_singleton.mp he]
      refine ⟨_, mem_map_of_mem hd, ?_⟩
      split_ifs <;> rfl
  · intro e he a ha
    rcases mem_append.mp he with he | he
    · exact h.waitsFor e he a ha
    · rw [mem_singleton.mp he] at ha ⊢
      obtain ⟨ac, hac, hid, hdevice, hrequest, hau⟩ := hstarted a ha
      exact ⟨hid ▸ (h.authorizing ac hac hau).1, ac, hac, hid, hdevice, hrequest⟩
  · intro e he d' hd' hdevice
    rcases mem_append.mp he with he | he
    · exact hupdated.current e he d' hd' hdevice
    · rw [mem_singleton.mp he] at hdevice ⊢
      rcases mem_modifyKey hd' with ⟨-, hne⟩ | ⟨d'', hd'', hid, rfl⟩
      · exact absurd hdevice hne
      · obtain rfl := eq_of_key_eq h.devices hd'' hd hid
        refine ⟨Nat.le_refl _, fun _ => (filter_eq_self.mpr fun a ha => ?_).symm⟩
        obtain ⟨ac, hac, hid, -, -, hau⟩ := hstarted a ha
        simpa using hid ▸ (h.authorizing ac hac hau).1
  · intro c hc w hw
    have hfine := h.walks c hc w hw
    refine { hfine with next := fun id hid => ?_, notWaiting := fun e he hmem => ?_ }
    · obtain ⟨e, he, hid⟩ := hfine.next id hid
      exact ⟨e, mem_append_left _ he, hid⟩
    · rcases mem_append.mp he with he | he
      · exact hfine.notWaiting e he hmem
      · rw [mem_singleton.mp he] at hmem
        obtain ⟨ac, hac, hid, -, -, hau⟩ := hstarted _ hmem
        rw [hfine.notAuthorizing ac hac hid] at hau
        exact absurd hau (by decide)

/-- The secondaries of a device that has just reached `SECONDARIES` are started. -/
theorem Tracked.activateSecondaryConnections (h : s.Tracked) (hd : d ∈ s.devices)
    (secondaries : List SecondaryProfile)
    (hfresh : ∀ e ∈ s.pendingSecondaries, e.device = d.id → e.request ≠ d.actRequest)
    (hwaiting : ∀ e ∈ s.pendingSecondaries, e.secondaries ≠ [])
    (hwaits : ∀ d' ∈ s.devices, d'.id ≠ d.id → d'.state = .secondaries → d'.started ≠ [] → ∃ e ∈ s.pendingSecondaries, e.device = d'.id ∧ e.request = d'.actRequest) :
    (s.activateSecondaryConnections d secondaries).Inv := by
  obtain ⟨⟨hsame, -, htracked⟩, hall⟩ := h.activateSecondaries d secondaries [] (by simp)
  unfold SecondariesSystem.activateSecondaryConnections
  revert hsame htracked hall
  generalize SecondariesSystem.activateSecondaries d secondaries [] s = result
  obtain ⟨s', started⟩ := result
  intro hall hsame htracked
  dsimp only at hall hsame htracked
  have hdevices : s'.devices = s.devices := by rw [hsame]
  have hpending : s'.pendingSecondaries = s.pendingSecondaries := by rw [hsame]
  rw [← hdevices] at hd hwaits
  rw [← hpending] at hfresh hwaiting hwaits
  -- The devices other than this one wait as before.
  have hothers : ∀ started' : List ℕ, ∀ d' ∈ (s'.updateDevice d.id fun d =>
      { d with started := started' }).devices, d'.id ≠ d.id → d' ∈ s'.devices := by
    intro started' d' hd' hne
    rcases mem_modifyKey hd' with ⟨hd', -⟩ | ⟨d'', -, hid, rfl⟩
    · exact hd'
    · exact absurd hid hne
  have hthis : ∀ started' : List ℕ, ∀ d' ∈ (s'.updateDevice d.id fun d =>
      { d with started := started' }).devices, d'.id = d.id →
        d'.actRequest = d.actRequest ∧ d'.started = started' := by
    intro started' d' hd' hid
    rcases mem_modifyKey hd' with ⟨-, hne⟩ | ⟨d'', hd'', hid', rfl⟩
    · exact absurd hid hne
    · rw [eq_of_key_eq htracked.devices hd'' hd hid']
      exact ⟨rfl, rfl⟩
  split
  · rename_i s'' active actives heq
    obtain ⟨rfl, rfl⟩ := Prod.mk.inj heq
    have hnew := htracked.newData hd (hall _ rfl) hfresh
    refine { hnew with waiting := fun e he => ?_, waits := fun d' hd' hstate hstarted => ?_ }
    · rcases mem_append.mp he with he | he
      · exact hwaiting e he
      · rw [mem_singleton.mp he]
        exact cons_ne_nil active actives
    · by_cases hid : d'.id = d.id
      · obtain ⟨hrequest, -⟩ := hthis _ d' hd' hid
        exact ⟨_, mem_append_right _ (mem_singleton_self _), hid.symm, hrequest.symm⟩
      · obtain ⟨e, he, hwait⟩ := hwaits d' (hothers _ d' hd' hid) hid hstate hstarted
        exact ⟨e, mem_append_left _ he, hwait⟩
  · rename_i s'' started' _ heq
    obtain ⟨rfl, -⟩ := Prod.mk.inj heq
    have hupdated : (s'.updateDevice d.id fun d => { d with started := [] }).Tracked := by
      refine htracked.updateDevice (fun _ => rfl) fun d' hd' hid =>
        ⟨Nat.le_refl _, fun e he hdevice heq => ?_⟩
      rw [eq_of_key_eq htracked.devices hd' hd hid] at heq
      exact absurd heq (hfresh e he hdevice)
    refine { hupdated with waiting := hwaiting, waits := fun d' hd' hstate hstarted => ?_ }
    by_cases hid : d'.id = d.id
    · exact absurd (hthis _ d' hd' hid).2 hstarted
    · exact hwaits d' (hothers _ d' hd' hid) hid hstate hstarted

theorem Inv.deviceState (h : s.Inv) {secondaries : List SecondaryProfile}
    (hreach : s.InReach (.deviceState device state secondaries)) :
    (s.deviceState device state secondaries).Inv := by
  unfold SecondariesSystem.deviceState
  cases hchanged : s.stateChanged device state none with
  | none => exact h
  | some s' =>
    obtain ⟨state', hstate', rfl⟩ := stateChanged_eq_some hchanged
    have htracked := (h.setState device state').pushCall device none (by simp)
    have hothers : ∀ d ∈ (s.updateDevice device fun d => { d with state := state' }).devices,
        d.id ≠ device → d ∈ s.devices := by
      intro d hd hne
      rcases mem_modifyKey hd with ⟨hd, -⟩ | ⟨d', -, hid, rfl⟩
      · exact hd
      · exact absurd hid hne
    dsimp only
    cases hlookup : SecondariesSystem.lookupDevice _ device with
    | none =>
      refine { htracked with waiting := h.waiting, waits := fun d hd hstate hstarted => ?_ }
      have hne : d.id ≠ device := lookup_eq_none_iff.mp hlookup d hd
      exact h.waits d (hothers d hd hne) hstate hstarted
    | some d =>
      obtain ⟨hd, rfl⟩ := (lookupDevice_eq_some htracked.devices).mp hlookup
      dsimp only
      split_ifs with hsecondaries
      · refine htracked.activateSecondaryConnections hd secondaries (fun e he hdevice => ?_) h.waiting
          fun d' hd' hne => h.waits d' (hothers d' hd' hne)
        rcases mem_modifyKey hd with ⟨-, hne⟩ | ⟨d', hd', hid, hdevice'⟩
        · exact absurd rfl hne
        · have hstate : state' = .secondaries := by
            rw [hdevice'] at hsecondaries
            exact hsecondaries
          rcases hstate' with rfl | rfl
          · subst hstate
            have hne := hreach e he d' hd' hdevice hid
            rw [hdevice']
            exact hne
          · exact absurd hstate (by decide)
      · refine { htracked with waiting := h.waiting, waits := fun d' hd' hstate hstarted => ?_ }
        by_cases hid : d'.id = d.id
        · rw [eq_of_key_eq htracked.devices hd' hd hid] at hstate
          exact absurd hstate hsecondaries
        · exact h.waits d' (hothers d' hd' hid) hstate hstarted

/-! ## Runs -/

/-- An event in reach keeps the invariant. -/
theorem Inv.step (h : s.Inv) (e : SecondariesEvent) (hreach : s.InReach e) : (s.step e).Inv := by
  cases e with
  | deviceAdded device =>
    simp only [SecondariesSystem.step]
    split_ifs with hknown
    · exact h
    · have hnew : ∀ d ∈ s.devices, d.id ≠ device := by
        rw [Bool.not_eq_true, Option.isSome_eq_false_iff, Option.isNone_iff_eq_none] at hknown
        exact lookup_eq_none_iff.mp hknown
      refine { h with devices := h.devices.append_singleton hnew, known := fun e he => ?_,
                      current := fun e he d hd hdevice => ?_,
                      walks := fun c hc w hw => { h.walks c hc w hw with },
                      waits := fun d hd hstate hstarted => ?_ }
      · obtain ⟨d, hd, hdevice⟩ := h.known e he
        exact ⟨d, mem_append_left _ hd, hdevice⟩
      · rcases mem_append.mp hd with hd | hd
        · exact h.current e he d hd hdevice
        · rw [mem_singleton.mp hd] at hdevice
          obtain ⟨d', hd', hdevice'⟩ := h.known e he
          exact absurd (hdevice'.trans hdevice.symm) (hnew d' hd')
      · rcases mem_append.mp hd with hd | hd
        · exact h.waits d hd hstate hstarted
        · rw [mem_singleton.mp hd] at hstarted
          exact absurd rfl hstarted
  | sysIfaceState device externalOrAssume =>
    have htracked : (s.step (.sysIfaceState device externalOrAssume)).Tracked :=
      h.updateDevice (fun _ => rfl) fun _ _ _ => ⟨Nat.le_refl _, fun _ _ _ heq => ⟨heq, rfl⟩⟩
    refine { htracked with waiting := h.waiting, waits := fun d hd hstate hstarted => ?_ }
    rcases mem_modifyKey hd with ⟨hd, -⟩ | ⟨d', hd', -, rfl⟩
    · exact h.waits d hd hstate hstarted
    · exact h.waits d' hd' hstate hstarted
  | activate device internalSubject =>
    have htracked : (s.step (.activate device internalSubject)).Tracked := by
      refine h.updateDevice (fun _ => rfl) fun d hd hid => ⟨Nat.le_succ _, fun e he hdevice heq => ?_⟩
      have hle := (h.current e he d hd (hid.trans hdevice.symm)).1
      dsimp only at heq
      omega
    refine { htracked with waiting := h.waiting, waits := fun d hd hstate hstarted => ?_ }
    rcases mem_modifyKey hd with ⟨hd, -⟩ | ⟨d', -, -, rfl⟩
    · exact h.waits d hd hstate hstarted
    · exact absurd rfl hstarted
  | deviceState device state secondaries => exact h.deviceState hreach
  | returnCall => exact h.returnCall
  | authorized active success => exact h.authorized active success
  | activeState active state => exact h.activeState state hreach

/-- In a run whose events are in reach, the secondaries decide about their own activation only. -/
theorem secondaries_sound (es : List SecondariesEvent) (h : Along step InReach start es) :
    (es.foldl step start).Sound :=
  (h.foldl (fun _ e hs hreach => hs.step e hreach) start_inv).sound

/-- A secondary of the first activation goes down during the second one. -/
def reconnectRun : List SecondariesEvent :=
  [.deviceAdded 1, .activate 1 false, .deviceState 1 .ipCheck [], .returnCall,
    .deviceState 1 .secondaries [.vpn 7], .returnCall, .authorized 0 true,
    .deviceState 1 .deactivating [], .returnCall, .deviceState 1 .disconnected [], .returnCall,
    .activate 1 false, .deviceState 1 .ipCheck [], .returnCall,
    .deviceState 1 .secondaries [.vpn 7], .returnCall, .activeState 0 .deactivated]

/-- The second activation fails though its secondary is not down. -/
theorem reconnectRun_not_sound : ¬ (reconnectRun.foldl step start).Sound := by
  intro h
  have hmove := (h.moves ⟨1, 0, false, [1], [], [0]⟩ (by decide)).oneDeactivated rfl
  revert hmove
  decide

def twoSecondariesRun : List SecondariesEvent :=
  [.deviceAdded 1, .activate 1 false, .deviceState 1 .ipCheck [], .returnCall,
    .deviceState 1 .secondaries [.vpn 7, .vpn 8], .returnCall, .authorized 0 true,
    .authorized 1 true, .activeState 1 .activated, .activeState 0 .activated, .returnCall]

theorem twoSecondariesRun_sound : (twoSecondariesRun.foldl step start).Sound :=
  secondaries_sound twoSecondariesRun (by
    refine ⟨trivial, trivial, trivial, trivial, ?_, trivial, trivial, trivial, ?_, ?_, trivial, trivial⟩
    all_goals
      unfold InReach
      decide)

end SecondariesSystem
end NetworkManager.Core
