import NetworkManager.Core.Checkpoint

/-!
# Checkpoints cover disjoint devices

The tests for overlaps look at the hash tables only, where the devices that were removed are not
any more, and a rollback visits a hash table while devices may leave it. Where neither matters, the
live checkpoints are disjoint and every rollback has one result for each device.
-/

namespace NetworkManager.Core

open Lib
open List hiding lookup

def CheckpointNMDevice.key (d : CheckpointNMDevice) : ℕ × ℕ := (d.iface, d.deviceType)

def DeviceCheckpoint.key (x : DeviceCheckpoint) : ℕ × ℕ := (x.originalDevName, x.devType)

namespace Checkpoint

/-- Two checkpoints cover a device, where a removed device is identified by its name and type. -/
def Shares (c c' : Checkpoint) : Prop :=
  (∃ x ∈ c.devices, ∃ y ∈ c'.devices, x.device = y.device) ∨
    (∃ x ∈ c.removedDevices, ∃ y ∈ c'.devices ++ c'.removedDevices, x.key = y.key) ∨
      ∃ x ∈ c.devices, ∃ y ∈ c'.removedDevices, x.key = y.key

instance (c c' : Checkpoint) : Decidable (c.Shares c') :=
  inferInstanceAs (Decidable (_ ∨ _ ∨ _))

def all (c : Checkpoint) : List DeviceCheckpoint := c.devices ++ c.removedDevices

end Checkpoint

/-- A rollback destroyed the younger checkpoints that cover one of its devices, and has one result
for every device. -/
structure RollbackRecord.Sound (r : RollbackRecord) : Prop where
  destroyed : r.destroyed = (r.younger.filter (·.Shares r.checkpoint)).map (·.id)
  results : (r.results.map (·.1)).Perm r.checkpoint.createdWith

namespace CheckpointSystem

/-- Checkpoints cover disjoint devices and are used once. -/
structure Sound (s : CheckpointSystem) : Prop where
  disjoint : s.checkpoints.Pairwise fun older younger =>
    younger.flags.allowOverlapping = false → ¬ older.Shares younger
  once : s.history.Nodup
  notAfterDestroyed : s.history.Pairwise fun e e' =>
    ∀ checkpoint, e = .destroyed checkpoint → e' ≠ .rolledBack checkpoint
  rollbacks : ∀ r ∈ s.rollbacks, r.Sound
  failedCreate : ∀ paths rollbackTimeout flags e,
    (s.create paths rollbackTimeout flags).2 = .error e →
      (s.create paths rollbackTimeout flags).1 = s

end CheckpointSystem

def CheckpointDeviceEvent.moved : CheckpointDeviceEvent → Option ℕ
  | .removed device => some device
  | .exportedChanged device _ => some device
  | .realChanged device real => if real then none else some device
  | .added _ _ _ => none

namespace CheckpointSystem

/-- No removed device of a live checkpoint has the name and type of a device that no checkpoint
includes. -/
def CreateInReach (s : CheckpointSystem) (paths : List ℕ) (flags : CheckpointCreateFlags) : Prop :=
  flags.destroyAll = false → flags.allowOverlapping = false → ∀ devices,
    s.devicesToCreate paths flags = .ok devices → s.findIncluding devices = none →
      ∀ c ∈ s.checkpoints, ∀ d ∈ devices, ∀ x ∈ c.removedDevices, x.key ≠ d.key

/-- The state when `nm_checkpoint_rollback()` has restored the removed devices. -/
def tableReached (s : CheckpointSystem) (c : Checkpoint) (removed : List RestoreReaction) :
    CheckpointSystem :=
  let s := (destroyYounger c (s.youngerThan c.id) s).1
  (rollbackRemoved c.id 0 removed { s with history := s.history ++ [.rolledBack c.id] }).1

/-- The younger checkpoints that cover a device of the checkpoint have one in their tables, and no
device leaves the table while it is visited. -/
def RollbackInReach (s : CheckpointSystem) (c : Checkpoint) (removed table : List RestoreReaction) :
    Prop :=
  (∀ cp ∈ s.youngerThan c.id, cp.Shares c → (cp.includesDevicesOf c).isSome = true) ∧
    ∀ r ∈ table.take ((s.tableReached c removed).devicesOf c.id).length, ∀ e ∈ r.events,
      ∀ x ∈ (s.tableReached c removed).devicesOf c.id, e.moved ≠ some x.device

instance (s : CheckpointSystem) (c : Checkpoint) (removed table : List RestoreReaction) :
    Decidable (s.RollbackInReach c removed table) :=
  inferInstanceAs (Decidable ((∀ cp ∈ s.youngerThan c.id, cp.Shares c →
    (cp.includesDevicesOf c).isSome = true) ∧
      ∀ r ∈ table.take ((s.tableReached c removed).devicesOf c.id).length, ∀ e ∈ r.events,
        ∀ x ∈ (s.tableReached c removed).devicesOf c.id, e.moved ≠ some x.device))

def InReach (s : CheckpointSystem) : CheckpointSystemEvent → Prop
  | .create paths _ flags => s.CreateInReach paths flags
  | .rollback checkpoint removed table =>
    ∀ c, s.lookupCheckpoint checkpoint = some c → s.RollbackInReach c removed table
  | .timeout checkpoint removed table =>
    ∀ c, s.lookupCheckpoint checkpoint = some c → c.timeout = true →
      (s.setTimeout checkpoint false).RollbackInReach { c with timeout := false } removed table
  | _ => True

end CheckpointSystem

/-! ## One checkpoint -/

namespace Checkpoint

/-- The table of a checkpoint holds devices of the manager, and nothing was lost. -/
structure Fine (devices : List CheckpointNMDevice) (c : Checkpoint) : Prop where
  table : KeyUnique DeviceCheckpoint.device c.devices
  present : ∀ x ∈ c.devices, ∃ d ∈ devices, d.id = x.device ∧ d.key = x.key
  kept : (c.all.map (·.originalDevPath)).Perm c.createdWith

/-- What devices that come and go do to a checkpoint. -/
structure Evolves (c c' : Checkpoint) : Prop where
  id : c'.id = c.id
  createdWith : c'.createdWith = c.createdWith
  removedDevices : c.removedDevices <+: c'.removedDevices

theorem Evolves.refl (c : Checkpoint) : c.Evolves c := ⟨rfl, rfl, prefix_refl _⟩

theorem Evolves.trans {c c' c'' : Checkpoint} (h : c.Evolves c') (h' : c'.Evolves c'') :
    c.Evolves c'' where
  id := h'.id.trans h.id
  createdWith := h'.createdWith.trans h.createdWith
  removedDevices := h.removedDevices.trans h'.removedDevices

variable {c : Checkpoint} {device : ℕ} {devices' : List CheckpointNMDevice}

theorem move_of_not_mem (h : ∀ x ∈ c.devices, x.device ≠ device) :
    c.moveDevToRemovedDevices device = c := by
  have hnone : lookup DeviceCheckpoint.device device c.devices = none := lookup_eq_none_iff.mpr h
  simp only [moveDevToRemovedDevices, hnone]

theorem evolves_move (c : Checkpoint) (device : ℕ) : c.Evolves (c.moveDevToRemovedDevices device) := by
  unfold moveDevToRemovedDevices
  split
  · exact Evolves.refl c
  · exact ⟨rfl, rfl, prefix_append _ _⟩

@[simp] theorem move_id (c : Checkpoint) (device : ℕ) :
    (c.moveDevToRemovedDevices device).id = c.id := (evolves_move c device).id

@[simp] theorem move_flags (c : Checkpoint) (device : ℕ) :
    (c.moveDevToRemovedDevices device).flags = c.flags := by
  unfold moveDevToRemovedDevices
  split <;> rfl

theorem move_all (h : KeyUnique DeviceCheckpoint.device c.devices) :
    (c.moveDevToRemovedDevices device).all.Perm c.all := by
  unfold moveDevToRemovedDevices
  cases hlookup : lookup DeviceCheckpoint.device device c.devices with
  | none => exact List.Perm.refl _
  | some x =>
    obtain rfl := key_of_lookup hlookup
    have hperm := (perm_cons_eraseKey h (mem_of_lookup hlookup)).append_right c.removedDevices
    refine List.Perm.trans ?_ hperm.symm
    rw [all, ← append_assoc, cons_append]
    exact perm_append_singleton _ _

theorem mem_move {x : DeviceCheckpoint} (h : x ∈ (c.moveDevToRemovedDevices device).devices) :
    x ∈ c.devices ∧ x.device ≠ device := by
  unfold moveDevToRemovedDevices at h
  cases hlookup : lookup DeviceCheckpoint.device device c.devices with
  | none =>
    simp only [hlookup] at h
    exact ⟨h, lookup_eq_none_iff.mp hlookup x h⟩
  | some y =>
    simp only [hlookup] at h
    exact mem_eraseKey.mp h

theorem Fine.move {devices : List CheckpointNMDevice} (h : c.Fine devices)
    (hpresent : ∀ d ∈ devices, d.id ≠ device → ∃ d' ∈ devices', d'.id = d.id ∧ d'.key = d.key) :
    (c.moveDevToRemovedDevices device).Fine devices' where
  table := by
    unfold moveDevToRemovedDevices
    split
    · exact h.table
    · exact h.table.eraseKey
  present x hx := by
    obtain ⟨hx, hne⟩ := mem_move hx
    obtain ⟨d, hd, hid, hkey⟩ := h.present x hx
    obtain ⟨d', hd', hid', hkey'⟩ := hpresent d hd fun heq => hne (hid.symm.trans heq)
    exact ⟨d', hd', hid'.trans hid, hkey'.trans hkey⟩
  kept := by
    rw [(evolves_move c device).createdWith]
    exact ((move_all h.table).map _).trans h.kept

theorem Fine.devices {devices : List CheckpointNMDevice} (h : c.Fine devices)
    (hpresent : ∀ d ∈ devices, ∃ d' ∈ devices', d'.id = d.id ∧ d'.key = d.key) :
    c.Fine devices' where
  table := h.table
  present x hx := by
    obtain ⟨d, hd, hid, hkey⟩ := h.present x hx
    obtain ⟨d', hd', hid', hkey'⟩ := hpresent d hd
    exact ⟨d', hd', hid'.trans hid, hkey'.trans hkey⟩
  kept := h.kept

/-- Two checkpoints cover devices of different names or types. -/
def KeysDisjoint (c c' : Checkpoint) : Prop := ∀ x ∈ c.all, ∀ x' ∈ c'.all, x.key ≠ x'.key

theorem KeysDisjoint.of_perm {c₁ c₂ c₁' c₂' : Checkpoint} (h : c₁.KeysDisjoint c₂)
    (h₁ : c₁'.all.Perm c₁.all) (h₂ : c₂'.all.Perm c₂.all) : c₁'.KeysDisjoint c₂' :=
  fun x hx x' hx' => h x (h₁.subset hx) x' (h₂.subset hx')

theorem KeysDisjoint.not_shares {devices : List CheckpointNMDevice} {c' : Checkpoint}
    (h : c.KeysDisjoint c') (hdevices : KeyUnique CheckpointNMDevice.id devices)
    (hc : c.Fine devices) (hc' : c'.Fine devices) : ¬ c.Shares c' := by
  rintro (⟨x, hx, y, hy, heq⟩ | ⟨x, hx, y, hy, heq⟩ | ⟨x, hx, y, hy, heq⟩)
  · obtain ⟨d, hd, hid, hkey⟩ := hc.present x hx
    obtain ⟨d', hd', hid', hkey'⟩ := hc'.present y hy
    obtain rfl := eq_of_key_eq hdevices hd hd' (hid.trans (heq.trans hid'.symm))
    exact h x (mem_append_left _ hx) y (mem_append_left _ hy) (hkey.symm.trans hkey')
  · exact h x (mem_append_right _ hx) y hy heq
  · exact h x (mem_append_left _ hx) y (mem_append_right _ hy) heq

theorem foldl_upsert_create (devices : List CheckpointNMDevice) (table : List DeviceCheckpoint)
    (htable : KeyUnique DeviceCheckpoint.device table)
    (hpath : ∀ x ∈ table, x.originalDevPath = x.device) :
    let table' := devices.foldl (fun table d =>
      upsert DeviceCheckpoint.device (DeviceCheckpoint.create d) table) table
    KeyUnique DeviceCheckpoint.device table' ∧ (∀ x ∈ table', x.originalDevPath = x.device) ∧
      (∀ x ∈ table', x ∈ table ∨ ∃ d ∈ devices, x = DeviceCheckpoint.create d) ∧
        ∀ a, a ∈ table'.map (·.device) ↔ a ∈ table.map (·.device) ∨ a ∈ devices.map (·.id) := by
  induction devices generalizing table with
  | nil => exact ⟨htable, hpath, fun x hx => .inl hx, by simp⟩
  | cons d devices ih =>
    have hpath' : ∀ x ∈ upsert DeviceCheckpoint.device (DeviceCheckpoint.create d) table,
        x.originalDevPath = x.device := by
      intro x hx
      rcases mem_upsert hx with rfl | hx
      · rfl
      · exact hpath x hx
    obtain ⟨hunique, hpaths, hfrom, hids⟩ := ih _ htable.upsert hpath'
    refine ⟨hunique, hpaths, fun x hx => ?_, fun a => ?_⟩
    · rcases hfrom x hx with hx | ⟨d', hd', rfl⟩
      · rcases mem_upsert hx with rfl | hx
        · exact .inr ⟨d, mem_cons_self, rfl⟩
        · exact .inl hx
      · exact .inr ⟨d', mem_cons_of_mem d hd', rfl⟩
    · rw [foldl_cons, hids a]
      have hupsert : a ∈ (upsert DeviceCheckpoint.device (DeviceCheckpoint.create d) table).map
          (·.device) ↔ a ∈ table.map (·.device) ∨ a = d.id := by
        rw [map_key_upsert]
        split_ifs with hmem
        · obtain ⟨x, hx, hid⟩ := lookup_isSome_iff.mp hmem
          refine ⟨.inl, fun h => h.elim (fun h => h) fun heq => ?_⟩
          rw [heq]
          exact mem_map.mpr ⟨x, hx, hid⟩
        · rw [mem_append, mem_singleton]
          rfl
      rw [hupsert, map_cons, mem_cons]
      exact or_assoc

theorem new_fine {devices manager : List CheckpointNMDevice} (hdevices : ∀ d ∈ devices, d ∈ manager)
    (id rollbackTimeoutS : ℕ) (flags : CheckpointCreateFlags) :
    (Checkpoint.new id devices rollbackTimeoutS flags).Fine manager := by
  obtain ⟨hunique, hpath, hfrom, hids⟩ :=
    foldl_upsert_create devices [] nodup_nil (by simp)
  refine ⟨hunique, fun x hx => ?_, ?_⟩
  · rcases hfrom x hx with hx | ⟨d, hd, rfl⟩
    · simp at hx
    · exact ⟨d, hdevices d hd, rfl, rfl⟩
  · have hmap : (Checkpoint.new id devices rollbackTimeoutS flags).all.map (·.originalDevPath) =
        (Checkpoint.new id devices rollbackTimeoutS flags).devices.map (·.device) := by
      rw [all, show (Checkpoint.new id devices rollbackTimeoutS flags).removedDevices = [] from rfl,
        append_nil]
      exact map_congr_left hpath
    rw [hmap]
    refine (perm_ext_iff_of_nodup hunique (nodup_dedup _)).mpr fun a => ?_
    rw [mem_dedup]
    exact (hids a).trans (by simp)

end Checkpoint

/-! ## The invariant -/

namespace CheckpointSystem

variable {s : CheckpointSystem} {running : Option ℕ} {device checkpoint : ℕ}
  {f : CheckpointNMDevice → CheckpointNMDevice} {paths : List ℕ} {flags : CheckpointCreateFlags}

/-- What holds in every state, also while a checkpoint is rolled back. -/
structure Inv (running : Option ℕ) (s : CheckpointSystem) : Prop where
  devices : KeyUnique CheckpointNMDevice.id s.devices
  keys : KeyUnique CheckpointNMDevice.key s.devices
  devices_lt : ∀ d ∈ s.devices, d.id < s.nextDevice
  checkpoints : KeyUnique Checkpoint.id s.checkpoints
  checkpoints_lt : ∀ c ∈ s.checkpoints, c.id < s.nextCheckpoint
  fine : ∀ c ∈ s.checkpoints, c.Fine s.devices
  disjoint : s.checkpoints.Pairwise fun older younger =>
    younger.flags.allowOverlapping = false → older.KeysDisjoint younger
  destroyed_lt : ∀ id, CheckpointEnd.destroyed id ∈ s.history → id < s.nextCheckpoint
  rolledBack_lt : ∀ id, CheckpointEnd.rolledBack id ∈ s.history → id < s.nextCheckpoint
  notDestroyed : ∀ c ∈ s.checkpoints, CheckpointEnd.destroyed c.id ∉ s.history
  notRolledBack : ∀ c ∈ s.checkpoints, CheckpointEnd.rolledBack c.id ∈ s.history →
    running = some c.id
  once : s.history.Nodup
  notAfterDestroyed : s.history.Pairwise fun e e' =>
    ∀ checkpoint, e = .destroyed checkpoint → e' ≠ .rolledBack checkpoint
  rollbacks : ∀ r ∈ s.rollbacks, r.Sound

theorem start_inv : start.Inv none := by
  refine ⟨nodup_nil, nodup_nil, ?_, nodup_nil, ?_, ?_, List.Pairwise.nil, ?_, ?_, ?_,
    ?_, nodup_nil, List.Pairwise.nil, ?_⟩ <;> simp [start]

/-! ## Devices -/

theorem Inv.moveDevice (h : s.Inv running) {devices : List CheckpointNMDevice}
    (hunique : KeyUnique CheckpointNMDevice.id devices)
    (hkeys : KeyUnique CheckpointNMDevice.key devices) (hlt : ∀ d ∈ devices, d.id < s.nextDevice)
    (hpresent : ∀ d ∈ s.devices, d.id ≠ device → ∃ d' ∈ devices, d'.id = d.id ∧ d'.key = d.key) :
    Inv running { s.moveDevice device with devices := devices } := by
  have hids : ∀ c' ∈ (s.moveDevice device).checkpoints, ∃ c ∈ s.checkpoints,
      c' = c.moveDevToRemovedDevices device ∧ c'.id = c.id := by
    intro c' hc'
    obtain ⟨c, hc, rfl⟩ := mem_map.mp hc'
    exact ⟨c, hc, rfl, c.move_id device⟩
  refine { h with devices := hunique, keys := hkeys, devices_lt := hlt, checkpoints := ?_,
                  checkpoints_lt := ?_, fine := ?_, disjoint := ?_, notDestroyed := ?_,
                  notRolledBack := ?_ }
  · have hmap : (s.checkpoints.map (·.moveDevToRemovedDevices device)).map (·.id) =
        s.checkpoints.map (·.id) := by
      rw [map_map]
      exact map_congr_left fun c _ => c.move_id device
    unfold KeyUnique
    rw [CheckpointSystem.moveDevice, hmap]
    exact h.checkpoints
  · intro c' hc'
    obtain ⟨c, hc, -, hid⟩ := hids c' hc'
    rw [hid]
    exact h.checkpoints_lt c hc
  · intro c' hc'
    obtain ⟨c, hc, rfl, -⟩ := hids c' hc'
    exact (h.fine c hc).move hpresent
  · rw [CheckpointSystem.moveDevice, pairwise_map]
    refine h.disjoint.imp_of_mem fun {o y} ho hy hdisjoint hflags => ?_
    rw [Checkpoint.move_flags] at hflags
    exact (hdisjoint hflags).of_perm (Checkpoint.move_all (h.fine o ho).table)
      (Checkpoint.move_all (h.fine y hy).table)
  · intro c' hc'
    obtain ⟨c, hc, -, hid⟩ := hids c' hc'
    rw [hid]
    exact h.notDestroyed c hc
  · intro c' hc' hmem
    obtain ⟨c, hc, -, hid⟩ := hids c' hc'
    rw [hid] at hmem ⊢
    exact h.notRolledBack c hc hmem

theorem Inv.setDevices (h : s.Inv running) {devices : List CheckpointNMDevice} {nextDevice : ℕ}
    (hunique : KeyUnique CheckpointNMDevice.id devices)
    (hkeys : KeyUnique CheckpointNMDevice.key devices)
    (hlt : ∀ d ∈ devices, d.id < nextDevice)
    (hpresent : ∀ d ∈ s.devices, ∃ d' ∈ devices, d'.id = d.id ∧ d'.key = d.key) :
    Inv running { s with devices := devices, nextDevice := nextDevice } :=
  { h with devices := hunique, keys := hkeys, devices_lt := hlt,
           fine := fun c hc => (h.fine c hc).devices hpresent }

theorem mem_modifyKey_of_mem (hf : ∀ d, (f d).id = d.id ∧ (f d).key = d.key)
    {d : CheckpointNMDevice} (hd : d ∈ s.devices)
    : ∃ d' ∈ modifyKey CheckpointNMDevice.id device f s.devices,
      d'.id = d.id ∧ d'.key = d.key := by
  refine ⟨_, mem_map_of_mem hd, ?_⟩
  split_ifs
  · exact hf d
  · exact ⟨rfl, rfl⟩

theorem Inv.modifyDevices (h : s.Inv running) (device : ℕ)
    (hf : ∀ d, (f d).id = d.id ∧ (f d).key = d.key) :
    KeyUnique CheckpointNMDevice.id (modifyKey CheckpointNMDevice.id device f s.devices) ∧
      KeyUnique CheckpointNMDevice.key (modifyKey CheckpointNMDevice.id device f s.devices) ∧
        ∀ d ∈ modifyKey CheckpointNMDevice.id device f s.devices, d.id < s.nextDevice := by
  refine ⟨h.devices.modifyKey fun d => (hf d).1, ?_, fun d hd => ?_⟩
  · have hmap : (modifyKey CheckpointNMDevice.id device f s.devices).map (·.key) =
        s.devices.map (·.key) := by
      rw [modifyKey, map_map]
      refine map_congr_left fun d _ => ?_
      rw [Function.comp_apply]
      split_ifs
      · exact (hf d).2
      · rfl
    unfold KeyUnique
    rw [hmap]
    exact h.keys
  · rcases mem_modifyKey hd with ⟨hd, -⟩ | ⟨d', hd', -, rfl⟩
    · exact h.devices_lt d hd
    · rw [(hf d').1]
      exact h.devices_lt d' hd'

theorem Inv.deviceEvent (h : s.Inv running) (e : CheckpointDeviceEvent) :
    (s.deviceEvent e).Inv running := by
  cases e with
  | added iface deviceType real =>
    simp only [CheckpointSystem.deviceEvent]
    split_ifs with hfound
    · exact h
    · have hnew : ∀ d ∈ s.devices, d.key ≠ (iface, deviceType) := by
        intro d hd hkey
        obtain ⟨hiface, htype⟩ := Prod.mk.inj hkey
        refine hfound (List.find?_isSome.mpr ⟨d, hd, ?_⟩)
        simpa using ⟨htype, hiface⟩
      refine h.setDevices (h.devices.append_singleton fun d hd => Nat.ne_of_lt (h.devices_lt d hd))
        (h.keys.append_singleton hnew) (fun d hd => ?_)
        fun d hd => ⟨d, mem_append_left _ hd, rfl, rfl⟩
      rcases mem_append.mp hd with hd | hd
      · exact Nat.lt_succ_of_lt (h.devices_lt d hd)
      · rw [mem_singleton.mp hd]
        exact Nat.lt_succ_self _
  | removed device =>
    refine h.moveDevice h.devices.eraseKey (h.keys.filter _)
      (fun d hd => h.devices_lt d (mem_eraseKey.mp hd).1)
      fun d hd hne => ⟨d, mem_eraseKey.mpr ⟨hd, hne⟩, rfl, rfl⟩
  | exportedChanged device exported =>
    obtain ⟨hunique, hkeys, hlt⟩ :=
      h.modifyDevices device (f := fun d => { d with exported := exported }) fun _ => ⟨rfl, rfl⟩
    exact h.moveDevice hunique hkeys hlt fun d hd _ =>
      mem_modifyKey_of_mem (f := fun d => { d with exported := exported }) (fun _ => ⟨rfl, rfl⟩) hd
  | realChanged device real =>
    obtain ⟨hunique, hkeys, hlt⟩ :=
      h.modifyDevices device (f := fun d => { d with real := real }) fun _ => ⟨rfl, rfl⟩
    have hpresent : ∀ d ∈ s.devices, ∃ d' ∈ modifyKey CheckpointNMDevice.id device
        (fun d => { d with real := real }) s.devices, d'.id = d.id ∧ d'.key = d.key := fun d hd =>
      mem_modifyKey_of_mem (f := fun d => { d with real := real }) (fun _ => ⟨rfl, rfl⟩) hd
    cases real with
    | false => exact h.moveDevice hunique hkeys hlt fun d hd _ => hpresent d hd
    | true => exact h.setDevices hunique hkeys hlt hpresent

theorem Inv.deviceEvents (h : s.Inv running) (events : List CheckpointDeviceEvent) :
    (s.deviceEvents events).Inv running :=
  foldl_invariant (fun _ e h => h.deviceEvent e) h events

theorem lookup_moveDevice (s : CheckpointSystem) (device checkpoint : ℕ) :
    (s.moveDevice device).lookupCheckpoint checkpoint =
      (s.lookupCheckpoint checkpoint).map (·.moveDevToRemovedDevices device) := by
  unfold CheckpointSystem.moveDevice lookupCheckpoint lookup
  rw [List.find?_map]
  simp only [Function.comp_def, Checkpoint.move_id]

theorem lookup_deviceEvent (s : CheckpointSystem) (e : CheckpointDeviceEvent) {c : Checkpoint}
    (hc : s.lookupCheckpoint checkpoint = some c) :
    ∃ c', (s.deviceEvent e).lookupCheckpoint checkpoint = some c' ∧ c.Evolves c' ∧
      ((∀ x ∈ c.devices, e.moved ≠ some x.device) → c' = c) := by
  have hmove : ∀ device, (∀ x ∈ c.devices, x.device ≠ device) →
      c.moveDevToRemovedDevices device = c := fun device h => Checkpoint.move_of_not_mem h
  cases e with
  | added iface deviceType real =>
    refine ⟨c, ?_, Checkpoint.Evolves.refl c, fun _ => rfl⟩
    simp only [CheckpointSystem.deviceEvent]
    split_ifs
    · exact hc
    · exact hc
  | removed device =>
    refine ⟨_, (lookup_moveDevice s device checkpoint).trans (congrArg _ hc), c.evolves_move device,
      fun h => hmove device fun x hx heq => h x hx (congrArg some heq.symm)⟩
  | exportedChanged device exported =>
    refine ⟨_, (lookup_moveDevice s device checkpoint).trans (congrArg _ hc), c.evolves_move device,
      fun h => hmove device fun x hx heq => h x hx (congrArg some heq.symm)⟩
  | realChanged device real =>
    cases real with
    | false =>
      refine ⟨_, (lookup_moveDevice s device checkpoint).trans (congrArg _ hc),
        c.evolves_move device, fun h => hmove device fun x hx heq => h x hx (congrArg some heq.symm)⟩
    | true => exact ⟨c, hc, Checkpoint.Evolves.refl c, fun _ => rfl⟩

theorem lookup_deviceEvents (events : List CheckpointDeviceEvent) (s : CheckpointSystem)
    {c : Checkpoint} (hc : s.lookupCheckpoint checkpoint = some c) :
    ∃ c', (s.deviceEvents events).lookupCheckpoint checkpoint = some c' ∧ c.Evolves c' ∧
      ((∀ e ∈ events, ∀ x ∈ c.devices, e.moved ≠ some x.device) → c' = c) := by
  induction events generalizing s c with
  | nil => exact ⟨c, hc, Checkpoint.Evolves.refl c, fun _ => rfl⟩
  | cons e events ih =>
    obtain ⟨c₁, hc₁, hevolves₁, hsame₁⟩ := lookup_deviceEvent s e hc
    obtain ⟨c₂, hc₂, hevolves₂, hsame₂⟩ := ih (s.deviceEvent e) hc₁
    refine ⟨c₂, hc₂, hevolves₁.trans hevolves₂, fun h => ?_⟩
    obtain rfl := hsame₁ (h e mem_cons_self)
    exact hsame₂ fun e' he' => h e' (mem_cons_of_mem e he')

/-! ## The loops of a rollback -/

theorem removedDevicesOf_eq {c : Checkpoint} (hc : s.lookupCheckpoint checkpoint = some c) :
    s.removedDevicesOf checkpoint = c.removedDevices := by
  simp only [removedDevicesOf, hc]

theorem devicesOf_eq {c : Checkpoint} (hc : s.lookupCheckpoint checkpoint = some c)
    : s.devicesOf checkpoint = c.devices := by
  simp only [devicesOf, hc]

theorem versionOf_eq {c : Checkpoint} (hc : s.lookupCheckpoint checkpoint = some c)
    : s.versionOf checkpoint = c.version := by
  simp only [versionOf, hc]

theorem Inv.rollbackRemoved (h : s.Inv running) {c : Checkpoint}
    (hc : s.lookupCheckpoint checkpoint = some c) (i : ℕ) (reactions : List RestoreReaction) :
    (rollbackRemoved checkpoint i reactions s).1.Inv running ∧
      ∃ c', (rollbackRemoved checkpoint i reactions s).1.lookupCheckpoint checkpoint = some c' ∧
        c.Evolves c' ∧ (rollbackRemoved checkpoint i reactions s).2.map (·.1) =
          (c'.removedDevices.drop i).map (·.originalDevPath) := by
  induction reactions generalizing s c i with
  | nil =>
    refine ⟨h, c, hc, Checkpoint.Evolves.refl c, ?_⟩
    simp only [CheckpointSystem.rollbackRemoved, removedDevicesOf_eq hc, map_map]
    rfl
  | cons r reactions ih =>
    simp only [CheckpointSystem.rollbackRemoved, removedDevicesOf_eq hc]
    cases hx : c.removedDevices[i]? with
    | none =>
      refine ⟨h, c, hc, Checkpoint.Evolves.refl c, ?_⟩
      rw [drop_eq_nil_of_le (List.getElem?_eq_none_iff.mp hx)]
      rfl
    | some x =>
      obtain ⟨c₁, hc₁, hevolves₁, -⟩ := lookup_deviceEvents r.events s hc
      obtain ⟨hinv, c₂, hc₂, hevolves₂, hresults⟩ := ih (h.deviceEvents r.events) hc₁ (i + 1)
      have hevolves := hevolves₁.trans hevolves₂
      refine ⟨hinv, c₂, hc₂, hevolves, ?_⟩
      have hx' : c₂.removedDevices[i]? = some x := by
        obtain ⟨rest, hrest⟩ := hevolves.removedDevices
        rw [← hrest, List.getElem?_append_left (List.getElem?_eq_some_iff.mp hx).1]
        exact hx
      obtain ⟨hi, hget⟩ := List.getElem?_eq_some_iff.mp hx'
      rw [drop_eq_getElem_cons hi, hget, map_cons, map_cons, hresults]

theorem Inv.rollbackDevices (h : s.Inv running) {c : Checkpoint}
    (hc : s.lookupCheckpoint checkpoint = some c) (rest : List DeviceCheckpoint)
    (reactions : List RestoreReaction)
    (hstays : ∀ r ∈ reactions.take rest.length, ∀ e ∈ r.events, ∀ x ∈ c.devices, e.moved ≠ some x.device) :
    (rollbackDevices checkpoint c.version rest reactions s).1.Inv running ∧
      (rollbackDevices checkpoint c.version rest reactions s).1.lookupCheckpoint checkpoint = some c ∧
        (rollbackDevices checkpoint c.version rest reactions s).2.map (·.1) =
          rest.map (·.originalDevPath) := by
  induction rest generalizing s reactions with
  | nil => exact ⟨h, hc, rfl⟩
  | cons x rest ih =>
    obtain ⟨r, hr⟩ : ∃ r, reactions.head?.getD ⟨.ok, []⟩ = r := ⟨_, rfl⟩
    have hevents : ∀ e ∈ r.events, ∀ x ∈ c.devices, e.moved ≠ some x.device := by
      intro e he
      cases reactions with
      | nil =>
        rw [← hr] at he
        simp at he
      | cons r' reactions =>
        obtain rfl : r' = r := hr
        exact hstays r' (by simp) e he
    have htail : ∀ r' ∈ reactions.tail.take rest.length, r' ∈ reactions.take (x :: rest).length := by
      intro r' hr'
      cases reactions with
      | nil => simp at hr'
      | cons r'' reactions => exact mem_cons_of_mem r'' hr'
    obtain ⟨c', hc', -, hsame⟩ := lookup_deviceEvents r.events s hc
    obtain rfl := hsame hevents
    obtain ⟨hinv, hlookup, hresults⟩ :=
      ih (h.deviceEvents r.events) hc' reactions.tail fun r' hr' => hstays r' (htail r' hr')
    simp only [CheckpointSystem.rollbackDevices, hr, versionOf_eq hc', if_true]
    exact ⟨hinv, hlookup, by rw [map_cons, map_cons, hresults]⟩

/-! ## The end of a checkpoint -/

theorem Inv.destroyCheckpoint (h : s.Inv running) {c : Checkpoint} (hc : c ∈ s.checkpoints) :
    Inv (if running = some c.id then none else running) (s.destroyCheckpoint c.id) := by
  have hleft : ∀ c' ∈ (s.destroyCheckpoint c.id).checkpoints, c' ∈ s.checkpoints ∧ c'.id ≠ c.id :=
    fun c' hc' => mem_eraseKey.mp hc'
  refine { h with checkpoints := h.checkpoints.eraseKey,
                  checkpoints_lt := fun c' hc' => h.checkpoints_lt c' (hleft c' hc').1,
                  fine := fun c' hc' => h.fine c' (hleft c' hc').1,
                  disjoint := h.disjoint.filter _, destroyed_lt := ?_, rolledBack_lt := ?_,
                  notDestroyed := ?_, notRolledBack := ?_, once := ?_, notAfterDestroyed := ?_ }
  · intro id hid
    rcases mem_append.mp hid with hid | hid
    · exact h.destroyed_lt id hid
    · rw [CheckpointEnd.destroyed.inj (mem_singleton.mp hid)]
      exact h.checkpoints_lt c hc
  · intro id hid
    rcases mem_append.mp hid with hid | hid
    · exact h.rolledBack_lt id hid
    · cases mem_singleton.mp hid
  · intro c' hc' hmem
    obtain ⟨hc', hne⟩ := hleft c' hc'
    rcases mem_append.mp hmem with hmem | hmem
    · exact h.notDestroyed c' hc' hmem
    · exact hne (CheckpointEnd.destroyed.inj (mem_singleton.mp hmem))
  · intro c' hc' hmem
    obtain ⟨hc', hne⟩ := hleft c' hc'
    rcases mem_append.mp hmem with hmem | hmem
    · have hrunning := h.notRolledBack c' hc' hmem
      rw [if_neg fun heq => hne (Option.some.inj (hrunning.symm.trans heq))]
      exact hrunning
    · cases mem_singleton.mp hmem
  · refine nodup_append.mpr ⟨h.once, nodup_singleton _, fun e he e' he' heq => ?_⟩
    rw [heq, mem_singleton.mp he'] at he
    exact h.notDestroyed c hc he
  · refine pairwise_append.mpr ⟨h.notAfterDestroyed, pairwise_singleton _ _, ?_⟩
    intro e _ e' he' checkpoint _ heq
    cases heq.symm.trans (mem_singleton.mp he')

theorem Inv.destroyList (h : s.Inv none) (cs : List Checkpoint)
    (hcs : ∀ c ∈ cs, c ∈ s.checkpoints) (hids : (cs.map (·.id)).Nodup) :
    (cs.foldl (fun s c => s.destroyCheckpoint c.id) s).Inv none ∧
      (cs.foldl (fun s c => s.destroyCheckpoint c.id) s).devices = s.devices ∧
      (cs.foldl (fun s c => s.destroyCheckpoint c.id) s).checkpoints =
        s.checkpoints.filter fun c => c.id ∉ cs.map (·.id) := by
  induction cs generalizing s with
  | nil => exact ⟨h, rfl, by simp⟩
  | cons c cs ih =>
    rw [map_cons, nodup_cons] at hids
    have hstep : (s.destroyCheckpoint c.id).Inv none := by
      simpa using h.destroyCheckpoint (hcs c mem_cons_self)
    have hcs' : ∀ c' ∈ cs, c' ∈ (s.destroyCheckpoint c.id).checkpoints := by
      intro c' hc'
      refine mem_eraseKey.mpr ⟨hcs c' (mem_cons_of_mem c hc'), fun heq => hids.1 ?_⟩
      rw [← heq]
      exact mem_map_of_mem hc'
    obtain ⟨hinv, hdevices, hcheckpoints⟩ := ih hstep hcs' hids.2
    refine ⟨hinv, hdevices, hcheckpoints.trans ?_⟩
    rw [CheckpointSystem.destroyCheckpoint, eraseKey, filter_filter]
    apply filter_congr
    intro c' _
    rw [map_cons, Bool.eq_iff_iff]
    simp [and_comm]

theorem Inv.destroyAll (h : s.Inv none) :
    s.destroyAll.Inv none ∧ s.destroyAll.devices = s.devices ∧ s.destroyAll.checkpoints = [] := by
  obtain ⟨hinv, hdevices, hcheckpoints⟩ := h.destroyList s.checkpoints (fun _ hc => hc) h.checkpoints
  refine ⟨hinv, hdevices, hcheckpoints.trans (filter_eq_nil_iff.mpr fun c hc => ?_)⟩
  have hin : c.id ∈ s.checkpoints.map (·.id) := mem_map_of_mem hc
  simpa using hin

theorem destroyYounger_eq (c : Checkpoint) (younger : List Checkpoint) (s : CheckpointSystem) :
    destroyYounger c younger s =
      ((younger.filter fun cp => (cp.includesDevicesOf c).isSome).foldl
        (fun s cp => s.destroyCheckpoint cp.id) s,
        (younger.filter fun cp => (cp.includesDevicesOf c).isSome).map (·.id)) := by
  induction younger generalizing s with
  | nil => rfl
  | cons cp younger ih =>
    by_cases hincludes : (cp.includesDevicesOf c).isSome = true
    · simp [destroyYounger, hincludes, ih]
    · simp [destroyYounger, hincludes, ih]

theorem shares_of_includesDevicesOf {c cp : Checkpoint}
    (h : (cp.includesDevicesOf c).isSome = true) : cp.Shares c := by
  unfold Checkpoint.includesDevicesOf at h
  rw [Option.isSome_map, List.find?_isSome] at h
  obtain ⟨x, hx, hany⟩ := h
  obtain ⟨y, hy, heq⟩ := any_eq_true.mp hany
  exact .inl ⟨y, hy, x, hx, by simpa using heq⟩

theorem youngerThan_sublist (s : CheckpointSystem) (checkpoint : ℕ) :
    (s.youngerThan checkpoint).Sublist s.checkpoints :=
  (tail_sublist _).trans (dropWhile_sublist _)

theorem Inv.not_mem_younger (h : s.Inv running) (c : Checkpoint) :
    c.id ∉ (s.youngerThan c.id).map (·.id) := by
  intro hmem
  have hunique := h.checkpoints.sublist (dropWhile_sublist (·.id ≠ c.id) (l := s.checkpoints))
  unfold youngerThan at hmem
  cases hdrop : s.checkpoints.dropWhile (·.id ≠ c.id) with
  | nil =>
    rw [hdrop] at hmem
    simp at hmem
  | cons c' younger =>
    rw [hdrop] at hmem hunique
    have hid : c'.id = c.id := by
      have hhead := List.head?_dropWhile_not (·.id ≠ c.id) s.checkpoints
      rw [hdrop] at hhead
      simpa using hhead
    obtain ⟨cp, hcp, heq⟩ := mem_map.mp hmem
    exact (unique_cons.mp hunique).1 cp hcp (heq.trans hid.symm)

/-! ## Rollbacks -/

theorem Inv.startRollback (h : s.Inv none) {c : Checkpoint} (hc : c ∈ s.checkpoints) :
    Inv (some c.id) { s with history := s.history ++ [.rolledBack c.id] } := by
  have hnotRolledBack : ∀ c' ∈ s.checkpoints, CheckpointEnd.rolledBack c'.id ∉ s.history := by
    intro c' hc' hmem
    have := h.notRolledBack c' hc' hmem
    simp at this
  refine { h with destroyed_lt := ?_, rolledBack_lt := ?_, notDestroyed := ?_, notRolledBack := ?_,
                  once := ?_, notAfterDestroyed := ?_ }
  · intro id hid
    rcases mem_append.mp hid with hid | hid
    · exact h.destroyed_lt id hid
    · cases mem_singleton.mp hid
  · intro id hid
    rcases mem_append.mp hid with hid | hid
    · exact h.rolledBack_lt id hid
    · rw [CheckpointEnd.rolledBack.inj (mem_singleton.mp hid)]
      exact h.checkpoints_lt c hc
  · intro c' hc' hmem
    rcases mem_append.mp hmem with hmem | hmem
    · exact h.notDestroyed c' hc' hmem
    · cases mem_singleton.mp hmem
  · intro c' hc' hmem
    rcases mem_append.mp hmem with hmem | hmem
    · exact absurd hmem (hnotRolledBack c' hc')
    · rw [CheckpointEnd.rolledBack.inj (mem_singleton.mp hmem)]
  · refine nodup_append.mpr ⟨h.once, nodup_singleton _, fun e he e' he' heq => ?_⟩
    rw [heq, mem_singleton.mp he'] at he
    exact hnotRolledBack c hc he
  · refine pairwise_append.mpr ⟨h.notAfterDestroyed, pairwise_singleton _ _, ?_⟩
    intro e he e' he' checkpoint heq heq'
    rw [mem_singleton.mp he'] at heq'
    rw [heq, ← CheckpointEnd.rolledBack.inj heq'] at he
    exact h.notDestroyed c hc he

theorem Inv.lookup_eq (h : s.Inv running) {c : Checkpoint} :
    s.lookupCheckpoint checkpoint = some c ↔ c ∈ s.checkpoints ∧ c.id = checkpoint :=
  lookup_eq_some_iff h.checkpoints

/-- The record of a rollback, with the results for the table. -/
def rollbackRecord (s : CheckpointSystem) (c : Checkpoint) (removed : List RestoreReaction)
    (results : List (ℕ × RollbackResult)) : RollbackRecord where
  checkpoint := c
  younger := s.youngerThan c.id
  destroyed := (destroyYounger c (s.youngerThan c.id) s).2
  results :=
    let s := (destroyYounger c (s.youngerThan c.id) s).1
    (rollbackRemoved c.id 0 removed { s with history := s.history ++ [.rolledBack c.id] }).2 ++ results

/-- A rollback in reach keeps the invariant, and its record is sound. -/
theorem Inv.rollbackCheckpoint (h : s.Inv none) {c : Checkpoint} (hc : c ∈ s.checkpoints)
    {removed table : List RestoreReaction} (hreach : s.RollbackInReach c removed table) :
    (s.rollbackCheckpoint c removed table).Inv none := by
  obtain ⟨hcovers, hstays⟩ := hreach
  have hyounger := youngerThan_sublist s c.id
  have hnotYounger := h.not_mem_younger c
  -- The younger checkpoints with a device of the table are destroyed.
  have hfilter := (filter_sublist (p := fun cp => (cp.includesDevicesOf c).isSome)).trans hyounger
  obtain ⟨hinv₁, -, hcheckpoints₁⟩ := h.destroyList _ (fun cp hcp => hfilter.subset hcp)
    (h.checkpoints.sublist hfilter)
  have hdestroyed : (destroyYounger c (s.youngerThan c.id) s).2 =
      ((s.youngerThan c.id).filter (·.Shares c)).map (·.id) := by
    rw [destroyYounger_eq]
    refine congrArg (List.map _) (filter_congr fun cp hcp => ?_)
    rw [Bool.eq_iff_iff, decide_eq_true_iff]
    exact ⟨shares_of_includesDevicesOf, hcovers cp hcp⟩
  have hs₁ : (destroyYounger c (s.youngerThan c.id) s).1 =
      ((s.youngerThan c.id).filter fun cp => (cp.includesDevicesOf c).isSome).foldl
        (fun s cp => s.destroyCheckpoint cp.id) s := by
    rw [destroyYounger_eq]
  rw [← hs₁] at hinv₁ hcheckpoints₁
  have hc₁ : c ∈ (destroyYounger c (s.youngerThan c.id) s).1.checkpoints := by
    rw [hcheckpoints₁]
    refine mem_filter.mpr ⟨hc, ?_⟩
    have hnot : c.id ∉ ((s.youngerThan c.id).filter fun cp => (cp.includesDevicesOf c).isSome).map
        (·.id) := fun hmem => hnotYounger (((filter_sublist).map _).subset hmem)
    simpa using hnot
  -- The loops.
  have hinv₂ := hinv₁.startRollback hc₁
  obtain ⟨hinv₃, c', hc', hevolves, hresults⟩ :=
    hinv₂.rollbackRemoved (hinv₂.lookup_eq.mpr ⟨hc₁, rfl⟩) 0 removed
  let s₃ := s.tableReached c removed
  have hdevices : s₃.devicesOf c.id = c'.devices := devicesOf_eq hc'
  have hversion : s₃.versionOf c.id = c'.version := versionOf_eq hc'
  rw [show (s.tableReached c removed).devicesOf c.id = c'.devices from hdevices] at hstays
  obtain ⟨hinv₄, hc'', hresults'⟩ := hinv₃.rollbackDevices hc' c'.devices table hstays
  obtain ⟨hmem', hid'⟩ := hinv₄.lookup_eq.mp hc''
  have hfinal := hinv₄.destroyCheckpoint hmem'
  rw [hid', if_pos rfl] at hfinal
  let loop := CheckpointSystem.rollbackDevices c.id (s₃.versionOf c.id) (s₃.devicesOf c.id) table s₃
  have hloop : loop = CheckpointSystem.rollbackDevices c.id c'.version c'.devices table s₃ := by
    rw [← hdevices, ← hversion]
  have hform : s.rollbackCheckpoint c removed table = { loop.1.destroyCheckpoint c.id with
      rollbacks := loop.1.rollbacks ++ [s.rollbackRecord c removed loop.2] } := rfl
  rw [hform, hloop]
  refine { hfinal with rollbacks := fun r hr => ?_ }
  rcases mem_append.mp hr with hr | hr
  · exact hfinal.rollbacks r hr
  · rw [mem_singleton.mp hr]
    refine ⟨hdestroyed, ?_⟩
    have hkept := (hinv₃.fine c' (hinv₃.lookup_eq.mp hc').1).kept
    rw [hevolves.createdWith, Checkpoint.all, map_append] at hkept
    have htable : (CheckpointSystem.rollbackDevices c.id c'.version c'.devices table s₃).2.map (·.1) =
        c'.devices.map (·.originalDevPath) := hresults'
    rw [rollbackRecord, map_append, hresults, htable, drop_zero]
    exact perm_append_comm.trans hkept

/-! ## New checkpoints -/

theorem mem_of_devicesByPath {devices : List CheckpointNMDevice}
    (h : s.devicesByPath paths = .ok devices) : ∀ d ∈ devices, d ∈ s.devices := by
  induction paths generalizing devices with
  | nil =>
    obtain rfl := Except.ok.inj h
    simp
  | cons path paths ih =>
    unfold devicesByPath at h
    cases hfind : s.devices.find? fun d => d.exported ∧ d.id = path with
    | none =>
      simp only [hfind] at h
      cases h
    | some d =>
      simp only [hfind] at h
      split_ifs at h
      cases hrest : s.devicesByPath paths with
      | error e =>
        simp only [hrest] at h
        cases h
      | ok devices' =>
        simp only [hrest] at h
        obtain rfl := Except.ok.inj h
        intro d' hd'
        rcases mem_cons.mp hd' with rfl | hd'
        · exact mem_of_find?_eq_some hfind
        · exact ih hrest d' hd'

theorem mem_of_devicesToCreate {devices : List CheckpointNMDevice}
    (h : s.devicesToCreate paths flags = .ok devices) : ∀ d ∈ devices, d ∈ s.devices := by
  unfold devicesToCreate at h
  split_ifs at h
  · obtain rfl := Except.ok.inj h
    exact fun d hd => mem_of_mem_filter hd
  · exact mem_of_devicesByPath h

theorem Inv.addCheckpoint (h : s.Inv none) {devices : List CheckpointNMDevice}
    (hdevices : ∀ d ∈ devices, d ∈ s.devices) (rollbackTimeout : ℕ)
    (hdisjoint : flags.allowOverlapping = false → ∀ c ∈ s.checkpoints, c.KeysDisjoint (.new s.nextCheckpoint devices rollbackTimeout flags)) :
    (s.addCheckpoint devices rollbackTimeout flags).Inv none := by
  have hnew : ∀ c ∈ s.checkpoints, c.id ≠ s.nextCheckpoint := fun c hc =>
    Nat.ne_of_lt (h.checkpoints_lt c hc)
  refine { h with checkpoints := h.checkpoints.append_singleton hnew, checkpoints_lt := ?_,
                  fine := ?_, disjoint := ?_, destroyed_lt := ?_, rolledBack_lt := ?_,
                  notDestroyed := ?_, notRolledBack := ?_ }
  · intro c hc
    rcases mem_append.mp hc with hc | hc
    · exact Nat.lt_succ_of_lt (h.checkpoints_lt c hc)
    · rw [mem_singleton.mp hc]
      exact Nat.lt_succ_self _
  · intro c hc
    rcases mem_append.mp hc with hc | hc
    · exact h.fine c hc
    · rw [mem_singleton.mp hc]
      exact Checkpoint.new_fine hdevices _ _ _
  · refine pairwise_append.mpr ⟨h.disjoint, pairwise_singleton _ _, ?_⟩
    intro o ho y hy hflags
    rw [mem_singleton.mp hy] at hflags ⊢
    exact hdisjoint hflags o ho
  · exact fun id hid => Nat.lt_succ_of_lt (h.destroyed_lt id hid)
  · exact fun id hid => Nat.lt_succ_of_lt (h.rolledBack_lt id hid)
  · intro c hc hmem
    rcases mem_append.mp hc with hc | hc
    · exact h.notDestroyed c hc hmem
    · rw [mem_singleton.mp hc] at hmem
      exact Nat.lt_irrefl _ (h.destroyed_lt _ hmem)
  · intro c hc hmem
    rcases mem_append.mp hc with hc | hc
    · exact h.notRolledBack c hc hmem
    · rw [mem_singleton.mp hc] at hmem
      exact absurd (h.rolledBack_lt _ hmem) (Nat.lt_irrefl _)

theorem Inv.keysDisjoint_new (h : s.Inv none) {c : Checkpoint} (hc : c ∈ s.checkpoints)
    {devices : List CheckpointNMDevice} (hdevices : ∀ d ∈ devices, d ∈ s.devices)
    (hincludes : c.includesDevices devices = none)
    (hremoved : ∀ d ∈ devices, ∀ x ∈ c.removedDevices, x.key ≠ d.key) (id rollbackTimeout : ℕ)
    (flags : CheckpointCreateFlags) : c.KeysDisjoint (.new id devices rollbackTimeout flags) := by
  obtain ⟨-, -, hfrom, -⟩ :=
    Checkpoint.foldl_upsert_create devices [] nodup_nil (by simp)
  intro x hx x' hx' hkey
  have hx' : x' ∈ (Checkpoint.new id devices rollbackTimeout flags).devices := by
    simpa [Checkpoint.all, Checkpoint.new] using hx'
  rcases hfrom x' hx' with hx' | ⟨d, hd, rfl⟩
  · simp at hx'
  · rcases mem_append.mp hx with hx | hx
    · obtain ⟨d', hd', hid, hkey'⟩ := (h.fine c hc).present x hx
      obtain rfl := eq_of_key_eq h.keys hd' (hdevices d hd) (hkey'.trans hkey)
      unfold Checkpoint.includesDevices at hincludes
      rw [Option.map_eq_none_iff, List.find?_eq_none] at hincludes
      refine hincludes d' hd (any_eq_true.mpr ⟨x, hx, ?_⟩)
      simpa using hid.symm
    · exact hremoved d hd x hx hkey

theorem Inv.create (h : s.Inv none) (rollbackTimeout : ℕ) (hreach : s.CreateInReach paths flags) :
    (s.create paths rollbackTimeout flags).1.Inv none := by
  unfold CheckpointSystem.create
  split
  · exact h
  · exact h
  · rename_i devices _ hdevices
    have hmem := mem_of_devicesToCreate hdevices
    split_ifs with hall hoverlapping
    · obtain ⟨hinv, hsame, hempty⟩ := h.destroyAll
      refine hinv.addCheckpoint (hsame ▸ hmem) rollbackTimeout fun _ c hc => ?_
      rw [hempty] at hc
      simp at hc
    · refine h.addCheckpoint hmem rollbackTimeout fun hallow => ?_
      rw [hoverlapping] at hallow
      cases hallow
    · split
      · exact h
      · rename_i hfind
        refine h.addCheckpoint hmem rollbackTimeout fun hallow c hc => ?_
        have hincludes : c.includesDevices devices = none := by
          have hnone := List.findSome?_eq_none_iff.mp hfind c hc
          simpa using hnone
        exact h.keysDisjoint_new hc hmem hincludes
          (hreach (by simpa using hall) hallow devices hdevices hfind c hc) _ _ _

theorem create_of_error {rollbackTimeout : ℕ} {e : CheckpointCreateError}
    (h : (s.create paths rollbackTimeout flags).2 = .error e) :
    (s.create paths rollbackTimeout flags).1 = s := by
  unfold CheckpointSystem.create at h ⊢
  split
  · rfl
  · rfl
  · rename_i hnonempty hdevices
    simp only [hdevices] at h
    split_ifs at h ⊢
    split
    · rfl
    · rename_i hfind
      simp only [hfind] at h
      cases h

theorem Inv.sound (h : s.Inv none) : s.Sound where
  disjoint := h.disjoint.imp_of_mem fun ho hy hdisjoint hflags =>
    (hdisjoint hflags).not_shares h.devices (h.fine _ ho) (h.fine _ hy)
  once := h.once
  notAfterDestroyed := h.notAfterDestroyed
  rollbacks := h.rollbacks
  failedCreate _ _ _ _ he := create_of_error he

/-! ## Runs -/

theorem Inv.setTimeout (h : s.Inv running) (checkpoint : ℕ) (timeout : Bool) :
    (s.setTimeout checkpoint timeout).Inv running := by
  -- Only the timeouts differ.
  have hfrom : ∀ c' ∈ (s.setTimeout checkpoint timeout).checkpoints, ∃ c ∈ s.checkpoints,
      c'.id = c.id ∧ ∀ devices, c.Fine devices → c'.Fine devices := by
    intro c' hc'
    rcases mem_modifyKey hc' with ⟨hc', -⟩ | ⟨c, hc, -, rfl⟩
    · exact ⟨c', hc', rfl, fun _ hfine => hfine⟩
    · exact ⟨c, hc, rfl, fun _ hfine => ⟨hfine.table, hfine.present, hfine.kept⟩⟩
  refine { h with checkpoints := h.checkpoints.modifyKey fun _ => rfl, checkpoints_lt := ?_,
                  fine := ?_, disjoint := ?_, notDestroyed := ?_, notRolledBack := ?_ }
  · intro c' hc'
    obtain ⟨c, hc, hid, -⟩ := hfrom c' hc'
    exact hid ▸ h.checkpoints_lt c hc
  · intro c' hc'
    obtain ⟨c, hc, -, hfine⟩ := hfrom c' hc'
    exact hfine _ (h.fine c hc)
  · refine pairwise_map.mpr (h.disjoint.imp fun {o y} hdisjoint => ?_)
    split_ifs <;> exact hdisjoint
  · intro c' hc'
    obtain ⟨c, hc, hid, -⟩ := hfrom c' hc'
    rw [hid]
    exact h.notDestroyed c hc
  · intro c' hc' hmem
    obtain ⟨c, hc, hid, -⟩ := hfrom c' hc'
    rw [hid] at hmem ⊢
    exact h.notRolledBack c hc hmem

theorem Inv.step (h : s.Inv none) (e : CheckpointSystemEvent) (hreach : s.InReach e) :
    (s.step e).Inv none := by
  cases e with
  | device event => exact h.deviceEvent event
  | create paths rollbackTimeout flags => exact h.create rollbackTimeout hreach
  | destroy checkpoint =>
    simp only [CheckpointSystem.step, CheckpointSystem.destroy]
    cases hlookup : s.lookupCheckpoint checkpoint with
    | none => exact h
    | some c => simpa using h.destroyCheckpoint (h.lookup_eq.mp hlookup).1
  | destroyAll => exact h.destroyAll.1
  | rollback checkpoint removed table =>
    simp only [CheckpointSystem.step, rollbackByPath]
    cases hlookup : s.lookupCheckpoint checkpoint with
    | none => exact h
    | some c => exact h.rollbackCheckpoint (h.lookup_eq.mp hlookup).1 (hreach c hlookup)
  | timeout checkpoint removed table =>
    simp only [CheckpointSystem.step, timeoutCb]
    cases hlookup : s.lookupCheckpoint checkpoint with
    | none => exact h
    | some c =>
      dsimp only
      split_ifs with htimeout
      · have hset := h.setTimeout checkpoint false
        refine hset.rollbackCheckpoint ?_ (hreach c hlookup htimeout)
        obtain ⟨hc, rfl⟩ := h.lookup_eq.mp hlookup
        exact mem_map.mpr ⟨c, hc, if_pos rfl⟩
      · exact h
  | adjustRollbackTimeout checkpoint addTimeout => exact h.setTimeout checkpoint _

/-- In a run whose events are in reach, the checkpoints cover disjoint devices and are used once. -/
theorem checkpoints_sound (es : List CheckpointSystemEvent) (h : Along step InReach start es) :
    (es.foldl step start).Sound :=
  (h.foldl (fun _ e hs hreach => hs.step e hreach) start_inv).sound

def recreatedRun : List CheckpointSystemEvent :=
  [.device (.added 1 1 true), .create [0] 0 ⟨false, false, false⟩, .device (.removed 0),
    .device (.added 1 1 true), .create [1] 0 ⟨false, false, false⟩]

/-- Both checkpoints cover the device of that name and type. -/
theorem recreatedRun_not_sound : ¬ (recreatedRun.foldl step start).Sound := by
  intro h
  have hdisjoint := h.disjoint
  revert hdisjoint
  decide

def rolledBackRun : List CheckpointSystemEvent :=
  [.device (.added 1 1 true), .device (.added 2 1 true), .create [0, 1, 0] 60 ⟨false, false, false⟩,
    .create [0] 0 ⟨false, false, true⟩, .device (.removed 1), .rollback 0 [⟨.failed, []⟩] [⟨.ok, []⟩]]

theorem rolledBackRun_sound : (rolledBackRun.foldl step start).Sound :=
  checkpoints_sound rolledBackRun (by
    refine ⟨trivial, trivial, ?_, ?_, trivial, ?_, trivial⟩
    · exact fun _ _ _ _ _ c hc => absurd hc not_mem_nil
    · exact fun _ hallow => absurd hallow (by decide)
    · intro c hc
      have hfound : ((rolledBackRun.take 5).foldl step start).lookupCheckpoint 0 =
          some ⟨0, ⟨false, false, false⟩, [⟨0, 0, 1, 1⟩], 1, [⟨1, 1, 2, 1⟩], true, [1, 0]⟩ := by decide
      obtain rfl := Option.some.inj (hfound.symm.trans hc)
      decide)

end CheckpointSystem
end NetworkManager.Core
