import Mathlib.Data.List.Forall2

/-!
# Runs of a deterministic machine

A run is a list of events folded over a step function. `Along` states a
property of every event of the run together with the state that the event
finds; the rules below carry a state invariant through the run and let one
such property be traded for another wherever the invariant holds.
-/

namespace NetworkManager.Lib

open List

variable {σ ε : Type*} (step : σ → ε → σ)

/-- Every event `e` of the run, met in state `s`, satisfies `P s e`. -/
def Along (P : σ → ε → Prop) : σ → List ε → Prop
  | _, [] => True
  | s, e :: es => P s e ∧ Along P (step s e) es

instance Along.decidable (P : σ → ε → Prop) [∀ s e, Decidable (P s e)] :
    ∀ s es, Decidable (Along step P s es)
  | _, [] => inferInstanceAs (Decidable True)
  | s, e :: es =>
    haveI := Along.decidable P (step s e) es
    inferInstanceAs (Decidable (P s e ∧ Along step P (step s e) es))

variable {step} {P Q G : σ → ε → Prop} {I : σ → Prop} {s : σ} {es : List ε} {f : σ → ε → Option σ}
  {s' : σ}

@[simp] theorem along_nil : Along step P s [] := trivial

@[simp] theorem along_cons {e : ε} :
    Along step P s (e :: es) ↔ P s e ∧ Along step P (step s e) es := Iff.rfl

theorem along_of_forall (h : ∀ s e, P s e) : Along step P s es := by
  induction es generalizing s with
  | nil => trivial
  | cons e es ih => exact ⟨h s e, ih⟩

theorem along_append {es' : List ε} :
    Along step P s (es ++ es') ↔
      Along step P s es ∧ Along step P (es.foldl step s) es' := by
  induction es generalizing s with
  | nil => simp
  | cons e es ih => simp [ih, and_assoc]

theorem Along.foldl (hstep : ∀ s e, I s → G s e → I (step s e)) (hI : I s)
    (hG : Along step G s es) : I (es.foldl step s) := by
  induction es generalizing s with
  | nil => exact hI
  | cons e es ih => exact ih (hstep s e hI hG.1) hG.2

theorem along_iff_states (hiff : ∀ s e, I s → (G s e ↔ I (step s e))) (hI : I s) :
    Along step G s es ↔ ∀ es', es' <+: es → I (es'.foldl step s) := by
  constructor
  · rintro hG es' ⟨es'', rfl⟩
    exact (along_append.mp hG).1.foldl (fun s e hI hG => (hiff s e hI).mp hG) hI
  · intro h
    induction es generalizing s with
    | nil => trivial
    | cons e es ih =>
      have hstep : I (step s e) := h [e] ⟨es, rfl⟩
      refine ⟨(hiff s e hI).mpr hstep, ih hstep fun es' hes' => ?_⟩
      exact h (e :: es') (cons_prefix_cons.mpr ⟨rfl, hes'⟩)

theorem foldl_invariant (hstep : ∀ s e, I s → I (step s e)) (hI : I s) (es : List ε) :
    I (es.foldl step s) := by
  induction es generalizing s with
  | nil => exact hI
  | cons e es ih => exact ih (hstep s e hI)

/-- Every event `e` of a run whose steps may fail, met in state `s`, satisfies `P s e`. -/
def AlongM (f : σ → ε → Option σ) (P : σ → ε → Prop) : σ → List ε → Prop
  | _, [] => True
  | s, e :: es => P s e ∧ ∀ s' ∈ f s e, AlongM f P s' es

instance AlongM.decidable (f : σ → ε → Option σ) (P : σ → ε → Prop) [∀ s e, Decidable (P s e)] :
    ∀ s es, Decidable (AlongM f P s es)
  | _, [] => inferInstanceAs (Decidable True)
  | s, e :: es =>
    haveI : ∀ s', Decidable (AlongM f P s' es) := fun s' => AlongM.decidable f P s' es
    inferInstanceAs (Decidable (P s e ∧ ∀ s' ∈ f s e, AlongM f P s' es))

theorem AlongM.foldlM (hstep : ∀ s e s', I s → G s e → f s e = some s' → I s') (hI : I s)
    (hG : AlongM f G s es) (h : es.foldlM f s = some s') : I s' := by
  induction es generalizing s with
  | nil => exact Option.some.inj h ▸ hI
  | cons e es ih =>
    obtain ⟨t, ht, htail⟩ := Option.bind_eq_some_iff.mp (foldlM_cons.symm.trans h)
    exact ih (hstep s e t hI hG.1 ht) (hG.2 t ht) htail

theorem foldlM_invariant {P : ε → Prop} (hstep : ∀ s e s', I s → P e → f s e = some s' → I s')
    (hI : I s) (hP : ∀ e ∈ es, P e) (h : es.foldlM f s = some s') : I s' := by
  induction es generalizing s with
  | nil => exact Option.some.inj h ▸ hI
  | cons e es ih =>
    obtain ⟨t, ht, htail⟩ := Option.bind_eq_some_iff.mp (foldlM_cons.symm.trans h)
    exact ih (hstep s e t hI (hP e mem_cons_self) ht)
      (fun e' he' => hP e' (mem_cons_of_mem e he')) htail

theorem alongM_iff_states {J : σ → Prop}
    (hiff : ∀ s e s', J s → I s → f s e = some s' → (G s e ↔ I s'))
    (hJ : ∀ s e s', f s e = some s' → J s → J s') (hnone : ∀ s e, f s e = none → G s e) (hJs : J s)
    (hI : I s) : AlongM f G s es ↔ ∀ es', es' <+: es → ∀ s' ∈ es'.foldlM f s, I s' := by
  constructor
  · intro hG es' hes' s' hs'
    induction es generalizing s es' with
    | nil =>
      rw [prefix_nil.mp hes'] at hs'
      exact Option.some.inj hs' ▸ hI
    | cons e es ih =>
      cases es' with
      | nil => exact Option.some.inj hs' ▸ hI
      | cons e' es' =>
        obtain ⟨rfl, htail⟩ := cons_prefix_cons.mp hes'
        obtain ⟨t, ht, hrun⟩ := Option.bind_eq_some_iff.mp (foldlM_cons.symm.trans hs')
        exact ih (hJ _ _ _ ht hJs) ((hiff _ _ _ hJs hI ht).mp hG.1) (hG.2 t ht) es' htail hrun
  · intro h
    induction es generalizing s with
    | nil => trivial
    | cons e es ih =>
      have hstep (t : σ) (ht : f s e = some t) : I t := by
        apply h [e] (prefix_append [e] es)
        simp [foldlM_cons, ht]
      refine ⟨?_, fun t ht => ih (hJ _ _ _ ht hJs) (hstep t ht) ?_⟩
      · cases hf : f s e with
        | none => exact hnone s e hf
        | some t => exact (hiff _ _ _ hJs hI hf).mpr (hstep t hf)
      · intro es' hes' s' hs'
        apply h (e :: es') (cons_prefix_cons.mpr ⟨rfl, hes'⟩)
        rw [foldlM_cons, ht]
        exact hs'

theorem foldlM_map_congr {σ' τ ε' : Type*} {f' : σ' → ε' → Option σ'} {proj : σ → τ}
    {proj' : σ' → τ} {R : ε → ε' → Prop} {s' : σ'} {es' : List ε'}
    (hstep : ∀ s s', proj s = proj' s' → ∀ e ∈ es, ∀ e' ∈ es', R e e' → (f s e).map proj = (f' s' e').map proj')
    (hes : List.Forall₂ R es es') (hs : proj s = proj' s') :
    (es.foldlM f s).map proj = (es'.foldlM f' s').map proj' := by
  induction hes generalizing s s' with
  | nil => simpa using hs
  | @cons e e' es es' hR _ ih =>
    have hmap := hstep s s' hs e mem_cons_self e' mem_cons_self hR
    have htail : ∀ s s', proj s = proj' s' → ∀ e ∈ es, ∀ e' ∈ es', R e e' →
        (f s e).map proj = (f' s' e').map proj' := fun s s' hs e he e' he' hR =>
      hstep s s' hs e (mem_cons_of_mem _ he) e' (mem_cons_of_mem _ he') hR
    rw [foldlM_cons, foldlM_cons]
    cases hf : f s e with
    | none =>
      rw [hf, Option.map_none, eq_comm, Option.map_eq_none_iff] at hmap
      simp [hmap]
    | some t =>
      rw [hf, Option.map_some, eq_comm] at hmap
      obtain ⟨t', ht', hproj⟩ := Option.map_eq_some_iff.mp hmap
      rw [ht']
      exact ih htail hproj.symm

theorem foldlM_eq_ite {g : σ → ε → σ} {p : ε → Prop} [DecidablePred p] {J : σ → List ε → Prop}
    (hstep : ∀ s e es, J s (e :: es) → f s e = if p e then some (g s e) else none)
    (hJ : ∀ s e es, J s (e :: es) → J (g s e) es) (h : J s es) :
    es.foldlM f s = if ∀ e ∈ es, p e then some (es.foldl g s) else none := by
  induction es generalizing s with
  | nil => simp
  | cons e es ih =>
    rw [foldlM_cons, hstep s e es h]
    by_cases he : p e
    · rw [if_pos he]
      simp only [Option.bind_eq_bind, Option.bind_some, ih (hJ s e es h), foldl_cons,
        forall_mem_cons, he, true_and]
    · simp [he]

theorem Along.imp (hstep : ∀ s e, I s → P s e → I (step s e)) (hI : I s)
    (himp : ∀ s e, I s → P s e → Q s e) (hP : Along step P s es) : Along step Q s es := by
  induction es generalizing s with
  | nil => trivial
  | cons e es ih => exact ⟨himp s e hI hP.1, ih (hstep s e hI hP.1) hP.2⟩

theorem along_congr (hstep : ∀ s e, I s → I (step s e)) (hI : I s)
    (hiff : ∀ s e, I s → (P s e ↔ Q s e)) : Along step P s es ↔ Along step Q s es := by
  induction es generalizing s with
  | nil => simp
  | cons e es ih => simp only [along_cons, hiff s e hI, ih (hstep s e hI)]

theorem foldl_proj {σ' : Type*} {proj : σ → σ'} {step' : σ' → ε → σ'} {p : ε → Bool}
    (hin : ∀ s e, p e → proj (step s e) = step' (proj s) e)
    (hout : ∀ s e, ¬ p e → proj (step s e) = proj s) :
    proj (es.foldl step s) = (es.filter p).foldl step' (proj s) := by
  induction es generalizing s with
  | nil => rfl
  | cons e es ih =>
    rw [foldl_cons, ih]
    by_cases he : p e
    · rw [filter_cons_of_pos he, foldl_cons, hin s e he]
    · rw [filter_cons_of_neg he, hout s e he]

end NetworkManager.Lib
