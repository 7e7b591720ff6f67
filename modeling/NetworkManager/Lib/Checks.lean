import Mathlib.Data.List.Basic

/-!
# Checks that fail with an error

A check in front of a computation in `Except` either fails or lets it go on, so that a result tells
that no check has failed.
-/

namespace NetworkManager.Lib

variable {ε α β : Type}

def failWith (c : Prop) [Decidable c] (e : ε) : Except ε Unit :=
  if c then .error e else .ok ()

@[simp] theorem failWith_ok_iff {c : Prop} [Decidable c] {e : ε} :
    failWith c e = .ok () ↔ ¬c := by
  by_cases h : c <;> simp [failWith, h]

theorem ok_bind (a : α) (f : α → Except ε β) : (Except.ok a >>= f) = f a := rfl

theorem bind_ok_iff {m : Except ε α} {f : α → Except ε β} {r : β} :
    (m >>= f) = .ok r ↔ ∃ a, m = .ok a ∧ f a = .ok r := by
  cases m with
  | error e => simp [bind, Except.bind]
  | ok a => simp [bind, Except.bind]

@[simp] theorem bind_unit_ok_iff {m : Except ε Unit} {f : Unit → Except ε α} {r : α} :
    (m >>= f) = .ok r ↔ m = .ok () ∧ f () = .ok r := by
  cases m with
  | error e => simp [bind, Except.bind]
  | ok a =>
    cases a
    simp [bind, Except.bind]

theorem forM_ok_iff {xs : List α} {f : α → Except ε Unit} :
    xs.forM f = .ok () ↔ ∀ x ∈ xs, f x = .ok () := by
  induction xs with
  | nil => simp [pure, Except.pure]
  | cons x xs ih =>
    change (f x >>= fun _ => xs.forM f) = .ok () ↔ _
    rw [bind_unit_ok_iff, ih, List.forall_mem_cons]

end NetworkManager.Lib
