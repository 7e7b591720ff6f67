import NetworkManager.Lib.Bytes

/-!
# Messages in a stream of bytes

A parser that finds the first message of a text without knowing its length, and says what is left.
What comes after a message does not change it, so that the messages of a stream are the same however
the stream was cut.
-/

namespace NetworkManager.Lib

/-- A parser for the first message of a text. -/
structure Framing (α : Type*) where
  parse : Bytes → Option (α × Bytes)
  parse_append : ∀ {text msg rest} (more : Bytes), parse text = some (msg, rest) →
    parse (text ++ more) = some (msg, rest ++ more)
  parse_shorter : ∀ {text msg rest}, parse text = some (msg, rest) → rest.length < text.length

namespace Framing

variable {α : Type*} (F : Framing α)

/-- The messages of a text, and what is left. -/
def decode (text : Bytes) : List α × Bytes :=
  match _h : F.parse text with
  | none => ([], text)
  | some (msg, rest) =>
    let (msgs, rest') := decode rest
    (msg :: msgs, rest')
termination_by text.length
decreasing_by exact F.parse_shorter _h

variable {F} {text rest : Bytes} {msg : α}

theorem decode_of_none (h : F.parse text = none) : F.decode text = ([], text) := by
  rw [decode]
  split
  · rfl
  · rename_i heq
    rw [h] at heq
    cases heq

theorem decode_of_some (h : F.parse text = some (msg, rest)) :
    F.decode text = (msg :: (F.decode rest).1, (F.decode rest).2) := by
  rw [decode]
  split
  · rename_i heq
    rw [h] at heq
    cases heq
  · rename_i heq
    rw [h] at heq
    obtain ⟨rfl, rfl⟩ := Prod.mk.inj (Option.some.inj heq)
    rfl

theorem decode_append (text more : Bytes) :
    F.decode (text ++ more) =
      ((F.decode text).1 ++ (F.decode ((F.decode text).2 ++ more)).1,
        (F.decode ((F.decode text).2 ++ more)).2) := by
  induction hn : text.length using Nat.strong_induction_on generalizing text with
  | _ n ih =>
    cases h : F.parse text with
    | none => rw [decode_of_none h, List.nil_append]
    | some found =>
      obtain ⟨msg, rest⟩ := found
      have hshorter := F.parse_shorter h
      rw [decode_of_some h, decode_of_some (F.parse_append more h),
        ih rest.length (by omega) rest rfl]
      rfl

/-- The parser for copies of one text. -/
def copies (copy : Bytes) (msg : α) (hcopy : copy ≠ []) : Framing α where
  parse input := if copy <+: input then some (msg, input.drop copy.length) else none
  parse_append := by
    intro input msg rest more h
    split_ifs at h with hstart
    obtain ⟨rfl, rfl⟩ := Prod.mk.inj (Option.some.inj h)
    rw [if_pos (hstart.trans (List.prefix_append _ _)), List.drop_append_of_le_length hstart.length_le]
  parse_shorter := by
    intro input msg rest h
    split_ifs at h with hstart
    obtain ⟨rfl, rfl⟩ := Prod.mk.inj (Option.some.inj h)
    have hlength := hstart.length_le
    have hpos := List.length_pos_iff.mpr hcopy
    rw [List.length_drop]
    omega

end Framing
end NetworkManager.Lib
