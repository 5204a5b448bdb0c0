import HardMail.Codec.Words

namespace codec.Codec

variable {β α ε : Type} {c : Codec β α} {blame : List β → ε}

/-- Reads one value and keeps the rest, or blames what stands in its place. -/
def skip (c : Codec β α) (blame : List β → ε) (bs : List β) : Except ε (List β) :=
  match c.decode bs with
  | some (_, rest) => .ok rest
  | none => .error (blame bs)

/-- In front of an encoding the codec moves past it. -/
theorem skip_encode (a : α) (rest : List β) : c.skip blame (c.encode a ++ rest) = .ok rest := by
  rw [skip, c.decode_encode]

/-- What starts with no encoding is not decoded. -/
theorem decode_eq_none {bs : List β} (h : ∀ a rest, bs ≠ c.encode a ++ rest) : c.decode bs = none := by
  cases hdecode : c.decode bs with
  | none => rfl
  | some read => exact absurd (c.encode_of_decode bs read.1 read.2 hdecode) (h _ _)

/-- What starts with no encoding is blamed as a whole. -/
theorem skip_eq_error {bs : List β} (h : ∀ a rest, bs ≠ c.encode a ++ rest) : c.skip blame bs = .error (blame bs) := by
  rw [skip, decode_eq_none h]

section text

variable {k : Nat} {p : List UInt8 → Prop} [DecidablePred p] (hp : ∀ l, p l → l.length < 256 ^ k)

/-- A text is read when its prefix is followed by what it counts off, of the right kind. -/
theorem text_decode_isSome_iff {head tail : List UInt8} (hhead : head.length = k) :
    ((text k p hp).decode (head ++ tail)).isSome = true ↔
      beValue head ≤ tail.length ∧ p (tail.take (beValue head)) := by
  constructor
  · intro h
    obtain ⟨read, hread⟩ := Option.isSome_iff_exists.mp h
    exact of_text_prefix hp hhead ((text k p hp).encode_of_decode _ _ _ hread)
  · rintro ⟨hlen, hok⟩
    rw [← text_encode_take hp hhead hlen hok, (text k p hp).decode_encode]
    rfl

/-- A prefix that is cut short counts nothing off. -/
theorem text_decode_of_short {bs : List UInt8} (hshort : bs.length < k) : (text k p hp).decode bs = none := by
  apply decode_eq_none
  rintro a rest rfl
  rw [List.length_append, text_encode_length] at hshort
  omega

end text

end codec.Codec
