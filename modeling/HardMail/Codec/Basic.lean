import Mathlib.Algebra.Order.Ring.Nat
import Mathlib.Logic.Equiv.Defs

namespace codec

/-- A writer and a prefix reader of one type, with the two laws that make them
inverse: an encoding is read back in front of every suffix, and a successful
read is followed by exactly the bytes it returns. -/
structure Codec (β α : Type) where
  encode : α → List β
  decode : List β → Option (α × List β)
  decode_encode : ∀ a rest, decode (encode a ++ rest) = some (a, rest)
  encode_of_decode : ∀ bs a rest, decode bs = some (a, rest) → bs = encode a ++ rest

namespace Codec

variable {β α γ : Type}

/-- Two encodings followed by arbitrary suffixes agree only when the values
and the suffixes do. -/
theorem append_inj (c : Codec β α) {a b : α} {r s : List β}
    (h : c.encode a ++ r = c.encode b ++ s) : a = b ∧ r = s := by
  have hread := c.decode_encode a r
  rw [h, c.decode_encode] at hread
  simpa [eq_comm] using hread

/-- Distinct values have distinct encodings, as an encoding is decoded to its value. -/
theorem encode_injective (c : Codec β α) : Function.Injective c.encode := by
  intro a b h
  exact (c.append_inj (r := []) (s := []) (by rw [h])).1

/-- No encoding is a proper prefix of another one. -/
theorem eq_of_encode_prefix (c : Codec β α) {a b : α} {rest : List β}
    (h : c.encode a ++ rest = c.encode b) : a = b ∧ rest = [] := by
  apply c.append_inj
  rw [h, List.append_nil]

/-- Read exactly `n` elements. -/
def block (n : Nat) : Codec β { l : List β // l.length = n } where
  encode l := l.val
  decode bs :=
    if h : n ≤ bs.length then some (⟨bs.take n, List.length_take_of_le h⟩, bs.drop n) else none
  decode_encode l rest := by
    obtain ⟨l, rfl⟩ := l
    simp
  encode_of_decode bs l rest h := by
    split at h
    · cases h
      exact (List.take_append_drop n bs).symm
    · cases h

/-- Two values in order. -/
def pair (c : Codec β α) (d : Codec β γ) : Codec β (α × γ) where
  encode v := c.encode v.1 ++ d.encode v.2
  decode bs := (c.decode bs).bind fun (a, rest) => (d.decode rest).map fun (b, rest) => ((a, b), rest)
  decode_encode v rest := by
    simp [List.append_assoc, c.decode_encode, d.decode_encode]
  encode_of_decode bs v rest h := by
    simp only [Option.bind_eq_some_iff, Option.map_eq_some_iff] at h
    obtain ⟨⟨a, mid⟩, hfirst, ⟨b, last⟩, hsecond, heq⟩ := h
    cases heq
    have hmid : mid = d.encode b ++ last := d.encode_of_decode _ _ _ hsecond
    rw [c.encode_of_decode _ _ _ hfirst, hmid, List.append_assoc]

/-- A value whose second part is laid out according to its first. -/
def sigma {δ : α → Type} (c : Codec β α) (d : (a : α) → Codec β (δ a)) :
    Codec β (Sigma δ) where
  encode v := c.encode v.1 ++ (d v.1).encode v.2
  decode bs :=
    (c.decode bs).bind fun (a, rest) => ((d a).decode rest).map fun (b, rest) => (⟨a, b⟩, rest)
  decode_encode v rest := by
    simp [List.append_assoc, c.decode_encode, (d v.1).decode_encode]
  encode_of_decode bs v rest h := by
    simp only [Option.bind_eq_some_iff, Option.map_eq_some_iff] at h
    obtain ⟨⟨a, mid⟩, hfirst, ⟨b, last⟩, hsecond, heq⟩ := h
    cases heq
    have hmid : mid = (d a).encode b ++ last := (d a).encode_of_decode _ _ _ hsecond
    rw [c.encode_of_decode _ _ _ hfirst, hmid, List.append_assoc]

/-- Refuse the decoded values that do not satisfy a decidable predicate. -/
def refine (c : Codec β α) (p : α → Prop) [DecidablePred p] : Codec β { a : α // p a } where
  encode v := c.encode v.val
  decode bs := (c.decode bs).bind fun (a, rest) => if h : p a then some (⟨a, h⟩, rest) else none
  decode_encode v rest := by
    simp [c.decode_encode, v.property]
  encode_of_decode bs v rest h := by
    simp only [Option.bind_eq_some_iff] at h
    obtain ⟨⟨a, mid⟩, hread, h⟩ := h
    split at h
    · cases h
      exact c.encode_of_decode _ _ _ hread
    · cases h

/-- Change the type of the values along an equivalence. -/
def iso (c : Codec β α) (e : α ≃ γ) : Codec β γ where
  encode v := c.encode (e.symm v)
  decode bs := (c.decode bs).map fun (a, rest) => (e a, rest)
  decode_encode v rest := by
    simp [c.decode_encode]
  encode_of_decode bs v rest h := by
    simp only [Option.map_eq_some_iff] at h
    obtain ⟨⟨a, mid⟩, hread, heq⟩ := h
    cases heq
    simpa using c.encode_of_decode _ _ _ hread

/-- A tag that announces either nothing or one value. -/
def optional [DecidableEq β] (c : Codec β α) (absent present : β) (htags : absent ≠ present) :
    Codec β (Option α) where
  encode
    | none => [absent]
    | some a => present :: c.encode a
  decode
    | [] => none
    | tag :: rest =>
      if tag = absent then some (none, rest)
      else if tag = present then (c.decode rest).map fun (a, rest) => (some a, rest)
      else none
  decode_encode v rest := by
    cases v with
    | none => simp
    | some a => simp [htags.symm, c.decode_encode]
  encode_of_decode bs v rest h := by
    cases bs with
    | nil => cases h
    | cons tag tail =>
      dsimp only at h
      split at h
      · rename_i htag
        cases h
        simp [htag]
      · split at h
        · rename_i _ htag
          simp only [Option.map_eq_some_iff] at h
          obtain ⟨⟨a, mid⟩, hread, heq⟩ := h
          cases heq
          simp [htag, c.encode_of_decode _ _ _ hread]
        · cases h

end Codec

end codec
