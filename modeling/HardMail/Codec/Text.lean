import HardMail.Codec.Basic

namespace codec

/-- The bytes of an ASCII text. -/
def ascii (s : List Char) : List UInt8 := s.map fun c => UInt8.ofNat c.toNat

/-- A number in decimal digits, without leading zeros. -/
def decimal (n : Nat) : List UInt8 := ascii (Nat.toDigits 10 n)

/-- A half byte as an upper-case hexadecimal digit. -/
def hexDigit (n : Nat) : UInt8 := UInt8.ofNat (if n < 10 then 0x30 + n else 0x37 + n)

def hexByte (b : UInt8) : List UInt8 := [hexDigit (b.toNat / 16), hexDigit (b.toNat % 16)]

/-- Two hexadecimal digits for each byte. -/
def hex (bytes : List UInt8) : List UInt8 := bytes.flatMap hexByte

/-- The characters of a decimal numeral are the ASCII digits. -/
theorem digit_toNat {n : Nat} {c : Char} (hc : c ∈ Nat.toDigits 10 n) :
    0x30 ≤ c.toNat ∧ c.toNat ≤ 0x39 := by
  have hdigit := Nat.isDigit_of_mem_toDigits (by decide) (by decide) hc
  simp only [Char.isDigit, Bool.and_eq_true, decide_eq_true_eq, ge_iff_le,
    UInt32.le_iff_toNat_le] at hdigit
  exact hdigit

/-- A character below 256 keeps its code as a byte. -/
theorem ascii_toNat {c : Char} (hc : c.toNat < 256) : (UInt8.ofNat c.toNat).toNat = c.toNat :=
  UInt8.toNat_ofNat_of_lt' hc

/-- The digits give the number back, so no two numbers look the same. -/
theorem decimal_injective : Function.Injective decimal := by
  intro m n h
  have hread : ∀ k, (decimal k).map (fun b => Char.ofNat b.toNat) = Nat.toDigits 10 k := by
    intro k
    rw [decimal, ascii, List.map_map]
    refine (List.map_congr_left ?_).trans (List.map_id _)
    intro c hc
    have hdigit := digit_toNat hc
    rw [Function.comp_apply, ascii_toNat (by omega), Char.ofNat_toNat, id]
  have hdigits : Nat.toDigits 10 m = Nat.toDigits 10 n := by rw [← hread m, ← hread n, h]
  have hvalue := congrArg (fun l => Nat.ofDigitChars 10 l 0) hdigits
  simpa only [Nat.ofDigitChars_ten_toDigits] using hvalue

/-- The bytes of a decimal numeral are the ASCII digits. -/
theorem mem_decimal {n : Nat} {b : UInt8} (hb : b ∈ decimal n) : 0x30 ≤ b.toNat ∧ b.toNat ≤ 0x39 := by
  obtain ⟨c, hc, rfl⟩ := List.mem_map.mp hb
  have hdigit := digit_toNat hc
  rwa [ascii_toNat (by omega)]

/-- A number below `10 ^ k` has at most `k` decimal digits. -/
theorem decimal_length_le {n k : Nat} (hk : 0 < k) (hn : n < 10 ^ k) : (decimal n).length ≤ k := by
  rw [decimal, ascii, List.length_map]
  exact (Nat.length_toDigits_le_iff (by decide) hk).mpr hn

example : decimal 120 = ascii "120".toList := by decide

/-- The code of a hexadecimal digit: a decimal digit first, then a capital letter. -/
theorem hexDigit_toNat {n : Nat} (hn : n < 16) :
    (hexDigit n).toNat = if n < 10 then 0x30 + n else 0x37 + n := by
  apply UInt8.toNat_ofNat_of_lt'
  change (if n < 10 then 0x30 + n else 0x37 + n) < 256
  split <;> omega

/-- Distinct half bytes have distinct digits. -/
theorem hexDigit_injective {m n : Nat} (hm : m < 16) (hn : n < 16) (h : hexDigit m = hexDigit n) :
    m = n := by
  have hvalue := congrArg UInt8.toNat h
  rw [hexDigit_toNat hm, hexDigit_toNat hn] at hvalue
  split at hvalue <;> split at hvalue <;> omega

/-- A byte can be told from its two digits. -/
theorem hexByte_injective : Function.Injective hexByte := by
  intro a b h
  have ha := a.toNat_lt
  have hb := b.toNat_lt
  simp only [hexByte, List.cons.injEq, and_true] at h
  have hhigh := hexDigit_injective (by omega) (by omega) h.1
  have hlow := hexDigit_injective (by omega) (by omega) h.2
  apply UInt8.toNat_inj.mp
  omega

/-- Bytes can be told from their digits. -/
theorem hex_injective : Function.Injective hex := by
  intro l
  induction l with
  | nil =>
    intro m h
    cases m with
    | nil => rfl
    | cons b m => cases h
  | cons a l ih =>
    intro m h
    cases m with
    | nil => cases h
    | cons b m =>
      have hsplit : hexByte a ++ hex l = hexByte b ++ hex m := h
      obtain ⟨hhead, htail⟩ := List.append_inj hsplit rfl
      rw [hexByte_injective hhead, ih htail]

@[simp] theorem hex_length (bytes : List UInt8) : (hex bytes).length = 2 * bytes.length := by
  induction bytes with
  | nil => rfl
  | cons b bytes ih =>
    have hcons : hex (b :: bytes) = hexByte b ++ hex bytes := rfl
    rw [hcons, List.length_append, ih, List.length_cons, hexByte, List.length_cons, List.length_singleton]
    omega

/-- No digit is a terminator, so that digits can be stored as a C string. -/
theorem zero_not_mem_hex (bytes : List UInt8) : 0 ∉ hex bytes := by
  intro hzero
  obtain ⟨b, -, hb⟩ := List.mem_flatMap.mp hzero
  have hlt := b.toNat_lt
  have hnonzero : ∀ n, n < 16 → (0 : UInt8) ≠ hexDigit n := by
    intro n hn h
    have hvalue := congrArg UInt8.toNat h
    rw [hexDigit_toNat hn] at hvalue
    change 0 = _ at hvalue
    split at hvalue <;> omega
  simp only [hexByte, List.mem_cons, List.not_mem_nil, or_false] at hb
  obtain hb | hb := hb
  · exact hnonzero _ (by omega) hb
  · exact hnonzero _ (by omega) hb

/-- A text is determined by where its last separator stands. -/
theorem append_separator_inj {β : Type} {sep : β} {l l' tail tail' : List β} (htail : sep ∉ tail)
    (htail' : sep ∉ tail') (h : l ++ sep :: tail = l' ++ sep :: tail') : l = l' ∧ tail = tail' := by
  obtain ⟨mid, hl, hmid⟩ | ⟨mid, hl, hmid⟩ := List.append_eq_append_iff.mp h
  · cases mid with
    | nil =>
      rw [List.append_nil] at hl
      exact ⟨hl.symm, (List.cons.inj hmid).2⟩
    | cons b mid =>
      rw [List.cons_append, List.cons.injEq] at hmid
      exact absurd (hmid.2 ▸ by simp) htail
  · cases mid with
    | nil =>
      rw [List.append_nil] at hl
      exact ⟨hl, (List.cons.inj hmid).2.symm⟩
    | cons b mid =>
      rw [List.cons_append, List.cons.injEq] at hmid
      exact absurd (hmid.2 ▸ by simp) htail'

end codec
