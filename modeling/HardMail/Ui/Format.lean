import HardMail.Codec.Text
import HardMail.Transaction.Represents

open memory codec

namespace hardmail

/-- The string a character buffer holds: its bytes up to the first NUL. -/
def cString {n : Nat} (buf : CArray UInt8 n) : List UInt8 := untilTerminator 0 buf.toList

/-- Copies a bounded, non-terminated field into a display buffer of `n + 1` bytes. -/
def copy_field {n : Nat} (dst : CArray UInt8 (n + 1)) (mem : List UInt8) (src : Ptr) (len : Nat) :
    CArray UInt8 (n + 1) :=
  let dst := dst.blit 0 (List.replicate (n + 1) 0) (by simp)
  let k := if len < n then len else n
  let bytes := deref mem src k
  have hbytes : bytes.length ≤ k := by
    cases src with
    | none => exact Nat.zero_le _
    | some p => exact slice_length_le mem p k
  have hk : k ≤ n := by
    simp only [k]
    split <;> omega
  (dst.blit 0 bytes (by omega)).blit k [0] (by simpa using hk)

/-- Assumed of the SDK: the hexadecimal text of `bytes` in a buffer, or `none` when it has no
room, for which the call returns -1. -/
def format_hex {n : Nat} (bytes : List UInt8) (out : CArray UInt8 n) : Option (CArray UInt8 n) :=
  if h : n < 2 * bytes.length + 1 then none
  else some (out.blit 0 (hex bytes ++ [0]) (by rw [List.length_append, hex_length, List.length_singleton]; omega))

/-- Assumed of the SDK: what `snprintf` leaves of a text in a buffer of `n + 1` bytes. -/
def snprintf {n : Nat} (out : CArray UInt8 (n + 1)) (text : List UInt8) : CArray UInt8 (n + 1) :=
  out.blit 0 (text.take n ++ [0]) (by
    rw [List.length_append, List.length_take, List.length_singleton]
    omega)

/-- The text of `"%s (%u bytes)"`, where `%u` is assumed to print decimally. -/
def nameAndSize (name : List UInt8) (size : UInt32) : List UInt8 :=
  name ++ ascii " (".toList ++ decimal size.toNat ++ ascii " bytes)".toList

variable {n : Nat}

/-- A string stored at the start of a buffer is what the buffer holds. -/
theorem cString_blit {buf : CArray UInt8 n} {l : List UInt8} (hroom : 0 + (l ++ [0]).length ≤ n)
    (hzero : 0 ∉ l) : cString (buf.blit 0 (l ++ [0]) hroom) = l := by
  simp only [cString, CArray.toList_blit, blit, List.take_zero, List.nil_append, List.append_assoc,
    List.singleton_append]
  exact untilTerminator_append hzero

/-- A field that fits and contains no NUL is copied whole, whatever the buffer
held before. -/
theorem copy_field_cString (dst : CArray UInt8 (n + 1)) {mem l : List UInt8} {src : Ptr} {len : Nat}
    (hsrc : Denotes mem src len l) (hroom : l.length ≤ n) (hzero : 0 ∉ l) :
    cString (copy_field dst mem src len) = l := by
  have hk : (if len < n then len else n) = len := by
    have hlen := hsrc.length
    split <;> omega
  have hend : 0 + l.length = len := by rw [hsrc.length, Nat.zero_add]
  simp only [copy_field, cString, CArray.toList_blit, hk, hsrc.bytes]
  have hcleared : (blit dst.toList 0 (List.replicate (n + 1) 0)).length = n + 1 := by
    rw [blit_length (by simp), dst.length_toList]
  rw [← hend, blit_blit (by omega)]
  simp only [blit, List.take_zero, List.nil_append, List.append_assoc, List.singleton_append]
  exact untilTerminator_append hzero

/-- Digits that fit, with their terminator, are written and read back. -/
theorem format_hex_eq_some (bytes : List UInt8) (out : CArray UInt8 n) (hroom : 2 * bytes.length + 1 ≤ n) :
    ∃ filled, format_hex bytes out = some filled ∧ cString filled = hex bytes := by
  have hfit : ¬ n < 2 * bytes.length + 1 := by omega
  refine ⟨out.blit 0 (hex bytes ++ [0]) (by simpa using by omega), ?_, ?_⟩
  · rw [format_hex, dif_neg hfit]
  · exact cString_blit _ (zero_not_mem_hex bytes)

/-- A text that fits is read back as it was. -/
theorem snprintf_cString (out : CArray UInt8 (n + 1)) {text : List UInt8} (hroom : text.length ≤ n)
    (hzero : 0 ∉ text) : cString (snprintf out text) = text := by
  simp only [snprintf, List.take_of_length_le hroom]
  exact cString_blit (by simpa using by omega) hzero

/-- The line of the attachment has no terminator inside, if the name has none. -/
theorem zero_not_mem_nameAndSize {name : List UInt8} (hname : 0 ∉ name) (size : UInt32) :
    0 ∉ nameAndSize name size := by
  have hdigits : 0 ∉ decimal size.toNat := by
    intro hzero
    have hdigit := mem_decimal hzero
    exact absurd hdigit.1 (by decide)
  have hopen : 0 ∉ ascii " (".toList := by decide
  have hclose : 0 ∉ ascii " bytes)".toList := by decide
  simp only [nameAndSize, List.mem_append, hname, hopen, hdigits, hclose, or_self, not_false_eq_true]

/-- The line of the attachment is longer than the name by the size and its words, at most
nineteen bytes. -/
theorem nameAndSize_length_le (name : List UInt8) (size : UInt32) :
    (nameAndSize name size).length ≤ name.length + 19 := by
  have hdigits : (decimal size.toNat).length ≤ 10 :=
    decimal_length_le (by decide) (Nat.lt_trans size.toNat_lt (by decide))
  have hopen : (ascii " (".toList).length = 2 := rfl
  have hclose : (ascii " bytes)".toList).length = 7 := rfl
  simp only [nameAndSize, List.length_append, hopen, hclose]
  omega

/-- Name and size can be told apart in the combined text, even where a name itself
ends like a size. -/
theorem nameAndSize_injective {name name' : List UInt8} {size size' : UInt32}
    (h : nameAndSize name size = nameAndSize name' size') : name = name' ∧ size = size' := by
  have hparen : ∀ m : Nat, (0x28 : UInt8) ∉ decimal m := by
    intro m hmem
    exact absurd (mem_decimal hmem).1 (by decide)
  have hcut : (name ++ [0x20]) ++ 0x28 :: decimal size.toNat =
      (name' ++ [0x20]) ++ 0x28 :: decimal size'.toNat := by
    have hsuffix := List.append_cancel_right h
    simpa [ascii] using hsuffix
  obtain ⟨hname, hdigits⟩ := append_separator_inj (hparen _) (hparen _) hcut
  exact ⟨List.append_cancel_right hname, UInt32.toNat_inj.mp (decimal_injective hdigits)⟩

end hardmail
