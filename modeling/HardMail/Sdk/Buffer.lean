import HardMail.Types
import HardMail.Codec.Words

open memory codec

namespace hardmail

/-- `buffer_t`: a read cursor over the first `size` bytes behind `ptr`. The buffer and its
functions are the SDK's. What stands here is all that is assumed of them: they read
big-endian numbers at the cursor, and fail without moving when too few bytes are left. -/
structure Buffer where
  ptr : List UInt8
  size : Nat
  offset : Nat
  deriving DecidableEq, Repr

namespace Buffer

/-- A buffer over a whole byte string, at its start. -/
def ofBytes (bytes : List UInt8) : Buffer := ⟨bytes, bytes.length, 0⟩

/-- The cursor is inside the buffer, and the buffer inside its memory. -/
structure Valid (buf : Buffer) : Prop where
  offset_le : buf.offset ≤ buf.size
  size_le : buf.size ≤ buf.ptr.length

/-- The bytes of the buffer not yet consumed. -/
def rest (buf : Buffer) : List UInt8 := (buf.ptr.take buf.size).drop buf.offset

def advance (buf : Buffer) (n : Nat) : Buffer := { buf with offset := buf.offset + n }

@[simp] theorem advance_ptr (buf : Buffer) (n : Nat) : (buf.advance n).ptr = buf.ptr := rfl
@[simp] theorem advance_size (buf : Buffer) (n : Nat) : (buf.advance n).size = buf.size := rfl
@[simp] theorem advance_offset (buf : Buffer) (n : Nat) :
    (buf.advance n).offset = buf.offset + n := rfl

@[simp] theorem advance_advance (buf : Buffer) (n k : Nat) :
    (buf.advance n).advance k = buf.advance (n + k) := by
  simp [advance, Nat.add_assoc]

/-- A byte string is a buffer of its own length. -/
theorem ofBytes_valid (bytes : List UInt8) : (ofBytes bytes).Valid :=
  ⟨Nat.zero_le _, Nat.le_refl _⟩

@[simp] theorem ofBytes_rest (bytes : List UInt8) : (ofBytes bytes).rest = bytes := by
  simp [ofBytes, rest]

/-- The bytes not yet consumed are those between the cursor and the size. -/
theorem Valid.rest_length {buf : Buffer} (hvalid : buf.Valid) :
    buf.rest.length = buf.size - buf.offset := by
  have hsize := hvalid.size_le
  simp only [rest, List.length_drop, List.length_take]
  omega

/-- Consuming a known prefix of the unread bytes leaves the bytes after it. -/
theorem Valid.advance {buf : Buffer} (hvalid : buf.Valid) {l tail : List UInt8}
    (hrest : buf.rest = l ++ tail) :
    (buf.advance l.length).Valid ∧ (buf.advance l.length).rest = tail := by
  have hlen := hvalid.rest_length
  have hoffset := hvalid.offset_le
  rw [hrest, List.length_append] at hlen
  refine ⟨⟨?_, hvalid.size_le⟩, ?_⟩
  · simp only [advance_offset, advance_size]
    omega
  · have hdrop := congrArg (List.drop l.length) hrest
    rw [rest, List.drop_drop, List.drop_left] at hdrop
    exact hdrop

/-- The unread bytes that start with `l` put `l` in memory at the cursor. -/
theorem slice_eq_of_rest_eq {buf : Buffer} {l tail : List UInt8}
    (hrest : buf.rest = l ++ tail) : slice buf.ptr buf.offset l.length = l :=
  slice_eq_of_drop_take_eq hrest

end Buffer

/-- Assumed of the SDK: moves the cursor forward, or fails without moving. -/
def buffer_seek_cur (buf : Buffer) (n : Nat) : Option Buffer :=
  if buf.offset + n ≤ buf.size then some (buf.advance n) else none

/-- Assumed of the SDK's reads: the `k`-byte big-endian number at the cursor, or a failure
without moving. -/
def buffer_read_be (buf : Buffer) (k : Nat) : Option (Nat × Buffer) :=
  if buf.offset + k ≤ buf.size then some (beValue (slice buf.ptr buf.offset k), buf.advance k)
  else none

def buffer_read_u8 (buf : Buffer) : Option (UInt8 × Buffer) :=
  (buffer_read_be buf 1).map fun (v, buf) => (UInt8.ofNat v, buf)

/-- `buffer_read_u16` with the endianness `BE`, the only one used. -/
def buffer_read_u16 (buf : Buffer) : Option (UInt16 × Buffer) :=
  (buffer_read_be buf 2).map fun (v, buf) => (UInt16.ofNat v, buf)

/-- `buffer_read_u32` with the endianness `BE`, the only one used. -/
def buffer_read_u32 (buf : Buffer) : Option (UInt32 × Buffer) :=
  (buffer_read_be buf 4).map fun (v, buf) => (UInt32.ofNat v, buf)

/-- Assumed of the SDK: reads `out_len` big-endian words. Refuses a length of zero or above
`MAX_BIP32_PATH`, and a buffer with too few bytes. -/
def buffer_read_bip32_path (buf : Buffer) (out_len : Nat) :
    Option ({ words : List UInt32 // words.length ≤ MAX_BIP32_PATH } × Buffer) :=
  if h : out_len = 0 ∨ out_len > MAX_BIP32_PATH then none
  else if buf.offset + 4 * out_len ≤ buf.size then
    some (⟨(List.range out_len).map fun i =>
        UInt32.ofNat (beValue (slice buf.ptr (buf.offset + 4 * i) 4)), by simp; omega⟩,
      buf.advance (4 * out_len))
  else none

/-- Assumed of the SDK: moves the unread bytes out, if they fit in `out_len` bytes. -/
def buffer_move (buf : Buffer) (out_len : Nat) :
    Option ({ bytes : List UInt8 // bytes.length ≤ out_len } × Buffer) :=
  if h : buf.size - buf.offset ≤ out_len then
    some (⟨slice buf.ptr buf.offset (buf.size - buf.offset), Nat.le_trans (slice_length_le _ _ _) h⟩,
      buf.advance (buf.size - buf.offset))
  else none

/-- A big-endian read succeeds exactly when the unread bytes start with a
number of that width, and returns that number. -/
theorem buffer_read_be_eq_some_iff {buf : Buffer} (hvalid : buf.Valid) {k v : Nat}
    {next : Buffer} :
    buffer_read_be buf k = some (v, next) ↔
      ∃ l tail, l.length = k ∧ buf.rest = l ++ tail ∧ v = beValue l ∧ next = buf.advance k := by
  have hlen := hvalid.rest_length
  have hoffset := hvalid.offset_le
  constructor
  · intro h
    unfold buffer_read_be at h
    split at h
    · rename_i hfit
      cases h
      have hsplit := (List.take_append_drop k buf.rest).symm
      have hk : (buf.rest.take k).length = k := by
        rw [List.length_take]
        omega
      have hslice := Buffer.slice_eq_of_rest_eq hsplit
      rw [hk] at hslice
      exact ⟨buf.rest.take k, buf.rest.drop k, hk, hsplit, by rw [hslice], rfl⟩
    · cases h
  · rintro ⟨l, tail, rfl, hrest, rfl, rfl⟩
    have hfit : buf.offset + l.length ≤ buf.size := by
      rw [hrest, List.length_append] at hlen
      omega
    rw [buffer_read_be, if_pos hfit, Buffer.slice_eq_of_rest_eq hrest]

/-- A number read in front of `tail` is the value of the bytes before it. -/
theorem buffer_read_be_of_rest {buf : Buffer} (hvalid : buf.Valid) {head tail : List UInt8}
    (hrest : buf.rest = head ++ tail) :
    buffer_read_be buf head.length = some (beValue head, buf.advance head.length) :=
  (buffer_read_be_eq_some_iff hvalid).mpr ⟨head, tail, rfl, hrest, rfl, rfl⟩

/-- A read in front of too few bytes fails. -/
theorem buffer_read_be_of_short {buf : Buffer} (hvalid : buf.Valid) {k : Nat}
    (hshort : buf.rest.length < k) : buffer_read_be buf k = none := by
  cases hread : buffer_read_be buf k with
  | none => rfl
  | some result =>
    obtain ⟨v, next⟩ := result
    obtain ⟨l, tail, hlen, hrest, -, -⟩ := (buffer_read_be_eq_some_iff hvalid).mp hread
    rw [hrest, List.length_append] at hshort
    omega

/-- A byte is read from in front of the tail. -/
theorem buffer_read_u8_of_rest {buf : Buffer} (hvalid : buf.Valid) {b : UInt8} {tail : List UInt8}
    (hrest : buf.rest = [b] ++ tail) : buffer_read_u8 buf = some (b, buf.advance 1) := by
  have hread := buffer_read_be_of_rest hvalid hrest
  rw [List.length_singleton] at hread
  simp [buffer_read_u8, hread, beValue]

/-- Two bytes are read as a big-endian number. -/
theorem buffer_read_u16_of_rest {buf : Buffer} (hvalid : buf.Valid) {head tail : List UInt8}
    (hhead : head.length = 2) (hrest : buf.rest = head ++ tail) :
    buffer_read_u16 buf = some (UInt16.ofNat (beValue head), buf.advance 2) := by
  have hread := buffer_read_be_of_rest hvalid hrest
  rw [hhead] at hread
  simp [buffer_read_u16, hread]

/-- Four bytes are read as a big-endian number. -/
theorem buffer_read_u32_of_rest {buf : Buffer} (hvalid : buf.Valid) {head tail : List UInt8}
    (hhead : head.length = 4) (hrest : buf.rest = head ++ tail) :
    buffer_read_u32 buf = some (UInt32.ofNat (beValue head), buf.advance 4) := by
  have hread := buffer_read_be_of_rest hvalid hrest
  rw [hhead] at hread
  simp [buffer_read_u32, hread]

/-- A seek succeeds exactly when that many bytes are left. -/
theorem buffer_seek_cur_of_valid {buf : Buffer} (hvalid : buf.Valid) (n : Nat) :
    buffer_seek_cur buf n = if n ≤ buf.rest.length then some (buf.advance n) else none := by
  have hlen := hvalid.rest_length
  have hoffset := hvalid.offset_le
  unfold buffer_seek_cur
  by_cases hfit : n ≤ buf.rest.length
  · rw [if_pos hfit, if_pos (by omega)]
  · rw [if_neg hfit, if_neg (by omega)]

end hardmail
