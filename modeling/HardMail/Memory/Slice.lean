import Mathlib.Algebra.Order.Ring.Nat

namespace memory

variable {α : Type}

/-- The elements at positions `off` to `off + len - 1`, as far as they exist. -/
def slice (mem : List α) (off len : Nat) : List α := (mem.drop off).take len

/-- Overwrite the elements from position `off` on with those of `src`. -/
def blit (mem : List α) (off : Nat) (src : List α) : List α :=
  mem.take off ++ src ++ mem.drop (off + src.length)

/-- The elements read up to a first terminator. -/
def untilTerminator [DecidableEq α] (terminator : α) (mem : List α) : List α :=
  mem.takeWhile (· ≠ terminator)

/-- A slice is what lies at its offset. -/
theorem slice_eq_of_drop_eq {mem l rest : List α} {off : Nat} (h : mem.drop off = l ++ rest) :
    slice mem off l.length = l := by
  rw [slice, h, List.take_left]

/-- A slice found inside a prefix of the memory is a slice of the memory. -/
theorem slice_eq_of_drop_take_eq {mem l rest : List α} {off size : Nat}
    (h : (mem.take size).drop off = l ++ rest) : slice mem off l.length = l := by
  rw [List.drop_take] at h
  have hlen := congrArg List.length h
  simp only [List.length_take, List.length_append] at hlen
  have hprefix := congrArg (List.take l.length) h
  rw [List.take_left, List.take_take, Nat.min_eq_left (by omega)] at hprefix
  exact hprefix

/-- What is left behind a known prefix of what is at `off`. -/
theorem drop_of_drop_eq_append {mem l rest : List α} {off n : Nat} (h : mem.drop off = l ++ rest)
    (hn : n = off + l.length) : mem.drop n = rest := by
  rw [hn, ← List.drop_drop, h, List.drop_left]

theorem slice_length_le (mem : List α) (off len : Nat) : (slice mem off len).length ≤ len := by
  simp only [slice, List.length_take]
  omega

/-- A slice that lies in the memory has the length it is asked to have. -/
theorem slice_length {mem : List α} {off len : Nat} (h : off + len ≤ mem.length) :
    (slice mem off len).length = len := by
  simp only [slice, List.length_take, List.length_drop]
  omega

theorem slice_zero (mem : List α) (len : Nat) : slice mem 0 len = mem.take len := rfl

@[simp] theorem blit_nil (mem : List α) (off : Nat) : blit mem off [] = mem := by
  simp [blit]

/-- A copy that fits does not change the size of the memory. -/
theorem blit_length {mem : List α} {off : Nat} {src : List α}
    (h : off + src.length ≤ mem.length) : (blit mem off src).length = mem.length := by
  simp only [blit, List.length_append, List.length_take, List.length_drop]
  omega

/-- Overwriting twice in succession overwrites once with both sources. -/
theorem blit_blit {mem : List α} {off : Nat} {src next : List α}
    (h : off + src.length ≤ mem.length) :
    blit (blit mem off src) (off + src.length) next = blit mem off (src ++ next) := by
  have hhead : (mem.take off ++ src).length = off + src.length := by
    rw [List.length_append, List.length_take, Nat.min_eq_left (by omega)]
  simp only [blit]
  rw [← hhead, List.take_left, ← List.drop_drop, List.drop_left, List.drop_drop, hhead]
  simp only [List.append_assoc, List.length_append, Nat.add_assoc]

/-- Reading from the start to the end of an overwritten range returns what was
there before the range and then the source. -/
theorem take_blit (mem src : List α) {off : Nat} (h : off ≤ mem.length) :
    (blit mem off src).take (off + src.length) = mem.take off ++ src := by
  apply List.take_left'
  rw [List.length_append, List.length_take, Nat.min_eq_left h]

/-- What is copied to the start is read back from there. -/
theorem take_blit_zero (mem src : List α) : (blit mem 0 src).take src.length = src := by
  have htake := take_blit mem src (Nat.zero_le mem.length)
  rwa [Nat.zero_add, List.take_zero, List.nil_append] at htake

/-- Nothing after the overwritten range changes. -/
theorem drop_blit {mem : List α} {off : Nat} {src : List α} (h : off ≤ mem.length) :
    (blit mem off src).drop (off + src.length) = mem.drop (off + src.length) := by
  apply List.drop_left'
  rw [List.length_append, List.length_take, Nat.min_eq_left h]

/-- What is copied is read back from where it was copied to. -/
theorem slice_blit (mem src : List α) {off : Nat} (h : off ≤ mem.length) :
    slice (blit mem off src) off src.length = src := by
  have hhead : (mem.take off).length = off := by rw [List.length_take, Nat.min_eq_left h]
  have hdrop : (blit mem off src).drop off = src ++ mem.drop (off + src.length) := by
    rw [blit, List.append_assoc, List.drop_left' hhead]
  exact slice_eq_of_drop_eq hdrop

/-- Nothing before the overwritten range changes. -/
theorem slice_blit_before {mem : List α} {off len n : Nat} {src : List α} (h : off + len ≤ n)
    (hn : n ≤ mem.length) : slice (blit mem n src) off len = slice mem off len := by
  have hprefix : (blit mem n src).take n = mem.take n := by
    rw [blit, List.append_assoc, List.take_left']
    rw [List.length_take, Nat.min_eq_left hn]
  have htake := congrArg (fun l => (l.take (off + len)).drop off) hprefix
  simp only [List.take_take, Nat.min_eq_left h] at htake
  simpa only [slice, List.drop_take, Nat.add_sub_cancel_left] using htake

/-- Nothing behind the overwritten range changes. -/
theorem slice_blit_after {mem : List α} {off len n : Nat} {src : List α} (h : n + src.length ≤ off)
    (hn : n ≤ mem.length) : slice (blit mem n src) off len = slice mem off len := by
  obtain ⟨k, rfl⟩ := Nat.exists_eq_add_of_le h
  simp only [slice]
  rw [← List.drop_drop, drop_blit hn, List.drop_drop]

/-- A memory of `n` elements that begins with `l`, and has not been written behind it. -/
def padded (n : Nat) (filler : α) (l : List α) : List α := l ++ List.replicate (n - l.length) filler

theorem padded_nil (n : Nat) (filler : α) : padded n filler [] = List.replicate n filler := rfl

/-- The padding is behind the list. -/
theorem take_padded (n : Nat) (filler : α) (l : List α) : (padded n filler l).take l.length = l :=
  List.take_left

/-- Writing where the unwritten part begins appends. -/
theorem blit_padded (n : Nat) (filler : α) (l src : List α) :
    blit (padded n filler l) l.length src = padded n filler (l ++ src) := by
  have hrest : n - l.length - src.length = n - (l ++ src).length := by rw [List.length_append, Nat.sub_sub]
  rw [blit, padded, List.take_left, ← List.drop_drop, List.drop_left, List.drop_replicate, hrest, padded]

/-- Writing over the start replaces it. -/
theorem blit_padded_zero (n : Nat) (filler : α) {old new rest : List α} (h : old.length = new.length) :
    blit (padded n filler (old ++ rest)) 0 new = padded n filler (new ++ rest) := by
  have hlen : (old ++ rest).length = (new ++ rest).length := by rw [List.length_append, List.length_append, h]
  rw [blit, padded, List.take_zero, List.nil_append, Nat.zero_add, ← h, List.append_assoc, List.drop_left, padded,
    hlen, List.append_assoc]

/-- A terminated string is read back whole, whatever follows the terminator. -/
theorem untilTerminator_append [DecidableEq α] {terminator : α} {l rest : List α}
    (h : terminator ∉ l) : untilTerminator terminator (l ++ terminator :: rest) = l := by
  rw [untilTerminator, List.takeWhile_append_of_pos]
  · simp
  · intro a ha
    simpa using fun heq : a = terminator => h (heq ▸ ha)

/-- A string that ends within its memory leaves room for its terminator. -/
theorem untilTerminator_length_lt [DecidableEq α] {terminator : α} {mem : List α} (h : terminator ∈ mem) :
    (untilTerminator terminator mem).length < mem.length := by
  induction mem with
  | nil => cases h
  | cons a mem ih =>
    by_cases ha : a = terminator
    · simp [untilTerminator, ha]
    · have hrest := ih ((List.mem_cons.mp h).resolve_left (Ne.symm ha))
      simpa [untilTerminator, ha] using hrest

/-- An array of fixed length. -/
structure CArray (α : Type) (n : Nat) where
  toList : List α
  length_toList : toList.length = n

namespace CArray

variable {n : Nat}

attribute [simp] length_toList

/-- Arrays with the same elements are the same. -/
@[ext] theorem ext {a b : CArray α n} (h : a.toList = b.toList) : a = b := by
  cases a
  cases b
  cases h
  rfl

instance [DecidableEq α] : DecidableEq (CArray α n) := fun a b =>
  decidable_of_iff (a.toList = b.toList) ⟨CArray.ext, fun h => by rw [h]⟩

/-- The array filled with one element, as `explicit_bzero` leaves it. -/
def fill (n : Nat) (a : α) : CArray α n := ⟨List.replicate n a, List.length_replicate⟩

/-- Overwrite a range that lies inside the array. -/
def blit (a : CArray α n) (off : Nat) (src : List α) (h : off + src.length ≤ n) : CArray α n :=
  ⟨memory.blit a.toList off src, by rw [memory.blit_length (by simpa using h), a.length_toList]⟩

@[simp] theorem toList_blit (a : CArray α n) (off : Nat) (src : List α)
    (h : off + src.length ≤ n) : (a.blit off src h).toList = memory.blit a.toList off src := rfl

/-- The part of an array from `off` on, as an array of its own. -/
def sub (a : CArray α n) (off len : Nat) (h : off + len ≤ n) : CArray α len :=
  ⟨slice a.toList off len, slice_length (by simpa using h)⟩

end CArray

end memory
