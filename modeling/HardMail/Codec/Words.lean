import HardMail.Codec.Basic
import Mathlib.Data.List.Induction

namespace codec

/-- The `k` low-order bytes of a number, most significant first. -/
def beBytes : Nat → Nat → List UInt8
  | 0, _ => []
  | k + 1, n => beBytes k (n / 256) ++ [UInt8.ofNat n]

/-- The number a byte string denotes, most significant byte first. -/
def beValue (bytes : List UInt8) : Nat :=
  bytes.foldl (fun acc b => acc * 256 + b.toNat) 0

@[simp] theorem beBytes_length (k n : Nat) : (beBytes k n).length = k := by
  induction k generalizing n with
  | zero => rfl
  | succ k ih => simp [beBytes, ih]

@[simp] theorem beValue_concat (bytes : List UInt8) (b : UInt8) :
    beValue (bytes ++ [b]) = beValue bytes * 256 + b.toNat := by
  simp [beValue]

/-- The value of `k` bytes is below `256 ^ k`. -/
theorem beValue_lt (bytes : List UInt8) : beValue bytes < 256 ^ bytes.length := by
  induction bytes using List.reverseRecOn with
  | nil => simp [beValue]
  | append_singleton bytes b ih =>
    have hb := b.toNat_lt
    rw [beValue_concat, List.length_append, List.length_singleton, Nat.pow_succ]
    omega

/-- A number that fits its bytes is read back from them. -/
theorem beValue_beBytes {k n : Nat} (h : n < 256 ^ k) : beValue (beBytes k n) = n := by
  induction k generalizing n with
  | zero =>
    have hzero : n = 0 := by simpa using h
    subst hzero
    rfl
  | succ k ih =>
    have hdiv : n / 256 < 256 ^ k := by
      rw [Nat.pow_succ] at h
      omega
    rw [beBytes, beValue_concat, ih hdiv, UInt8.toNat_ofNat']
    omega

/-- Bytes are written back from their value. -/
theorem beBytes_beValue (bytes : List UInt8) : beBytes bytes.length (beValue bytes) = bytes := by
  induction bytes using List.reverseRecOn with
  | nil => rfl
  | append_singleton bytes b ih =>
    have hb := b.toNat_lt
    have hhigh : (beValue bytes * 256 + b.toNat) / 256 = beValue bytes := by omega
    have hlow : UInt8.ofNat (beValue bytes * 256 + b.toNat) = b := by
      apply UInt8.toNat_inj.mp
      rw [UInt8.toNat_ofNat']
      omega
    rw [beValue_concat, List.length_append, List.length_singleton, beBytes, hhigh, hlow, ih]

namespace Codec

variable {k : Nat}

/-- The equivalence between `k`-byte strings and the numbers below `256 ^ k`. -/
def blockEquivWord (k : Nat) : { l : List UInt8 // l.length = k } ≃ { n : Nat // n < 256 ^ k } where
  toFun l := ⟨beValue l.val, by simpa only [l.property] using beValue_lt l.val⟩
  invFun n := ⟨beBytes k n.val, beBytes_length k n.val⟩
  left_inv l := by
    obtain ⟨l, rfl⟩ := l
    exact Subtype.ext (beBytes_beValue l)
  right_inv n := Subtype.ext (beValue_beBytes n.property)

/-- A `k`-byte big-endian number. -/
def bigEndian (k : Nat) : Codec UInt8 { n : Nat // n < 256 ^ k } :=
  (block k).iso (blockEquivWord k)

@[simp] theorem bigEndian_encode (n : { n : Nat // n < 256 ^ k }) :
    (bigEndian k).encode n = beBytes k n.val := rfl

/-- A block read behind its own length is a byte string of bounded length. -/
def sizedEquivBytes (k : Nat) :
    (Σ n : { n : Nat // n < 256 ^ k }, { l : List UInt8 // l.length = n.val }) ≃
      { l : List UInt8 // l.length < 256 ^ k } where
  toFun v := ⟨v.2.val, by simpa only [v.2.property] using v.1.property⟩
  invFun l := ⟨⟨l.val.length, l.property⟩, ⟨l.val, rfl⟩⟩
  left_inv v := by
    obtain ⟨⟨n, hn⟩, l, hl⟩ := v
    obtain rfl : l.length = n := hl
    rfl
  right_inv _ := rfl

/-- A byte string behind its length as a `k`-byte big-endian number. -/
def counted (k : Nat) : Codec UInt8 { l : List UInt8 // l.length < 256 ^ k } :=
  ((bigEndian k).sigma fun n => block n.val).iso (sizedEquivBytes k)

/-- A length-prefixed byte string restricted by a predicate that bounds its
length. -/
def text (k : Nat) (p : List UInt8 → Prop) [DecidablePred p]
    (hp : ∀ l, p l → l.length < 256 ^ k) : Codec UInt8 { l : List UInt8 // p l } :=
  ((counted k).refine fun l => p l.val).iso
    { toFun := fun l => ⟨l.val.val, l.property⟩
      invFun := fun l => ⟨⟨l.val, hp l.val l.property⟩, l.property⟩
      left_inv := fun _ => rfl
      right_inv := fun _ => rfl }

@[simp] theorem text_encode {p : List UInt8 → Prop} [DecidablePred p]
    (hp : ∀ l, p l → l.length < 256 ^ k) (l : { l : List UInt8 // p l }) :
    (text k p hp).encode l = beBytes k l.val.length ++ l.val := rfl

/-- The text a length prefix counts off, put back behind its prefix. -/
theorem text_encode_take {p : List UInt8 → Prop} [DecidablePred p]
    (hp : ∀ l, p l → l.length < 256 ^ k) {head tail : List UInt8} (hhead : head.length = k)
    (hlen : beValue head ≤ tail.length) (hok : p (tail.take (beValue head))) :
    (text k p hp).encode ⟨tail.take (beValue head), hok⟩ ++ tail.drop (beValue head) =
      head ++ tail := by
  rw [text_encode, List.length_take, Nat.min_eq_left hlen, ← hhead, beBytes_beValue,
    List.append_assoc, List.take_append_drop]

/-- A byte string that starts with a length-prefixed text has enough bytes behind
the prefix, and those it counts satisfy the predicate. -/
theorem of_text_prefix {p : List UInt8 → Prop} [DecidablePred p]
    (hp : ∀ l, p l → l.length < 256 ^ k) {head tail rest : List UInt8} (hhead : head.length = k)
    {a : { l : List UInt8 // p l }} (heq : head ++ tail = (text k p hp).encode a ++ rest) :
    beValue head ≤ tail.length ∧ p (tail.take (beValue head)) := by
  obtain ⟨l, hl⟩ := a
  rw [text_encode, List.append_assoc] at heq
  obtain ⟨rfl, rfl⟩ := List.append_inj heq (by rw [hhead, beBytes_length])
  rw [beValue_beBytes (hp l hl), List.take_left]
  exact ⟨by simp, hl⟩

@[simp] theorem text_encode_length {p : List UInt8 → Prop} [DecidablePred p]
    (hp : ∀ l, p l → l.length < 256 ^ k) (l : { l : List UInt8 // p l }) :
    ((text k p hp).encode l).length = k + l.val.length := by
  rw [text_encode, List.length_append, beBytes_length]

end Codec

end codec
