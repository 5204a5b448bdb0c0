import HardMail.Transaction.Represents
import HardMail.Transaction.Serialize

open memory codec

namespace hardmail.serialize

/-- The writer has stored exactly `bytes`, from the start of `out` on. -/
structure Wrote (out bytes : List UInt8) (w : Writer) : Prop where
  out_eq : w.out = blit out 0 bytes
  offset_eq : w.offset = bytes.length
  written_lt : ∀ i ∈ w.written, i < bytes.length

/-- At the start nothing is written. -/
theorem Wrote.start (out : List UInt8) : Wrote out [] ⟨out, 0, []⟩ :=
  ⟨by simp, rfl, by simp⟩

/-- A store in the room that is left extends what has been stored. -/
theorem Wrote.memmove {out bytes src : List UInt8} {w : Writer} {len : Nat} (h : Wrote out bytes w)
    (hlen : src.length = len) (hroom : bytes.length ≤ out.length) :
    Wrote out (bytes ++ src) (w.memmove src len) := by
  have hend : (bytes ++ src).length = bytes.length + len := by rw [List.length_append, hlen]
  refine ⟨?_, ?_, ?_⟩
  · have hblit : blit (blit out 0 bytes) (0 + bytes.length) src = blit out 0 (bytes ++ src) :=
      blit_blit (by omega)
    rw [Nat.zero_add] at hblit
    simp only [Writer.memmove, h.out_eq, h.offset_eq]
    exact hblit
  · simp only [Writer.memmove, h.offset_eq, hend]
  · intro i hi
    rw [hend]
    simp only [Writer.memmove, List.mem_append, List.mem_map, List.mem_range, h.offset_eq] at hi
    obtain ⟨k, hk, rfl⟩ | hold := hi
    · omega
    · have hlt := h.written_lt i hold
      omega

/-- A byte that is stored is written behind the others, as long as there is room. -/
theorem Wrote.store {out bytes : List UInt8} {w : Writer} (h : Wrote out bytes w) (b : UInt8)
    (hroom : bytes.length ≤ out.length) : Wrote out (bytes ++ [b]) (w.store b) :=
  h.memmove rfl hroom

/-- A slice behind its length as a `k`-byte number. -/
def sized (k : Nat) (mem : List UInt8) (p : Ptr) (len : Nat) : List UInt8 :=
  beBytes k len ++ deref mem p len

/-- A field is written as its length byte and its bytes. -/
theorem Wrote.field {out bytes mem : List UInt8} {w : Writer} {p : Ptr} {len : UInt8}
    (h : Wrote out bytes w) (hlen : (deref mem p len.toNat).length = len.toNat)
    (hroom : bytes.length + 1 ≤ out.length) :
    Wrote out (bytes ++ sized 1 mem p len.toNat) (w.field mem p len) := by
  have hprefix : [len] = beBytes 1 len.toNat := by simp [beBytes]
  have hstore := h.store len (by omega)
  have hmove := hstore.memmove hlen (by simpa using hroom)
  rwa [List.append_assoc, hprefix] at hmove

/-- The two shifted bytes of a length are its big-endian bytes. -/
theorem halves_eq_beBytes (n : UInt16) :
    [(n >>> 8).toUInt8] ++ [(n &&& 0xff).toUInt8] = beBytes 2 n.toNat := by
  have hhigh : (n >>> 8).toUInt8 = UInt8.ofNat (n.toNat / 256) := by
    apply UInt8.toNat_inj.mp
    simp [Nat.shiftRight_eq_div_pow]
  have hmask : (0xff : UInt16).toNat = 2 ^ 8 - 1 := rfl
  have hlow : (n &&& 0xff).toUInt8 = UInt8.ofNat n.toNat := by
    apply UInt8.toNat_inj.mp
    rw [UInt16.toNat_toUInt8, UInt16.toNat_and, UInt8.toNat_ofNat', hmask, Nat.and_two_pow_sub_one_eq_mod]
    omega
  rw [hhigh, hlow]
  rfl

/-- The four shifted bytes of a size are its big-endian bytes. -/
theorem quarters_eq_beBytes (n : UInt32) :
    [(n >>> 24).toUInt8] ++ [(n >>> 16).toUInt8] ++ [(n >>> 8).toUInt8] ++ [n.toUInt8] =
      beBytes 4 n.toNat := by
  have h24 : (n >>> 24).toUInt8 = UInt8.ofNat (n.toNat / 256 / 256 / 256) := by
    apply UInt8.toNat_inj.mp
    simp [Nat.shiftRight_eq_div_pow, Nat.div_div_eq_div_mul]
  have h16 : (n >>> 16).toUInt8 = UInt8.ofNat (n.toNat / 256 / 256) := by
    apply UInt8.toNat_inj.mp
    simp [Nat.shiftRight_eq_div_pow, Nat.div_div_eq_div_mul]
  have h8 : (n >>> 8).toUInt8 = UInt8.ofNat (n.toNat / 256) := by
    apply UInt8.toNat_inj.mp
    simp [Nat.shiftRight_eq_div_pow]
  rw [h24, h16, h8]
  rfl

/-- Every pointer the serializer follows has its stated number of bytes behind it. -/
structure Sliced (mem : List UInt8) (tx : Transaction) : Prop where
  challenge : (deref mem tx.challenge CHALLENGE_LEN).length = CHALLENGE_LEN
  from_ : (deref mem tx.from_ tx.from_len.toNat).length = tx.from_len.toNat
  to_ : (deref mem tx.to_ tx.to_len.toNat).length = tx.to_len.toNat
  subject : (deref mem tx.subject tx.subject_len.toNat).length = tx.subject_len.toNat
  body : (deref mem tx.body tx.body_len.toNat).length = tx.body_len.toNat
  att_name : tx.has_attachment ≠ 0 →
    (deref mem tx.att_name tx.att_name_len.toNat).length = tx.att_name_len.toNat
  att_hash : tx.has_attachment ≠ 0 → (deref mem tx.att_hash ATT_HASH_LEN).length = ATT_HASH_LEN

/-- The encoding up to the body. -/
def encodedFields (mem : List UInt8) (tx : Transaction) : List UInt8 :=
  deref mem tx.challenge CHALLENGE_LEN ++ sized 1 mem tx.from_ tx.from_len.toNat ++
    sized 1 mem tx.to_ tx.to_len.toNat ++ sized 1 mem tx.subject tx.subject_len.toNat ++
    sized 2 mem tx.body tx.body_len.toNat

/-- The encoding from the attachment count on. -/
def encodedAttachment (mem : List UInt8) (tx : Transaction) : List UInt8 :=
  if tx.has_attachment ≠ 0 then
    [1] ++ sized 1 mem tx.att_name tx.att_name_len.toNat ++
      (beBytes 4 tx.att_size.toNat ++ deref mem tx.att_hash ATT_HASH_LEN)
  else [0]

def encoding (mem : List UInt8) (tx : Transaction) : List UInt8 :=
  encodedFields mem tx ++ encodedAttachment mem tx

variable {mem out : List UInt8} {tx : Transaction} {out_len : Nat}

/-- The first room check asks for exactly the bytes of the fields before the attachment. -/
theorem encodedFields_length (h : Sliced mem tx) : (encodedFields mem tx).length = need tx := by
  simp only [encodedFields, sized, List.length_append, beBytes_length, h.challenge, h.from_, h.to_,
    h.subject, h.body, need]
  omega

/-- A sized slice takes its length bytes and its bytes. -/
theorem sized_length {k len : Nat} {p : Ptr} (hlen : (deref mem p len).length = len) :
    (sized k mem p len).length = k + len := by
  rw [sized, List.length_append, beBytes_length, hlen]

/-- The fields before the attachment are written in order. -/
theorem writeFields_wrote (h : Sliced mem tx) (hroom : need tx ≤ out.length) :
    Wrote out (encodedFields mem tx) (writeFields mem tx ⟨out, 0, []⟩) := by
  have hfrom := sized_length (k := 1) h.from_
  have hto := sized_length (k := 1) h.to_
  have hsubject := sized_length (k := 1) h.subject
  have hchallenge := h.challenge
  simp only [need] at hroom
  have h₁ := (Wrote.start out).memmove hchallenge (Nat.zero_le _)
  rw [List.nil_append] at h₁
  have h₂ := h₁.field h.from_ (by omega)
  have h₃ := h₂.field h.to_ (by rw [List.length_append]; omega)
  have h₄ := h₃.field h.subject (by simp only [List.length_append]; omega)
  have h₅ := h₄.store (tx.body_len >>> 8).toUInt8 (by simp only [List.length_append]; omega)
  have h₆ := h₅.store (tx.body_len &&& 0xff).toUInt8
    (by simp only [List.length_append, List.length_singleton]; omega)
  have h₇ := h₆.memmove h.body (by simp only [List.length_append, List.length_singleton]; omega)
  rw [List.append_assoc _ [_] [_], halves_eq_beBytes, List.append_assoc _ (beBytes 2 _)] at h₇
  exact h₇

/-- The attachment is written behind them, when the second room check has passed. -/
theorem writeAttachment_wrote {bytes : List UInt8} {w : Writer} (hw : Wrote out bytes w)
    (hname : (deref mem tx.att_name tx.att_name_len.toNat).length = tx.att_name_len.toNat)
    (hhash : (deref mem tx.att_hash ATT_HASH_LEN).length = ATT_HASH_LEN)
    (hroom : bytes.length + 1 + 1 + tx.att_name_len.toNat + 4 + ATT_HASH_LEN ≤ out.length) :
    Wrote out (bytes ++ ([1] ++ sized 1 mem tx.att_name tx.att_name_len.toNat ++
      (beBytes 4 tx.att_size.toNat ++ deref mem tx.att_hash ATT_HASH_LEN))) (writeAttachment mem tx w) := by
  have hlen := sized_length (k := 1) hname
  have h₁ := hw.store 1 (by omega)
  have h₂ := h₁.field hname (by rw [List.length_append, List.length_singleton]; omega)
  have h₃ := h₂.store (tx.att_size >>> 24).toUInt8
    (by simp only [List.length_append, List.length_singleton]; omega)
  have h₄ := h₃.store (tx.att_size >>> 16).toUInt8
    (by simp only [List.length_append, List.length_singleton]; omega)
  have h₅ := h₄.store (tx.att_size >>> 8).toUInt8
    (by simp only [List.length_append, List.length_singleton]; omega)
  have h₆ := h₅.store tx.att_size.toUInt8
    (by simp only [List.length_append, List.length_singleton]; omega)
  have h₇ := h₆.memmove hhash (by simp only [List.length_append, List.length_singleton]; omega)
  have hbytes := quarters_eq_beBytes tx.att_size
  simp only [List.append_assoc] at h₇ hbytes ⊢
  rw [← hbytes]
  simp only [List.append_assoc]
  exact h₇

/-- The serializer fails exactly when the whole encoding does not fit, and
otherwise leaves exactly the encoding at the start of the output. -/
theorem transaction_serialize_cases (h : Sliced mem tx) (hout : out_len ≤ out.length) :
    (out_len < (encoding mem tx).length ∧ ∃ bytes w, bytes.length ≤ out_len ∧ Wrote out bytes w ∧
      transaction_serialize mem tx out out_len = (-1, w)) ∨
    ((encoding mem tx).length ≤ out_len ∧ ∃ w, Wrote out (encoding mem tx) w ∧
      transaction_serialize mem tx out out_len = (((encoding mem tx).length : Int), w)) := by
  have hfields := encodedFields_length h
  have hencoding : (encoding mem tx).length = need tx + (encodedAttachment mem tx).length := by
    rw [encoding, List.length_append, hfields]
  by_cases hneed : need tx > out_len
  · left
    refine ⟨by omega, [], ⟨out, 0, []⟩, Nat.zero_le _, Wrote.start out, ?_⟩
    simp only [transaction_serialize, if_pos hneed]
  have hw := writeFields_wrote h (Nat.le_trans (Nat.not_lt.mp hneed) hout)
  have hoffset := hw.offset_eq
  rw [hfields] at hoffset
  simp only [transaction_serialize, if_neg hneed]
  by_cases hatt : tx.has_attachment ≠ 0
  · have hname := h.att_name hatt
    have hhash := h.att_hash hatt
    have htail : (encodedAttachment mem tx).length = 1 + 1 + tx.att_name_len.toNat + 4 + ATT_HASH_LEN := by
      simp only [encodedAttachment, if_pos hatt, List.length_append, List.length_singleton,
        sized_length hname, beBytes_length, hhash]
      omega
    simp only [if_pos hatt, hoffset]
    by_cases hfit : need tx + 1 + 1 + tx.att_name_len.toNat + 4 + ATT_HASH_LEN > out_len
    · left
      refine ⟨by omega, encodedFields mem tx, _, by omega, hw, ?_⟩
      rw [if_pos hfit]
    · right
      have hwhole := writeAttachment_wrote hw hname hhash (by omega)
      have hencoded : encoding mem tx = encodedFields mem tx ++ ([1] ++ sized 1 mem tx.att_name
          tx.att_name_len.toNat ++ (beBytes 4 tx.att_size.toNat ++ deref mem tx.att_hash ATT_HASH_LEN)) := by
        rw [encoding, encodedAttachment, if_pos hatt]
      rw [← hencoded] at hwhole
      refine ⟨by omega, _, hwhole, ?_⟩
      rw [if_neg hfit, hwhole.offset_eq]
  · have htail : encodedAttachment mem tx = [0] := by
      rw [encodedAttachment, if_neg hatt]
    rw [htail, List.length_singleton] at hencoding
    simp only [if_neg hatt, hoffset]
    by_cases hfit : need tx + 1 > out_len
    · left
      refine ⟨by omega, encodedFields mem tx, _, by omega, hw, ?_⟩
      rw [if_pos hfit]
    · right
      have hwhole := hw.store 0 (by omega)
      rw [← htail] at hwhole
      refine ⟨by omega, _, hwhole, ?_⟩
      rw [if_neg hfit, hwhole.offset_eq]
      rfl

/-- The length of the whole encoding, with the attachment count and the attachment. -/
def encodedLength (tx : Transaction) : Nat :=
  CHALLENGE_LEN + (1 + tx.from_len.toNat) + (1 + tx.to_len.toNat) + (1 + tx.subject_len.toNat) +
    (2 + tx.body_len.toNat) +
    if tx.has_attachment ≠ 0 then 1 + (1 + tx.att_name_len.toNat) + 4 + ATT_HASH_LEN else 1

/-- The encoding is as long as the function returns. -/
theorem encoding_length (h : Sliced mem tx) : (encoding mem tx).length = encodedLength tx := by
  have hfields := encodedFields_length h
  rw [need] at hfields
  rw [encoding, List.length_append, hfields, encodedLength, encodedAttachment]
  split
  · rename_i hatt
    simp only [List.length_append, List.length_singleton, sized_length (h.att_name hatt), beBytes_length,
      h.att_hash hatt]
    omega
  · rw [List.length_singleton]
    omega

/-- Nothing behind the bytes stored has changed. -/
theorem Wrote.drop {bytes : List UInt8} {w : Writer} (h : Wrote out bytes w) {n : Nat}
    (hn : bytes.length ≤ n) : w.out.drop n = out.drop n := by
  obtain ⟨k, rfl⟩ := Nat.exists_eq_add_of_le hn
  have hdrop : (blit out 0 bytes).drop (0 + bytes.length) = out.drop (0 + bytes.length) :=
    drop_blit (Nat.zero_le out.length)
  rw [Nat.zero_add] at hdrop
  rw [h.out_eq, ← List.drop_drop, hdrop, List.drop_drop]

/-- A result of the serializer that stays inside an output of `out_len` bytes, fails
exactly when the `n` bytes of the encoding do not fit, and otherwise is their number. -/
structure InBounds (out : List UInt8) (out_len n : Nat) (result : Int × Writer) : Prop where
  written_lt : ∀ i ∈ result.2.written, i < out_len
  drop_out_len_eq : result.2.out.drop out_len = out.drop out_len
  fails_iff : result.1 = -1 ↔ out_len < n
  eq_length : result.1 ≠ -1 → result.1 = n
  drop_length_eq : result.1 ≠ -1 → result.2.out.drop n = out.drop n

/-- The serializer respects its output, whatever the lengths of the fields and
wherever `out_len` falls between its two size checks. -/
theorem transaction_serialize_in_bounds (h : Sliced mem tx) (hout : out_len ≤ out.length) :
    InBounds out out_len (encodedLength tx) (transaction_serialize mem tx out out_len) := by
  have hlength := encoding_length h
  obtain ⟨hshort, bytes, w, hroom, hw, hresult⟩ | ⟨hfit, w, hw, hresult⟩ :=
    transaction_serialize_cases h hout
  · rw [hlength] at hshort
    rw [hresult]
    refine ⟨?_, hw.drop hroom, iff_of_true rfl hshort, ?_, ?_⟩
    · intro i hi
      exact Nat.lt_of_lt_of_le (hw.written_lt i hi) hroom
    · intro hsuccess
      exact absurd rfl hsuccess
    · intro hsuccess
      exact absurd rfl hsuccess
  · have hend := hw.drop (Nat.le_refl _)
    have hlast := hw.drop hfit
    rw [hlength] at hfit hend hresult
    rw [hresult]
    refine ⟨?_, hlast, iff_of_false ?_ (Nat.not_lt.mpr hfit), fun _ => rfl, fun _ => hend⟩
    · intro i hi
      have hlt := hw.written_lt i hi
      omega
    · dsimp only
      omega

/-- A structure with empty fields, whose encoding has 22 bytes. -/
def emptyFields : Transaction := { Transaction.zero with challenge := some 0 }

/-- An output of 21 bytes passes the first size check and fails the second. -/
theorem emptyFields_in_bounds :
    InBounds (List.replicate 30 0xff) 21 (encodedLength emptyFields)
      (transaction_serialize (List.replicate 16 7) emptyFields (List.replicate 30 0xff) 21) :=
  transaction_serialize_in_bounds
    ⟨by decide, by decide, by decide, by decide, by decide, by decide, by decide⟩ (by decide)

/-- The bytes a serializer has left in `out`, and the rest of it. -/
theorem Wrote.take {bytes : List UInt8} {w : Writer} (h : Wrote out bytes w) :
    w.out.take bytes.length = bytes := by
  rw [h.out_eq, take_blit_zero]

end hardmail.serialize

namespace hardmail.Transaction.Represents

open serialize

variable {mem : List UInt8} {tx : Transaction} {e : Email}

/-- A structure that represents an email points at slices of the stored lengths. -/
theorem sliced (h : tx.Represents mem e) : Sliced mem tx := by
  obtain ⟨hchallenge, hfrom, hto, hsubject, hbody, hatt⟩ := h
  refine ⟨?_, ?_, ?_, ?_, ?_, ?_, ?_⟩
  · rw [hchallenge.bytes, ← hchallenge.length]
  · rw [hfrom.bytes, ← hfrom.length]
  · rw [hto.bytes, ← hto.length]
  · rw [hsubject.bytes, ← hsubject.length]
  · rw [hbody.bytes, ← hbody.length]
  all_goals
    intro hflag
    cases hcase : e.attachment with
    | none =>
      rw [hcase] at hatt
      exact absurd hatt.1 hflag
    | some att =>
      rw [hcase] at hatt
      obtain ⟨-, hname, -, hhash⟩ := hatt
      first
      | rw [hname.bytes, ← hname.length]
      | rw [hhash.bytes, ← hhash.length]

/-- Encoding a structure gives the payload of the email it represents. -/
theorem encoding_eq_wire (h : tx.Represents mem e) : encoding mem tx = e.wire := by
  obtain ⟨hchallenge, hfrom, hto, hsubject, hbody, hatt⟩ := h
  rw [encoding, encodedFields, sized, sized, sized, sized, hchallenge.bytes, hfrom.bytes, hto.bytes,
    hsubject.bytes, hbody.bytes, hfrom.length, hto.length, hsubject.length, hbody.length, Email.wire]
  congr 1
  cases hcase : e.attachment with
  | none =>
    rw [hcase] at hatt
    rw [encodedAttachment, hatt.1]
    rfl
  | some att =>
    rw [hcase] at hatt
    obtain ⟨hflag, hname, hsize, hhash⟩ := hatt
    rw [encodedAttachment, hflag, sized, hname.bytes, hname.length, hsize, hhash.bytes]
    rfl

end hardmail.Transaction.Represents
