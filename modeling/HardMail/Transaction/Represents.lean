import HardMail.Transaction.Grammar

open memory codec

namespace hardmail

/-- A pointer and a length that denote the bytes `l` of the memory. -/
structure Denotes (mem : List UInt8) (p : Ptr) (len : Nat) (l : List UInt8) : Prop where
  length : len = l.length
  bytes : deref mem p len = l

/-- A slice denotes the bytes that lie at its offset. -/
theorem Denotes.of_drop {mem l rest : List UInt8} {n len : Nat} (h : mem.drop n = l ++ rest)
    (hlen : len = l.length) : Denotes mem (some n) len l := by
  refine ⟨hlen, ?_⟩
  rw [hlen]
  exact slice_eq_of_drop_eq h

/-- The attachment part of a structure over a payload in memory. Without an
attachment every field of it is cleared. -/
def Transaction.RepresentsAttachment (mem : List UInt8) (tx : Transaction) : Option Attachment → Prop
  | none =>
    tx.has_attachment = 0 ∧ tx.att_name = none ∧ tx.att_name_len = 0 ∧ tx.att_size = 0 ∧
      tx.att_hash = none
  | some att =>
    tx.has_attachment = 1 ∧ Denotes mem tx.att_name tx.att_name_len.toNat att.name.val ∧
      tx.att_size = att.size ∧ Denotes mem tx.att_hash ATT_HASH_LEN att.hash.val

/-- The structure holds exactly the field values of an email, its pointers read
in the given memory. -/
structure Transaction.Represents (mem : List UInt8) (tx : Transaction) (e : Email) : Prop where
  challenge : Denotes mem tx.challenge CHALLENGE_LEN e.challenge.val
  from_ : Denotes mem tx.from_ tx.from_len.toNat e.sender.val
  to_ : Denotes mem tx.to_ tx.to_len.toNat e.recipient.val
  subject : Denotes mem tx.subject tx.subject_len.toNat e.subject.val
  body : Denotes mem tx.body tx.body_len.toNat e.body.val
  attachment : tx.RepresentsAttachment mem e.attachment

namespace deserialize

/-- What is stored for the tail represents the attachment that the tail encodes. -/
theorem storeTail_representsAttachment {mem rest : List UInt8} {attachment : Option Attachment}
    {off : Nat} (tx : Transaction)
    (h : mem.drop off = (attachmentCodec.optional 0 1 (by decide)).encode attachment ++ rest) :
    (storeTail attachment off tx).RepresentsAttachment mem attachment := by
  cases attachment with
  | none => exact ⟨rfl, rfl, rfl, rfl, rfl⟩
  | some att =>
    have hlen := att.name.property.toNat_ofNat_length (by decide)
    have hcount : mem.drop off = [1] ++ (beBytes 1 att.name.val.length ++ (att.name.val ++
        (beBytes 4 att.size.toNat ++ (att.hash.val ++ rest)))) := by
      rw [h]
      simp [Codec.optional, attachmentCodec, Codec.iso, Codec.pair, textCodec, sizeCodec, Codec.block]
    have hprefix := drop_of_drop_eq_append hcount rfl
    have hname := drop_of_drop_eq_append hprefix rfl
    have hsize := drop_of_drop_eq_append hname rfl
    have hhash := drop_of_drop_eq_append hsize rfl
    rw [beBytes_length] at hname hsize hhash
    rw [beBytes_length] at hhash
    exact ⟨rfl, .of_drop hname hlen, rfl, .of_drop hhash att.hash.property.symm⟩

/-- What the parser stores for an email represents that email in every memory
that holds its payload. -/
theorem layout_represents {mem rest : List UInt8} {e : Email} {off : Nat}
    (h : mem.drop off = e.wire ++ rest) : (layout e off).Represents mem e := by
  have hchallenge : mem.drop off = e.challenge.val ++ (beBytes 1 e.sender.val.length ++
      (e.sender.val ++ (beBytes 1 e.recipient.val.length ++ (e.recipient.val ++
        (beBytes 1 e.subject.val.length ++ (e.subject.val ++ (beBytes 2 e.body.val.length ++ (e.body.val ++
          ((attachmentCodec.optional 0 1 (by decide)).encode e.attachment ++ rest))))))))) := by
    rw [h, ← emailCodec_encode]
    simp [emailCodec, Codec.iso, Codec.pair, Codec.block, textCodec, bodyCodec]
  have hlen := e.challenge.property
  have hfromLen := drop_of_drop_eq_append hchallenge (n := off + 16) (by rw [hlen]; rfl)
  have hfrom := drop_of_drop_eq_append hfromLen (n := off + 17) (by rw [beBytes_length])
  have htoLen := drop_of_drop_eq_append hfrom rfl
  have hto := drop_of_drop_eq_append htoLen (n := off + 18 + e.sender.val.length)
    (by rw [beBytes_length]; omega)
  have hsubjectLen := drop_of_drop_eq_append hto rfl
  have hsubject := drop_of_drop_eq_append hsubjectLen
    (n := off + 19 + e.sender.val.length + e.recipient.val.length) (by rw [beBytes_length]; omega)
  have hbodyLen := drop_of_drop_eq_append hsubject rfl
  have hbody := drop_of_drop_eq_append hbodyLen rfl
  rw [beBytes_length] at hbody
  have htail := drop_of_drop_eq_append hbody rfl
  refine ⟨.of_drop hchallenge hlen.symm, .of_drop hfrom ?_, .of_drop hto ?_, .of_drop hsubject ?_,
    .of_drop hbody ?_, storeTail_representsAttachment _ htail⟩
  · exact e.sender.property.toNat_ofNat_length (by decide)
  · exact e.recipient.property.toNat_ofNat_length (by decide)
  · exact e.subject.property.toNat_ofNat_length (by decide)
  · exact UInt16.toNat_ofNat_of_lt' (Nat.lt_of_le_of_lt e.body.property.bounded (by decide))

end deserialize

end hardmail
