import HardMail.Transaction.Payload

open memory codec

namespace hardmail.deserialize

/-- The store of an attachment whose name prefix is at `off`. -/
def storeAttachment (att : hardmail.Attachment) (off : Nat) (tx : Transaction) : Transaction :=
  { tx with
    has_attachment := 1
    att_name := some (off + 1)
    att_name_len := UInt8.ofNat att.name.val.length
    att_size := att.size
    att_hash := some (off + 1 + att.name.val.length + 4) }

/-- The store of the optional tail whose count is at `off`. -/
def storeTail (attachment : Option hardmail.Attachment) (off : Nat) (tx : Transaction) :
    Transaction :=
  { tx with
    has_attachment := attachment.elim 0 fun _ => 1
    att_name := attachment.map fun _ => off + 1 + 1
    att_name_len := attachment.elim 0 fun att => UInt8.ofNat att.name.val.length
    att_size := attachment.elim 0 fun att => att.size
    att_hash := attachment.map fun att => off + 1 + 1 + att.name.val.length + 4 }

/-- The statements behind an attachment count of one. -/
theorem attachment_parses :
    Parses (do
        readField .att_name MAX_ATT_NAME_LEN .ATTACHMENT_PARSING_ERROR
        readAttSize
        readAttHash
        modifyTx fun tx => { tx with has_attachment := 1 })
      attachmentCodec storeAttachment := by
  have hname := readField_parses .att_name MAX_ATT_NAME_LEN (by decide) .ATTACHMENT_PARSING_ERROR
    (by decide)
  have htail := readAttSize_parses.seq (readAttHash_parses.store fun tx => { tx with has_attachment := 1 })
  refine ((hname.seq htail).iso _).congr_store ?_
  intro att off tx
  have hsize : (sizeCodec.encode att.size).length = 4 := beBytes_length 4 att.size.toNat
  have hlen : ((textCodec MAX_ATT_NAME_LEN (by decide)).encode att.name).length =
      1 + att.name.val.length := Codec.text_encode_length _ _
  simp only [storeAttachment, storeText, storeLen, storePtr, Equiv.coe_fn_symm_mk, hsize, hlen]
  rw [Nat.add_assoc off 1]

/-- The tail of a payload reads exactly the optional attachments: a count of zero, or a
count of one in front of an attachment. -/
theorem readAttachment_parses :
    Parses readAttachment (attachmentCodec.optional 0 1 (by decide)) storeTail := by
  intro s hvalid
  have hclear : clearAttachment.run s = .ok () ⟨s.buf, storeTail none s.buf.offset s.tx, s.record⟩ := rfl
  cases hrest : s.buf.rest with
  | nil =>
    right
    have hshort : s.buf.rest.length < 1 := by simp [hrest]
    have hread : buffer_read_u8 s.buf = none := by
      rw [buffer_read_u8, buffer_read_be_of_short hvalid hshort, Option.map_none]
    refine ⟨?_, .ATTACHMENT_PARSING_ERROR, ⟨s.buf, storeTail none s.buf.offset s.tx, s.record⟩, by decide, ?_⟩
    · intro a tail heq
      cases a <;> simp [Codec.optional] at heq
    · simp [readAttachment, hclear, read_u8, read_run, hread]
  | cons b tail =>
    have hread := buffer_read_u8_of_rest hvalid (show s.buf.rest = [b] ++ tail from hrest)
    obtain ⟨hvalid₁, hrest₁⟩ := hvalid.advance (l := [b]) hrest
    rw [List.length_singleton] at hvalid₁ hrest₁
    have hrun : readAttachment.run s = (do
        refuseIf (b > 1) .ATTACHMENT_PARSING_ERROR
        if b = 1 then
          readField .att_name MAX_ATT_NAME_LEN .ATTACHMENT_PARSING_ERROR
          readAttSize
          readAttHash
          modifyTx fun tx => { tx with has_attachment := 1 } : Parser Unit).run
        ⟨s.buf.advance 1, storeTail none s.buf.offset s.tx, s.record.add [s.buf.offset] (s.buf.offset + 1)⟩ := by
      simp [readAttachment, hclear, read_u8, read_run, hread]
    generalize s.record.add [s.buf.offset] (s.buf.offset + 1) = record at hrun
    rw [Fails, hrun]
    by_cases hzero : b = 0
    · left
      refine ⟨none, tail, ⟨s.buf.advance 1, storeTail none s.buf.offset s.tx, record⟩,
        ?_, ?_, ?_, rfl⟩
      · rw [hzero]
        rfl
      · simp [hzero]
      · rfl
    by_cases hone : b = 1
    · obtain ⟨att, last, s', hrest', hrun', hbuf, htx⟩ | ⟨hno, error, s', herror, hrun'⟩ :=
        attachment_parses ⟨s.buf.advance 1, storeTail none s.buf.offset s.tx, record⟩ hvalid₁
      · left
        refine ⟨some att, last, s', ?_, ?_, ?_, ?_⟩
        · rw [hone, ← hrest₁]
          exact congrArg (List.cons 1) hrest'
        · simpa [hone] using hrun'
        · rw [hbuf, Buffer.advance_advance, Nat.add_comm]
          rfl
        · rw [htx]
          rfl
      · right
        refine ⟨?_, error, s', herror, ?_⟩
        · intro a last heq
          rw [hone] at heq
          cases a with
          | none => cases heq
          | some att =>
            apply hno att last
            rw [hrest₁]
            exact (List.cons.inj heq).2
        · simpa [hone] using hrun'
    · right
      have hmany : b > 1 := by
        have hb0 : b.toNat ≠ 0 := fun h => hzero (UInt8.toNat_inj.mp h)
        have hb1 : b.toNat ≠ 1 := fun h => hone (UInt8.toNat_inj.mp h)
        rw [gt_iff_lt, UInt8.lt_iff_toNat_lt]
        change 1 < b.toNat
        omega
      refine ⟨?_, .ATTACHMENT_PARSING_ERROR,
        ⟨s.buf.advance 1, storeTail none s.buf.offset s.tx, record⟩, by decide, ?_⟩
      · intro a last heq
        cases a with
        | none => exact hzero (List.cons.inj heq).1
        | some att => exact hone (List.cons.inj heq).1
      · simp [hmany]

/-- What the parser leaves in the structure when it has read an email whose first
byte is at `off`. -/
def layout (e : Email) (off : Nat) : Transaction :=
  let subject := off + 19 + e.sender.val.length + e.recipient.val.length
  let body := subject + e.subject.val.length + 2
  storeTail e.attachment (body + e.body.val.length)
    { Transaction.zero with
      challenge := some off
      from_ := some (off + 17)
      from_len := UInt8.ofNat e.sender.val.length
      to_ := some (off + 18 + e.sender.val.length)
      to_len := UInt8.ofNat e.recipient.val.length
      subject := some subject
      subject_len := UInt8.ofNat e.subject.val.length
      body := some body
      body_len := UInt16.ofNat e.body.val.length }

/-- The parser reads exactly the documented wire format, and what it stores does
not depend on what the structure held before. -/
theorem readFields_parses : Parses readFields emailCodec fun e off _ => layout e off := by
  have h := readChallenge_parses.seq
    ((readField_parses .from_ MAX_FROM_LEN (by decide) .FROM_PARSING_ERROR (by decide)).seq
      ((readField_parses .to_ MAX_TO_LEN (by decide) .TO_PARSING_ERROR (by decide)).seq
        ((readField_parses .subject MAX_SUBJECT_LEN (by decide) .SUBJECT_PARSING_ERROR (by decide)).seq
          (readBody_parses.seq readAttachment_parses))))
  refine (h.iso _).congr_store ?_
  intro e off tx
  have hchallenge : ((Codec.block CHALLENGE_LEN).encode e.challenge).length = 16 := e.challenge.property
  have hsender : ((textCodec MAX_FROM_LEN (by decide)).encode e.sender).length =
      1 + e.sender.val.length := Codec.text_encode_length _ _
  have hrecipient : ((textCodec MAX_TO_LEN (by decide)).encode e.recipient).length =
      1 + e.recipient.val.length := Codec.text_encode_length _ _
  have hsubject : ((textCodec MAX_SUBJECT_LEN (by decide)).encode e.subject).length =
      1 + e.subject.val.length := Codec.text_encode_length _ _
  have hbody : (bodyCodec.encode e.body).length = 2 + e.body.val.length :=
    Codec.text_encode_length _ _
  simp only [Equiv.coe_fn_symm_mk, hchallenge, hsender, hrecipient, hsubject, hbody, storeText,
    storePtr, storeLen, storeBody, layout]
  have htail : off + 16 + (1 + e.sender.val.length) + (1 + e.recipient.val.length) +
      (1 + e.subject.val.length) + (2 + e.body.val.length) =
      off + 19 + e.sender.val.length + e.recipient.val.length + e.subject.val.length + 2 +
        e.body.val.length := by omega
  rw [htail]
  simp only [storeTail, Transaction.mk.injEq, Option.some.injEq, true_and, and_true]
  omega

end hardmail.deserialize
