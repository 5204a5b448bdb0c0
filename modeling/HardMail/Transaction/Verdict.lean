import HardMail.Codec.Skip
import HardMail.Machine.Errors
import HardMail.Transaction.Accepts

open memory codec machine

namespace hardmail.deserialize

/-- The length of a body fits its two bytes. -/
theorem anyBody_length_lt {body : List UInt8} (h : TextOf (fun _ => True) MAX_BODY_LEN body) :
    body.length < 256 ^ 2 := by
  have hbound := h.bounded
  simp only [MAX_BODY_LEN] at hbound
  omega

/-- The bounds of the text fields fit the one byte of their lengths. -/
theorem text_bounds_lt : MAX_FROM_LEN < UInt8.size ∧ MAX_TO_LEN < UInt8.size ∧ MAX_SUBJECT_LEN < UInt8.size := by
  decide

/-- A body with any bytes at all behind its length. -/
def anyBodyCodec : Codec UInt8 (Text (fun _ => True) MAX_BODY_LEN) :=
  .text 2 (TextOf (fun _ => True) MAX_BODY_LEN) fun _ => anyBody_length_lt

/-- A body is blamed for its bytes when only they are wrong. -/
def bodyBlame (bytes : List UInt8) : ParserStatus :=
  if (anyBodyCodec.decode bytes).isSome then .FIELD_ENCODING_ERROR else .BODY_PARSING_ERROR

/-- The fields of a payload in order, up to the first that cannot be read. -/
def readings (payload : List UInt8) : Except ParserStatus (List UInt8) := do
  let rest ← (Codec.block CHALLENGE_LEN).skip (fun _ => .CHALLENGE_PARSING_ERROR) payload
  let rest ← (textCodec MAX_FROM_LEN text_bounds_lt.1).skip (fun _ => .FROM_PARSING_ERROR) rest
  let rest ← (textCodec MAX_TO_LEN text_bounds_lt.2.1).skip (fun _ => .TO_PARSING_ERROR) rest
  let rest ← (textCodec MAX_SUBJECT_LEN text_bounds_lt.2.2).skip (fun _ => .SUBJECT_PARSING_ERROR) rest
  let rest ← bodyCodec.skip bodyBlame rest
  (attachmentCodec.optional 0 1 UInt8.zero_ne_one).skip (fun _ => .ATTACHMENT_PARSING_ERROR) rest

/-- What is wrong with a payload, if anything. -/
def verdict (payload : List UInt8) : ParserStatus :=
  if payload.length > MAX_TX_LEN then .WRONG_LENGTH_ERROR
  else match readings payload with
    | .ok [] => .PARSING_OK
    | .ok _ => .WRONG_LENGTH_ERROR
    | .error status => status

/-- A parser ends in front of the bytes a reading keeps, or with the error it ends with. -/
inductive Agrees : Except ParserStatus (List UInt8) → EStateM.Result ParserStatus ParserState Unit → Prop where
  | ok {s : ParserState} (hvalid : s.buf.Valid) : Agrees (.ok s.buf.rest) (.ok () s)
  | error (status : ParserStatus) (s : ParserState) : Agrees (.error status) (.error status s)

def Judges (m : Parser Unit) (reading : List UInt8 → Except ParserStatus (List UInt8)) : Prop :=
  ∀ s : ParserState, s.buf.Valid → Agrees (reading s.buf.rest) (m.run s)

variable {α : Type} {m n : Parser Unit} {c : Codec UInt8 α} {f : α → Nat → Transaction → Transaction}

/-- Parsers in sequence judge as their readings do, one after the other. -/
theorem Judges.seq {reading next : List UInt8 → Except ParserStatus (List UInt8)} (hm : Judges m reading)
    (hn : Judges n next) : Judges (m >>= fun _ => n) fun bytes => reading bytes >>= next := by
  intro s hvalid
  have hfirst := hm s hvalid
  dsimp only
  rw [EStateM.run_bind]
  generalize reading s.buf.rest = kept at hfirst ⊢
  generalize m.run s = result at hfirst ⊢
  cases hfirst with
  | error status s' => exact .error status s'
  | @ok s' hvalid' => exact hn s' hvalid'

/-- A parser of encodings judges by their codec, with the blame for what is none. -/
theorem Parses.judges (hm : Parses m c f) {blame : List UInt8 → ParserStatus}
    (hblame : ∀ s : ParserState, s.buf.Valid → (∀ a tail, s.buf.rest ≠ c.encode a ++ tail) →
      ∀ status s', m.run s = .error status s' → status = blame s.buf.rest) : Judges m (c.skip blame) := by
  intro s hvalid
  obtain ⟨a, tail, s', hrest, hrun, hbuf, -⟩ | ⟨hno, status, s', -, hrun⟩ := hm s hvalid
  · obtain ⟨hvalid', hrest'⟩ := hvalid.advance hrest
    rw [← hbuf] at hvalid' hrest'
    rw [hrest, Codec.skip_encode, hrun, ← hrest']
    exact .ok hvalid'
  · rw [Codec.skip_eq_error hno, hrun, hblame s hvalid hno status s' hrun]
    exact .error _ _

/-- A parser that throws one status only blames everything with it. -/
theorem Parses.judges_of_throws (hm : Parses m c f) {error : ParserStatus} (hthrows : Throws m (· = error)) :
    Judges m (c.skip fun _ => error) :=
  hm.judges fun s _ _ status s' hrun => hthrows s status s' hrun

section throws

variable {β : Type} {E : ParserStatus → Prop}

theorem throws_get : Throws (get : Parser ParserState) E := .of_ok fun s => ⟨s, s, rfl⟩

theorem throws_modifyTx (g : Transaction → Transaction) : Throws (modifyTx g) E := .of_ok fun _ => ⟨(), _, rfl⟩

theorem throws_refuseIf (b : Prop) [Decidable b] {error : ParserStatus} (h : E error) : Throws (refuseIf b error) E :=
  .ite (.throw h) (.pure ())

theorem throws_seek_cur (k : Nat) : Throws (seek_cur k) E := by
  apply Throws.of_ok
  intro s
  rw [seek_cur_run]
  cases buffer_seek_cur s.buf k with
  | none => exact ⟨_, _, rfl⟩
  | some buf => exact ⟨_, _, rfl⟩

/-- A read reports its failure and throws nothing. -/
theorem throws_read (k : Nat) (sdk_read : Buffer → Option (β × Buffer)) : Throws (read k sdk_read) E := by
  apply Throws.of_ok
  intro s
  rw [read_run]
  cases sdk_read s.buf with
  | none => exact ⟨_, _, rfl⟩
  | some read => exact ⟨_, _, rfl⟩

theorem throws_text_ok (p len : Nat) (allow_newline : Bool) : Throws (text_ok p len allow_newline) E := by
  induction len generalizing p with
  | zero => exact .pure true
  | succ len ih =>
    refine .bind (.of_ok fun s => ⟨_, _, inspect_run s p⟩) fun c => ?_
    exact .ite (ih (p + 1)) (.ite (.pure false) (ih (p + 1)))

/-- A text field reports its failure and throws nothing, so that its caller names the field. -/
theorem throws_read_text_field (field : TextField) (max : Nat) : Throws (read_text_field field max) E := by
  refine .bind (throws_read 1 buffer_read_u8) fun len => ?_
  cases len with
  | none => exact .pure false
  | some len =>
    refine .ite (.pure false) (.bind throws_get fun s => .bind (throws_modifyTx _) fun _ => ?_)
    refine .bind (throws_seek_cur _) fun found => .ite (.pure false) ?_
    refine .bind (throws_text_ok _ _ _) fun ok => .ite (.pure false) ?_
    exact .bind (throws_modifyTx _) fun _ => .pure true

/-- A text field is blamed with the status of that field. -/
theorem throws_readField (field : TextField) (max : Nat) {error : ParserStatus} (h : E error) :
    Throws (readField field max error) E :=
  .bind (throws_read_text_field field max) fun _ => throws_refuseIf _ h

/-- The challenge is blamed with its own status. -/
theorem throws_readChallenge (h : E .CHALLENGE_PARSING_ERROR) : Throws readChallenge E :=
  .bind throws_get fun _ => .bind (throws_modifyTx _) fun _ => .bind (throws_seek_cur _) fun _ => throws_refuseIf _ h

/-- Whatever is wrong with the attachment, it is blamed with one status. -/
theorem throws_readAttachment (h : E .ATTACHMENT_PARSING_ERROR) : Throws readAttachment E := by
  refine .bind (throws_modifyTx _) fun _ => .bind (throws_read 1 buffer_read_u8) fun count => ?_
  cases count with
  | none => exact .throw h
  | some att_count =>
    refine .bind (throws_refuseIf _ h) fun _ => .ite (.bind (throws_readField _ _ h) fun _ => ?_) (.pure ())
    have hsize : Throws readAttSize E := by
      refine .bind (throws_read 4 buffer_read_u32) fun size => ?_
      cases size with
      | none => exact .throw h
      | some size => exact throws_modifyTx _
    have hhash : Throws readAttHash E :=
      .bind throws_get fun _ => .bind (throws_modifyTx _) fun _ => .bind (throws_seek_cur _) fun _ =>
        throws_refuseIf _ h
    exact .bind hsize fun _ => .bind hhash fun _ => throws_modifyTx _

end throws

/-- Without its two length bytes a body is blamed for its length. -/
theorem bodyBlame_of_short {bytes : List UInt8} (hshort : bytes.length < 2) :
    bodyBlame bytes = .BODY_PARSING_ERROR := by
  rw [bodyBlame, anyBodyCodec, Codec.text_decode_of_short _ hshort]
  rfl

/-- The length of a body is right when it is within the bound and the bytes are there. -/
theorem anyBodyCodec_isSome_iff {head tail : List UInt8} (hhead : head.length = 2) :
    (anyBodyCodec.decode (head ++ tail)).isSome = true ↔
      beValue head ≤ tail.length ∧ 1 ≤ beValue head ∧ beValue head ≤ MAX_BODY_LEN := by
  rw [anyBodyCodec, Codec.text_decode_isSome_iff _ hhead]
  constructor
  · rintro ⟨hlen, htext⟩
    have hnonempty := htext.nonempty
    have hbounded := htext.bounded
    rw [List.length_take, Nat.min_eq_left hlen] at hnonempty hbounded
    exact ⟨hlen, hnonempty, hbounded⟩
  · rintro ⟨hlen, hnonempty, hbounded⟩
    have htake : (tail.take (beValue head)).length = beValue head := by rw [List.length_take, Nat.min_eq_left hlen]
    exact ⟨hlen, by rwa [htake], by rwa [htake], fun _ _ => trivial⟩

/-- A body that fails is blamed as the codec blames it. -/
theorem readBody_blames {s : ParserState} (hvalid : s.buf.Valid) {status : ParserStatus} {s' : ParserState}
    (hrun : readBody.run s = .error status s') : status = bodyBlame s.buf.rest := by
  by_cases hshort : s.buf.rest.length < 2
  · have hread : buffer_read_u16 s.buf = none := by
      rw [buffer_read_u16, buffer_read_be_of_short hvalid hshort, Option.map_none]
    rw [bodyBlame_of_short hshort]
    simp only [readBody, read_u16, EStateM.run_bind, read_run, hread] at hrun
    cases hrun
    rfl
  have hhead : (s.buf.rest.take 2).length = 2 := by
    rw [List.length_take]
    omega
  have hrest := (List.take_append_drop 2 s.buf.rest).symm
  generalize s.buf.rest.take 2 = head at hhead hrest
  generalize s.buf.rest.drop 2 = tail at hrest
  obtain ⟨hvalid₁, hrest₁⟩ := hvalid.advance hrest
  rw [hhead] at hvalid₁ hrest₁
  have hvalue : (UInt16.ofNat (beValue head)).toNat = beValue head := by
    have hlt := beValue_lt head
    rw [hhead] at hlt
    exact UInt16.toNat_ofNat_of_lt' hlt
  have hzero : UInt16.ofNat (beValue head) = 0 ↔ beValue head = 0 := by
    rw [← UInt16.toNat_inj, hvalue]
    rfl
  simp only [readBody, read_u16, EStateM.run_bind, read_run, buffer_read_u16_of_rest hvalid hhead hrest, refuseIf_run,
    hvalue, hzero] at hrun
  rw [hrest, bodyBlame]
  by_cases hbounds : beValue head = 0 ∨ beValue head > MAX_BODY_LEN
  · rw [if_pos hbounds] at hrun
    have hnone : ¬ (anyBodyCodec.decode (head ++ tail)).isSome = true := by
      rw [anyBodyCodec_isSome_iff hhead]
      omega
    cases hrun
    rw [if_neg hnone]
  rw [if_neg hbounds] at hrun
  simp only [EStateM.run_get, modifyTx_run, seek_cur_run, buffer_seek_cur_of_valid hvalid₁, hrest₁] at hrun
  by_cases hlen : beValue head ≤ tail.length
  · have hsome : (anyBodyCodec.decode (head ++ tail)).isSome = true := by
      rw [anyBodyCodec_isSome_iff hhead]
      omega
    obtain ⟨record, htext⟩ := text_ok_unread hvalid₁ (hrest₁ ▸ hlen) true
      { s.tx with body := some (s.buf.advance 2).offset }
      ((s.record.add ((List.range 2).map (s.buf.offset + ·)) (s.buf.advance 2).offset).add []
        ((s.buf.advance 2).advance (beValue head)).offset)
    rw [if_pos hlen] at hrun
    rw [if_pos hsome]
    simp only [Bool.not_true, Bool.false_eq_true, if_false, htext] at hrun
    cases hok : textOk true ((s.buf.advance 2).rest.take (beValue head)) with
    | true =>
      rw [hok] at hrun
      cases hrun
    | false =>
      rw [hok] at hrun
      cases hrun
      rfl
  · have hnone : ¬ (anyBodyCodec.decode (head ++ tail)).isSome = true := by
      rw [anyBodyCodec_isSome_iff hhead]
      exact fun h => hlen h.1
    rw [if_neg hlen] at hrun
    rw [if_neg hnone]
    cases hrun
    rfl

/-- The parser judges a payload as its readings do, field by field. -/
theorem readFields_judges : Judges readFields readings := by
  have hbody : Judges readBody (bodyCodec.skip bodyBlame) :=
    readBody_parses.judges fun s hvalid _ status s' hrun => readBody_blames hvalid hrun
  exact (readChallenge_parses.judges_of_throws (throws_readChallenge rfl)).seq
    (((readField_parses .from_ MAX_FROM_LEN (by decide) _ (by decide)).judges_of_throws (throws_readField _ _ rfl)).seq
    (((readField_parses .to_ MAX_TO_LEN (by decide) _ (by decide)).judges_of_throws (throws_readField _ _ rfl)).seq
    (((readField_parses .subject MAX_SUBJECT_LEN (by decide) _ (by decide)).judges_of_throws
      (throws_readField _ _ rfl)).seq
    (hbody.seq (readAttachment_parses.judges_of_throws (throws_readAttachment rfl))))))

/-- The status of the parser is the verdict on the payload: it names the first field that
cannot be read, whatever the memory behind the payload and the structure held before. -/
theorem transaction_deserialize_verdict (p spare : List UInt8) (tx : Transaction) :
    (transaction_deserialize ⟨p ++ spare, p.length, 0⟩ tx).1 = verdict p := by
  have hvalid := payloadBuffer_valid p spare
  have hrest := payloadBuffer_rest p spare
  change (transaction_deserialize (payloadBuffer p spare) tx).1 = verdict p
  by_cases hsize : p.length > MAX_TX_LEN
  · rw [verdict, if_pos hsize]
    exact transaction_deserialize_too_long hsize tx
  have hagrees := readFields_judges (.start (payloadBuffer p spare) tx) hvalid
  rw [ParserState.start_buf, hrest] at hagrees
  rw [verdict, if_neg hsize, transaction_deserialize, readPayload_run (s := .start (payloadBuffer p spare) tx) hsize]
  generalize readings p = kept at hagrees ⊢
  generalize readFields.run (.start (payloadBuffer p spare) tx) = result at hagrees ⊢
  cases hagrees with
  | error status s => rfl
  | @ok s hvalid' =>
    have hlen := hvalid'.rest_length
    have hoffset := hvalid'.offset_le
    cases hleft : s.buf.rest with
    | nil =>
      rw [hleft, List.length_nil] at hlen
      exact if_pos (by omega)
    | cons b tail =>
      rw [hleft, List.length_cons] at hlen
      exact if_neg (by omega)

end hardmail.deserialize
