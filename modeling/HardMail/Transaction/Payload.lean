import HardMail.Transaction.Fields

open memory codec

namespace hardmail.deserialize

/-- A fixed-size field stores its pointer before the seek that validates it. -/
theorem block_parses (n : Nat) (put : Nat → Transaction → Transaction) (error : ParserStatus)
    (herror : error ≠ .PARSING_OK) :
    Parses (do
        let p := (← get).buf.offset
        modifyTx (put p)
        refuseIf (!(← seek_cur n)) error)
      (.block n) fun _ => put := by
  intro s hvalid
  simp only [Fails, EStateM.run_bind, EStateM.run_get, modifyTx_run, seek_cur_run,
    buffer_seek_cur_of_valid hvalid]
  by_cases hfit : n ≤ s.buf.rest.length
  · left
    have hlen : (s.buf.rest.take n).length = n := List.length_take_of_le hfit
    refine ⟨⟨s.buf.rest.take n, hlen⟩, s.buf.rest.drop n, ⟨s.buf.advance n, put s.buf.offset s.tx,
      s.record.add [] (s.buf.offset + n)⟩, (List.take_append_drop n s.buf.rest).symm, ?_, ?_, rfl⟩
    · simp [hfit]
    · simp [Codec.block, hlen]
  · right
    refine ⟨?_, error, ⟨s.buf, put s.buf.offset s.tx, s.record⟩, herror, ?_⟩
    · rintro ⟨l, hl⟩ tail heq
      rw [heq] at hfit
      simp [Codec.block, hl] at hfit
    · simp [hfit]

/-- The challenge is a block of sixteen bytes. -/
theorem readChallenge_parses :
    Parses readChallenge (.block CHALLENGE_LEN) fun _ off tx => { tx with challenge := some off } :=
  block_parses CHALLENGE_LEN (fun off tx => { tx with challenge := some off }) _ (by decide)

/-- The hash of the attachment is a block of thirty-two bytes. -/
theorem readAttHash_parses :
    Parses readAttHash (.block ATT_HASH_LEN) fun _ off tx => { tx with att_hash := some off } :=
  block_parses ATT_HASH_LEN (fun off tx => { tx with att_hash := some off }) _ (by decide)

/-- The size of the attachment is a big-endian number of four bytes. -/
theorem readAttSize_parses :
    Parses readAttSize sizeCodec fun size _ tx => { tx with att_size := size } := by
  intro s hvalid
  by_cases hshort : s.buf.rest.length < 4
  · right
    have hread : buffer_read_u32 s.buf = none := by
      rw [buffer_read_u32, buffer_read_be_of_short hvalid hshort, Option.map_none]
    refine ⟨?_, .ATTACHMENT_PARSING_ERROR, s, by decide, ?_⟩
    · intro size tail heq
      have hsize : (sizeCodec.encode size).length = 4 := beBytes_length 4 size.toNat
      rw [heq, List.length_append, hsize] at hshort
      omega
    · simp [readAttSize, read_u32, read_run, hread]
  · left
    have hhead : (s.buf.rest.take 4).length = 4 := by
      rw [List.length_take]
      omega
    have hrest := (List.take_append_drop 4 s.buf.rest).symm
    generalize s.buf.rest.take 4 = head at hhead hrest
    generalize s.buf.rest.drop 4 = tail at hrest
    have hvalue : beValue head < 2 ^ 32 := by
      have hlt := beValue_lt head
      rw [hhead] at hlt
      omega
    have hencode : sizeCodec.encode (UInt32.ofNat (beValue head)) = head := by
      change beBytes 4 (UInt32.ofNat (beValue head)).toNat = head
      rw [UInt32.toNat_ofNat_of_lt' hvalue, ← hhead, beBytes_beValue]
    refine ⟨UInt32.ofNat (beValue head), tail, ⟨s.buf.advance 4,
      { s.tx with att_size := UInt32.ofNat (beValue head) },
      s.record.add ((List.range 4).map (s.buf.offset + ·)) (s.buf.offset + 4)⟩, ?_, ?_, ?_, rfl⟩
    · rw [hencode, hrest]
    · simp [readAttSize, read_u32, read_run, buffer_read_u32_of_rest hvalid hhead hrest]
    · rw [hencode, hhead]

/-- The store of a body of `len` bytes whose prefix is at `off`. -/
def storeBody (len off : Nat) (tx : Transaction) : Transaction :=
  { tx with body := some (off + 2), body_len := UInt16.ofNat len }

/-- The body reads exactly the texts behind a length of two bytes, within its bound. -/
theorem readBody_parses :
    Parses readBody bodyCodec fun body => storeBody body.val.length := by
  refine Parses.of_text _ storeBody ?_ ?_ ?_
  · intro s hvalid hshort
    have hread : buffer_read_u16 s.buf = none := by
      rw [buffer_read_u16, buffer_read_be_of_short hvalid hshort, Option.map_none]
    refine ⟨.BODY_PARSING_ERROR, s, by decide, ?_⟩
    simp [readBody, read_u16, read_run, hread]
  · intro s head tail hvalid hhead hrest hlen hok
    obtain ⟨hvalid₁, hrest₁⟩ := hvalid.advance hrest
    rw [hhead] at hvalid₁ hrest₁
    have hnonempty := hok.nonempty
    have hbounded := hok.bounded
    rw [List.length_take, Nat.min_eq_left hlen] at hnonempty hbounded
    have hvalue : (UInt16.ofNat (beValue head)).toNat = beValue head :=
      UInt16.toNat_ofNat_of_lt' (Nat.lt_of_le_of_lt hbounded (by decide))
    have hnonzero : UInt16.ofNat (beValue head) ≠ 0 := by
      intro hzero
      rw [hzero] at hvalue
      rw [← hvalue] at hnonempty
      exact absurd hnonempty (by decide)
    obtain ⟨record, htext⟩ := text_ok_unread hvalid₁ (hrest₁ ▸ hlen) true
      { s.tx with body := some (s.buf.offset + 2) }
      ((s.record.add ((List.range 2).map (s.buf.offset + ·)) (s.buf.offset + 2)).add []
        (s.buf.offset + (2 + beValue head)))
    have hall : ∀ c ∈ tail.take (beValue head), TextByte true c := fun c hc =>
      (textByte_true c).mpr (hok.all_ok c hc)
    rw [hrest₁, (textOk_iff _ _).mpr hall, Buffer.advance_advance, Buffer.advance_offset] at htext
    refine ⟨record, ?_⟩
    simp [readBody, read_u16, read_run, buffer_read_u16_of_rest hvalid hhead hrest, hnonzero,
      hvalue, Nat.not_lt.mpr hbounded, seek_cur_run, buffer_seek_cur_of_valid hvalid₁, hrest₁, hlen, htext, storeBody]
  · intro s head tail hvalid hhead hrest hno
    obtain ⟨hvalid₁, hrest₁⟩ := hvalid.advance hrest
    rw [hhead] at hvalid₁ hrest₁
    simp only [Fails, readBody, read_u16, EStateM.run_bind, read_run,
      buffer_read_u16_of_rest hvalid hhead hrest, refuseIf_run]
    by_cases hbounds : UInt16.ofNat (beValue head) = 0 ∨
        (UInt16.ofNat (beValue head)).toNat > MAX_BODY_LEN
    · rw [if_pos hbounds]
      exact ⟨_, _, by decide, rfl⟩
    rw [if_neg hbounds]
    have hvalue : (UInt16.ofNat (beValue head)).toNat = beValue head := by
      have hlt := beValue_lt head
      rw [hhead] at hlt
      exact UInt16.toNat_ofNat_of_lt' hlt
    simp only [EStateM.run_get, modifyTx_run, seek_cur_run, hvalue, buffer_seek_cur_of_valid hvalid₁,
      hrest₁]
    by_cases hlen : beValue head ≤ tail.length
    · obtain ⟨record, htext⟩ := text_ok_unread hvalid₁ (hrest₁ ▸ hlen) true
        { s.tx with body := some (s.buf.offset + 2) }
        ((s.record.add ((List.range 2).map (s.buf.offset + ·)) (s.buf.offset + 2)).add []
          (s.buf.offset + (2 + beValue head)))
      have hbad : ¬ ∀ c ∈ tail.take (beValue head), TextByte true c := by
        intro hall
        apply hno
        refine ⟨hlen, ?_, ?_, fun c hc => (textByte_true c).mp (hall c hc)⟩
        all_goals rw [List.length_take, Nat.min_eq_left hlen]
        · by_contra hzero
          exact hbounds (Or.inl (UInt16.toNat_inj.mp (by rw [hvalue]; simpa using hzero)))
        · omega
      rw [hrest₁, textOk_eq_false hbad, Buffer.advance_advance, Buffer.advance_offset] at htext
      rw [if_pos hlen]
      exact ⟨.FIELD_ENCODING_ERROR, _, by decide, by simp [htext]; rfl⟩
    · rw [if_neg hlen]
      exact ⟨_, _, by decide, rfl⟩

end hardmail.deserialize
