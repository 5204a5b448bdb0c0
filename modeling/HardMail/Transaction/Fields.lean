import HardMail.Transaction.Parses

open memory codec

namespace hardmail.deserialize

/-- The bytes `text_ok` lets through. -/
def TextByte (allow_newline : Bool) (c : UInt8) : Prop :=
  Printable c ∨ allow_newline = true ∧ c = 0x0a

instance (allow_newline : Bool) : DecidablePred (TextByte allow_newline) :=
  fun _ => inferInstanceAs (Decidable (_ ∨ _))

/-- Without newlines the text bytes are the printable ones. -/
theorem textByte_false (c : UInt8) : TextByte false c ↔ Printable c := by
  simp [TextByte]

/-- With newlines the text bytes are those of a body. -/
theorem textByte_true (c : UInt8) : TextByte true c ↔ BodyByte c := by
  simp [TextByte, BodyByte]

def textOk (allow_newline : Bool) (bytes : List UInt8) : Bool :=
  bytes.all fun c => decide (TextByte allow_newline c)

/-- The test of a text is one of each of its bytes. -/
theorem textOk_iff (allow_newline : Bool) (bytes : List UInt8) :
    textOk allow_newline bytes = true ↔ ∀ c ∈ bytes, TextByte allow_newline c := by
  simp only [textOk, List.all_eq_true, decide_eq_true_eq]

/-- A text with a bad byte fails the test. -/
theorem textOk_eq_false {allow_newline : Bool} {bytes : List UInt8}
    (h : ¬ ∀ c ∈ bytes, TextByte allow_newline c) : textOk allow_newline bytes = false :=
  Bool.eq_false_iff.mpr ((textOk_iff allow_newline bytes).not.mpr h)

/-- `text_ok` tests every byte of the slice and moves nothing. -/
theorem text_ok_run (p len : Nat) (allow_newline : Bool) (s : ParserState)
    (hin : p + len ≤ s.buf.ptr.length) :
    ∃ record, (text_ok p len allow_newline).run s =
      .ok (textOk allow_newline (slice s.buf.ptr p len)) { s with record } := by
  induction len generalizing p s with
  | zero => exact ⟨s.record, by simp [text_ok, textOk, slice]⟩
  | succ len ih =>
    have hp : p < s.buf.ptr.length := by omega
    have hcons : slice s.buf.ptr p (len + 1) = s.buf.ptr[p] :: slice s.buf.ptr (p + 1) len := by
      rw [slice, List.drop_eq_getElem_cons hp, List.take_succ_cons, slice]
    have hget : s.buf.ptr.getD p 0 = s.buf.ptr[p] := by simp [List.getD, hp]
    obtain ⟨record, hrec⟩ := ih (p + 1) { s with record := s.record.add [p] s.buf.offset } (by simpa using by omega)
    rw [hcons]
    simp only [text_ok, EStateM.run_bind, inspect_run, hget, textOk, List.all_cons]
    by_cases hnewline : allow_newline = true ∧ s.buf.ptr[p] = 0x0a
    · have hok : TextByte allow_newline s.buf.ptr[p] := Or.inr hnewline
      refine ⟨record, ?_⟩
      simp [if_pos hnewline, hrec, textOk, hok]
    · rw [if_neg hnewline]
      by_cases hbad : s.buf.ptr[p] < 0x20 ∨ s.buf.ptr[p] > 0x7e
      · have hno : ¬ TextByte allow_newline s.buf.ptr[p] := by
          rintro (⟨hlow, hhigh⟩ | hnl)
          · rcases hbad with hbad | hbad
            · exact absurd hlow (UInt8.not_le.mpr hbad)
            · exact absurd hhigh (UInt8.not_le.mpr hbad)
          · exact hnewline hnl
        exact ⟨s.record.add [p] s.buf.offset, by simp [hbad, hno]⟩
      · have hok : TextByte allow_newline s.buf.ptr[p] := by
          simp only [not_or, UInt8.not_lt] at hbad
          exact Or.inl hbad
        refine ⟨record, ?_⟩
        simp [hbad, hrec, textOk, hok]

/-- Scanning the next `len` unread bytes, with the cursor already past them. -/
theorem text_ok_unread {buf : Buffer} (hvalid : buf.Valid) {len : Nat}
    (hlen : len ≤ buf.rest.length) (allow_newline : Bool) (tx : Transaction)
    (before : Record) :
    ∃ record, (text_ok buf.offset len allow_newline).run ⟨buf.advance len, tx, before⟩ =
      .ok (textOk allow_newline (buf.rest.take len)) ⟨buf.advance len, tx, record⟩ := by
  have hsize := hvalid.size_le
  have hoffset := hvalid.offset_le
  have hunread := hvalid.rest_length
  have hslice := Buffer.slice_eq_of_rest_eq (List.take_append_drop len buf.rest).symm
  rw [List.length_take, Nat.min_eq_left hlen] at hslice
  rw [← hslice]
  exact text_ok_run buf.offset len allow_newline ⟨buf.advance len, tx, before⟩ (by simp; omega)

section text_field
variable (field : TextField) (max : Nat) {s : ParserState} {b : UInt8} {tail : List UInt8}

/-- In front of a text of the right kind, a text field moves past it and stores
where it starts and how long it is. -/
theorem read_text_field_accepts (hvalid : s.buf.Valid) (hrest : s.buf.rest = [b] ++ tail)
    (hlen : b.toNat ≤ tail.length) (hok : TextOf Printable max (tail.take b.toNat)) :
    ∃ record, (read_text_field field max).run s =
      .ok true ⟨s.buf.advance (1 + b.toNat),
        storeLen field b (storePtr field (some (s.buf.offset + 1)) s.tx), record⟩ := by
  obtain ⟨hvalid₁, hrest₁⟩ := hvalid.advance hrest
  rw [List.length_singleton] at hvalid₁ hrest₁
  have hnonempty := hok.nonempty
  have hbounded := hok.bounded
  rw [List.length_take, Nat.min_eq_left hlen] at hnonempty hbounded
  have hbounds : ¬ (b = 0 ∨ b.toNat > max) := by
    rintro (hzero | hlong)
    · simp [hzero] at hnonempty
    · omega
  obtain ⟨record, htext⟩ := text_ok_unread hvalid₁ (hrest₁ ▸ hlen) false
    (storePtr field (some (s.buf.offset + 1)) s.tx)
    ((s.record.add [s.buf.offset] (s.buf.offset + 1)).add [] (s.buf.offset + (1 + b.toNat)))
  have hall : ∀ c ∈ tail.take b.toNat, TextByte false c := fun c hc =>
    (textByte_false c).mpr (hok.all_ok c hc)
  rw [hrest₁, (textOk_iff _ _).mpr hall, Buffer.advance_advance, Buffer.advance_offset] at htext
  simp only [read_text_field, read_u8, EStateM.run_bind, read_run, buffer_read_u8_of_rest hvalid hrest,
    hbounds, if_false, EStateM.run_get, modifyTx_run, seek_cur_run, buffer_seek_cur_of_valid hvalid₁, hrest₁,
    hlen, if_true]
  exact ⟨record, by simp [htext]⟩

/-- Anything else makes a text field fail. -/
theorem read_text_field_refuses (hvalid : s.buf.Valid) (hrest : s.buf.rest = [b] ++ tail)
    (hno : ¬ (b.toNat ≤ tail.length ∧ TextOf Printable max (tail.take b.toNat))) :
    ∃ s', (read_text_field field max).run s = .ok false s' := by
  obtain ⟨hvalid₁, hrest₁⟩ := hvalid.advance hrest
  rw [List.length_singleton] at hvalid₁ hrest₁
  simp only [read_text_field, read_u8, EStateM.run_bind, read_run, buffer_read_u8_of_rest hvalid hrest]
  by_cases hbounds : b = 0 ∨ b.toNat > max
  · rw [if_pos hbounds]
    exact ⟨_, rfl⟩
  rw [if_neg hbounds]
  simp only [EStateM.run_bind, EStateM.run_get, modifyTx_run, seek_cur_run, buffer_seek_cur_of_valid hvalid₁, hrest₁]
  by_cases hlen : b.toNat ≤ tail.length
  · obtain ⟨record, htext⟩ := text_ok_unread hvalid₁ (hrest₁ ▸ hlen) false
      (storePtr field (some (s.buf.offset + 1)) s.tx)
      ((s.record.add [s.buf.offset] (s.buf.offset + 1)).add [] (s.buf.offset + (1 + b.toNat)))
    have hbad : ¬ ∀ c ∈ tail.take b.toNat, TextByte false c := by
      intro hall
      apply hno
      refine ⟨hlen, ?_, ?_, fun c hc => (textByte_false c).mp (hall c hc)⟩
      all_goals rw [List.length_take, Nat.min_eq_left hlen]
      · by_contra hzero
        exact hbounds (Or.inl (UInt8.toNat_inj.mp (by simpa using hzero)))
      · omega
    rw [hrest₁, textOk_eq_false hbad, Buffer.advance_advance, Buffer.advance_offset] at htext
    rw [if_pos hlen]
    exact ⟨_, by simp [htext]; rfl⟩
  · rw [if_neg hlen]
    exact ⟨_, rfl⟩

end text_field

/-- The store of a text field of `len` bytes whose prefix is at `off`. -/
def storeText (field : TextField) (len off : Nat) (tx : Transaction) : Transaction :=
  storeLen field (UInt8.ofNat len) (storePtr field (some (off + 1)) tx)

/-- A text field reads exactly the length-prefixed texts within its bound. -/
theorem readField_parses (field : TextField) (max : Nat) (hmax : max < 256) (error : ParserStatus)
    (herror : error ≠ .PARSING_OK) :
    Parses (readField field max error) (textCodec max hmax) fun t => storeText field t.val.length := by
  refine Parses.of_text _ (storeText field) ?_ ?_ ?_
  · intro s hvalid hshort
    have hread : buffer_read_u8 s.buf = none := by
      rw [buffer_read_u8, buffer_read_be_of_short hvalid hshort, Option.map_none]
    refine ⟨error, s, herror, ?_⟩
    simp [readField, read_text_field, read_u8, read_run, hread]
  · intro s head tail hvalid hhead hrest hlen hok
    obtain ⟨b, rfl⟩ := List.length_eq_one_iff.mp hhead
    have hvalue : beValue [b] = b.toNat := by simp [beValue]
    rw [hvalue] at hlen hok ⊢
    obtain ⟨record, hrun⟩ := read_text_field_accepts field max hvalid hrest hlen hok
    refine ⟨record, ?_⟩
    simp [readField, hrun, storeText]
  · intro s head tail hvalid hhead hrest hno
    obtain ⟨b, rfl⟩ := List.length_eq_one_iff.mp hhead
    have hvalue : beValue [b] = b.toNat := by simp [beValue]
    rw [hvalue] at hno
    obtain ⟨s', hrun⟩ := read_text_field_refuses field max hvalid hrest hno
    refine ⟨error, s', herror, ?_⟩
    simp [readField, hrun]

end hardmail.deserialize
