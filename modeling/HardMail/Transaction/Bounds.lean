import HardMail.Machine.Triple
import HardMail.Transaction.Accepts

open memory codec machine

namespace hardmail.deserialize

/-- The parser, started on `buf`, has stayed inside it so far: it is still over the same
bytes, it has inspected only bytes of the buffer, and its cursor has climbed from where it
started to where it is, which is not past the end. -/
structure Inside (buf : Buffer) (s : ParserState) : Prop where
  ptr_eq : s.buf.ptr = buf.ptr
  size_eq : s.buf.size = buf.size
  offset_le : s.buf.offset ≤ buf.size
  inspected_lt : ∀ i ∈ s.record.inspected, i < buf.size
  climb : Climb buf.offset s.buf.offset s.record.cursors

/-- A parser that stays inside the buffer, on every path. -/
abbrev Stays (buf : Buffer) {α : Type} (m : Parser α) : Prop :=
  Triple (Inside buf) m (fun _ => Inside buf) (Inside buf)

section stays
variable {buf : Buffer} {s : ParserState}

/-- The parser is inside its buffer when it starts. -/
theorem Inside.start (hvalid : buf.Valid) (tx : Transaction) : Inside buf (.start buf tx) :=
  ⟨rfl, rfl, hvalid.offset_le, fun _ hi => absurd hi List.not_mem_nil, .refl buf.offset⟩

/-- Stores into the structure do not concern the buffer. -/
theorem Inside.store (h : Inside buf s) (tx : Transaction) : Inside buf { s with tx } :=
  ⟨h.ptr_eq, h.size_eq, h.offset_le, h.inspected_lt, h.climb⟩

/-- A move of the cursor by `n` bytes that fit stays inside the buffer, when it inspects
only bytes of the buffer. -/
theorem Inside.advance (h : Inside buf s) {n : Nat} (hfit : s.buf.offset + n ≤ s.buf.size) {read : List Nat}
    (hread : ∀ i ∈ read, i < buf.size) :
    Inside buf { s with buf := s.buf.advance n, record := s.record.add read (s.buf.advance n).offset } := by
  refine ⟨h.ptr_eq, h.size_eq, Nat.le_trans hfit (Nat.le_of_eq h.size_eq), ?_, ?_⟩
  · intro i hi
    obtain hi | hi := List.mem_append.mp hi
    · exact hread i hi
    · exact h.inspected_lt i hi
  · exact h.climb.step (Nat.le_add_right _ _)

/-- A read of a big-endian number loads its bytes inside the buffer, or fails without
moving. -/
theorem stays_read_be {α : Type} (k : Nat) (ofNat : Nat → α) :
    Stays buf (read k fun cursor => (buffer_read_be cursor k).map fun (v, cursor) => (ofNat v, cursor)) := by
  intro s hs
  rw [read_run, buffer_read_be]
  by_cases hfit : s.buf.offset + k ≤ s.buf.size
  · rw [if_pos hfit]
    apply hs.advance hfit
    intro i hi
    obtain ⟨j, hj, rfl⟩ := List.mem_map.mp hi
    have hlt := List.mem_range.mp hj
    have hsize := hs.size_eq
    omega
  · rw [if_neg hfit]
    exact hs

theorem stays_read_u8 : Stays buf read_u8 := stays_read_be 1 UInt8.ofNat
theorem stays_read_u16 : Stays buf read_u16 := stays_read_be 2 UInt16.ofNat
theorem stays_read_u32 : Stays buf read_u32 := stays_read_be 4 UInt32.ofNat

/-- A store into the structure stays inside the buffer. -/
theorem stays_modifyTx (f : Transaction → Transaction) : Stays buf (modifyTx f) :=
  Triple.modify fun s hs => hs.store (f s.tx)

theorem stays_refuseIf (b : Prop) [Decidable b] (error : ParserStatus) : Stays buf (refuseIf b error) :=
  Triple.ite (fun _ => Triple.throw fun _ => id) fun _ => Triple.pure fun _ => id

/-- A load of a byte of the buffer leaves the cursor where it is. -/
theorem stays_inspect {i : Nat} (hi : i < buf.size) : Stays buf (inspect i) := by
  intro s hs
  rw [inspect_run]
  have hfit : s.buf.offset + 0 ≤ s.buf.size := Nat.le_trans hs.offset_le (Nat.le_of_eq hs.size_eq.symm)
  refine hs.advance hfit fun j hj => ?_
  obtain rfl := List.mem_singleton.mp hj
  exact hi

/-- `text_ok` loads only bytes of the slice it is given. -/
theorem stays_text_ok {p len : Nat} (hfit : p + len ≤ buf.size) (allow_newline : Bool) :
    Stays buf (text_ok p len allow_newline) := by
  induction len generalizing p with
  | zero => exact Triple.pure fun _ => id
  | succ len ih =>
    have hrest : Stays buf (text_ok (p + 1) len allow_newline) := ih (by omega)
    refine (stays_inspect (by omega)).bind fun c => ?_
    exact Triple.ite (fun _ => hrest) fun _ => Triple.ite (fun _ => Triple.pure fun _ => id) fun _ => hrest

/-- The parser is inside the buffer, with the cursor at `p`. -/
def InsideAt (buf : Buffer) (p : Nat) (s : ParserState) : Prop := Inside buf s ∧ s.buf.offset = p

/-- What a seek over a field of `n` bytes at `p` leaves behind: when it has succeeded, the
whole field is inside the buffer. -/
structure Sought (buf : Buffer) (p n : Nat) (fits : Bool) (s : ParserState) : Prop extends Inside buf s where
  end_le : fits = true → p + n ≤ buf.size

/-- The position of the cursor, as the code takes it before it stores a pointer. -/
theorem get_inside :
    Triple (Inside buf) (get : Parser ParserState) (fun a => InsideAt buf a.buf.offset) (Inside buf) :=
  Triple.get fun _ hs => ⟨hs, rfl⟩

section field
variable (p : Nat)

theorem modifyTx_inside (f : Transaction → Transaction) :
    Triple (InsideAt buf p) (modifyTx f) (fun _ => InsideAt buf p) (Inside buf) :=
  Triple.modify fun s hs => ⟨hs.1.store (f s.tx), hs.2⟩

/-- A seek moves over bytes of the buffer, or fails without moving. -/
theorem seek_cur_inside (n : Nat) : Triple (InsideAt buf p) (seek_cur n) (Sought buf p n) (Inside buf) := by
  rintro s ⟨hs, rfl⟩
  rw [seek_cur_run, buffer_seek_cur]
  by_cases hfit : s.buf.offset + n ≤ s.buf.size
  · rw [if_pos hfit]
    exact ⟨hs.advance hfit fun _ hi => absurd hi List.not_mem_nil, fun _ => hs.size_eq ▸ hfit⟩
  · rw [if_neg hfit]
    exact ⟨hs, fun h => by cases h⟩

/-- Behind a refusal of a field that does not fit, the field fits. -/
theorem refuseIf_inside (n : Nat) (fits : Bool) (error : ParserStatus) :
    Triple (Sought buf p n fits) (refuseIf (!fits) error) (fun _ => Sought buf p n true) (Inside buf) := by
  cases fits with
  | false => exact Triple.throw fun _ hs => hs.toInside
  | true => exact Triple.pure fun _ hs => hs

/-- The text of a field is scanned behind a seek over it that has succeeded. -/
theorem text_ok_sought (len : Nat) (allow_newline : Bool) :
    Triple (Sought buf p len true) (text_ok p len allow_newline) (fun _ => Inside buf) (Inside buf) :=
  fun s hs => stays_text_ok (hs.end_le rfl) allow_newline s hs.toInside

end field

/-- A text field is scanned only behind the seek that validates its pointer. -/
theorem stays_read_text_field (field : TextField) (max_len : Nat) : Stays buf (read_text_field field max_len) := by
  refine stays_read_u8.bind fun read => ?_
  cases read with
  | none => exact Triple.pure fun _ => id
  | some len =>
    refine Triple.ite (fun _ => Triple.pure fun _ => id) fun _ => get_inside.bind fun s => ?_
    refine (modifyTx_inside s.buf.offset _).bind fun _ => (seek_cur_inside s.buf.offset len.toNat).bind fun fits => ?_
    cases fits with
    | false => exact Triple.pure fun _ hs => hs.toInside
    | true =>
      refine (text_ok_sought s.buf.offset _ false).bind fun ok => ?_
      refine Triple.ite (fun _ => Triple.pure fun _ => id) fun _ => ?_
      exact (stays_modifyTx (storeLen field len)).bind fun _ => Triple.pure fun _ => id

/-- A text field stays inside the buffer whatever its length byte says. -/
theorem stays_readField (field : TextField) (max_len : Nat) (error : ParserStatus) :
    Stays buf (readField field max_len error) :=
  (stays_read_text_field field max_len).bind fun _ => stays_refuseIf _ error

/-- A block of fixed length is stored before it is known to fit. -/
theorem stays_block (n : Nat) (put : Nat → Transaction → Transaction) (error : ParserStatus) :
    Stays buf (do
      let p := (← get).buf.offset
      modifyTx (put p)
      refuseIf (!(← seek_cur n)) error) := by
  refine get_inside.bind fun s => (modifyTx_inside s.buf.offset _).bind fun _ => ?_
  refine (seek_cur_inside s.buf.offset n).bind fun fits => ?_
  exact (refuseIf_inside s.buf.offset n fits error).conseq (fun _ => id) fun _ _ hs => hs.toInside

/-- The challenge is a block of fixed length. -/
theorem stays_readChallenge : Stays buf readChallenge :=
  stays_block CHALLENGE_LEN (fun p tx => { tx with challenge := some p }) .CHALLENGE_PARSING_ERROR

theorem stays_readAttHash : Stays buf readAttHash :=
  stays_block ATT_HASH_LEN (fun p tx => { tx with att_hash := some p }) .ATTACHMENT_PARSING_ERROR

/-- The body is scanned only behind the seek that validates its pointer. -/
theorem stays_readBody : Stays buf readBody := by
  refine stays_read_u16.bind fun read => ?_
  cases read with
  | none => exact Triple.throw fun _ => id
  | some body_len =>
    refine (stays_refuseIf _ _).bind fun _ => get_inside.bind fun s => (modifyTx_inside s.buf.offset _).bind fun _ => ?_
    refine (seek_cur_inside s.buf.offset _).bind fun fits => (refuseIf_inside s.buf.offset _ fits _).bind fun _ => ?_
    refine (text_ok_sought s.buf.offset _ true).bind fun ok => ?_
    exact (stays_refuseIf _ _).bind fun _ => stays_modifyTx _

theorem stays_readAttSize : Stays buf readAttSize := by
  refine stays_read_u32.bind fun read => ?_
  cases read with
  | none => exact Triple.throw fun _ => id
  | some size => exact stays_modifyTx _

/-- The optional tail stays inside the buffer whatever its count says. -/
theorem stays_readAttachment : Stays buf readAttachment := by
  refine (stays_modifyTx _).bind fun _ => stays_read_u8.bind fun read => ?_
  cases read with
  | none => exact Triple.throw fun _ => id
  | some att_count =>
    refine (stays_refuseIf _ _).bind fun _ => Triple.ite (fun _ => ?_) fun _ => Triple.pure fun _ => id
    refine (stays_readField _ _ _).bind fun _ => stays_readAttSize.bind fun _ => ?_
    exact stays_readAttHash.bind fun _ => stays_modifyTx _

/-- The size cap reads no byte of the buffer. -/
theorem stays_readLimit : Stays buf readLimit :=
  get_inside.bind fun _ => (stays_refuseIf _ _).conseq (fun _ hs => hs.1) fun _ _ => id

/-- Every statement of the parser stays inside the buffer. -/
theorem stays_readPayload : Stays buf readPayload := by
  refine stays_readLimit.bind fun _ => stays_readChallenge.bind fun _ => ?_
  refine (stays_readField _ _ _).bind fun _ => (stays_readField _ _ _).bind fun _ => ?_
  exact (stays_readField _ _ _).bind fun _ => stays_readBody.bind fun _ => stays_readAttachment

end stays

/-- The slices of a structure, each a pointer and a length, in the order of the wire
format. -/
def slices (tx : Transaction) : List (Ptr × Nat) :=
  [(tx.challenge, CHALLENGE_LEN), (tx.from_, tx.from_len.toNat), (tx.to_, tx.to_len.toNat),
    (tx.subject, tx.subject_len.toNat), (tx.body, tx.body_len.toNat)] ++
    if tx.has_attachment = 1 then [(tx.att_name, tx.att_name_len.toNat), (tx.att_hash, ATT_HASH_LEN)] else []

/-- The slices lie between `lo` and `hi`, each behind the end of the one before. -/
def InOrder (lo hi : Nat) : List (Ptr × Nat) → Prop
  | [] => lo ≤ hi
  | (p, len) :: rest => ∃ start, p = some start ∧ lo ≤ start ∧ InOrder (start + len) hi rest

/-- The slices the parser stores for an email are in order, inside its payload. -/
theorem layout_inOrder (e : Email) (off : Nat) : InOrder off (off + e.wire.length) (slices (layout e off)) := by
  have hsender := e.sender.property.toNat_ofNat_length (by decide)
  have hrecipient := e.recipient.property.toNat_ofNat_length (by decide)
  have hsubject := e.subject.property.toNat_ofNat_length (by decide)
  have hbody : (UInt16.ofNat e.body.val.length).toNat = e.body.val.length :=
    UInt16.toNat_ofNat_of_lt' (Nat.lt_of_le_of_lt e.body.property.bounded (by decide))
  rw [e.wire_length]
  cases hatt : e.attachment with
  | none =>
    simp [slices, layout, storeTail, hatt, InOrder, hsender, hrecipient, hsubject, hbody, CHALLENGE_LEN]
    omega
  | some att =>
    have hname := att.name.property.toNat_ofNat_length (by decide)
    simp [slices, layout, storeTail, hatt, InOrder, hsender, hrecipient, hsubject, hbody, hname, CHALLENGE_LEN,
      ATT_HASH_LEN]
    omega

/-- The parser never leaves its buffer, whatever its result. It inspects only bytes of the
buffer. In the order of time the positions of its cursor start at the offset it was given,
end at the one it leaves behind, never decrease and never exceed the size. The slices of an
accepted payload are in order, inside the buffer. -/
structure NeverLeaves (buf : Buffer) (tx : Transaction) : Prop where
  inspected_lt : ∀ i ∈ (transaction_deserialize buf tx).2.record.inspected, i < buf.size
  starts : (transaction_deserialize buf tx).2.record.cursors.reverse.head? = some buf.offset
  ends : (transaction_deserialize buf tx).2.record.cursors.reverse.getLast? =
    some (transaction_deserialize buf tx).2.buf.offset
  never_decreases : (transaction_deserialize buf tx).2.record.cursors.reverse.Pairwise (· ≤ ·)
  never_exceeds : ∀ offset ∈ (transaction_deserialize buf tx).2.record.cursors, offset ≤ buf.size
  ptr_eq : (transaction_deserialize buf tx).2.buf.ptr = buf.ptr
  size_eq : (transaction_deserialize buf tx).2.buf.size = buf.size
  offset_le : buf.offset ≤ (transaction_deserialize buf tx).2.buf.offset
  le_size : (transaction_deserialize buf tx).2.buf.offset ≤ buf.size
  inOrder : (transaction_deserialize buf tx).1 = .PARSING_OK →
    InOrder buf.offset buf.size (slices (transaction_deserialize buf tx).2.tx)

/-- The state the parser leaves behind is that of its last statement. -/
theorem final_readPayload (buf : Buffer) (tx : Transaction) :
    (transaction_deserialize buf tx).2 = final (readPayload.run (.start buf tx)) := by
  rw [transaction_deserialize]
  cases readPayload.run (.start buf tx) <;> rfl

/-- The slices of an accepted payload are in order, from where the cursor was to the end of
the buffer. -/
theorem transaction_deserialize_inOrder {buf : Buffer} (hvalid : buf.Valid) {tx : Transaction}
    (hok : (transaction_deserialize buf tx).1 = .PARSING_OK) :
    InOrder buf.offset buf.size (slices (transaction_deserialize buf tx).2.tx) := by
  obtain ⟨e, s, -, hwire, hresult, htx⟩ | ⟨-, herror⟩ := transaction_deserialize_cases hvalid tx
  · have hlen := hvalid.rest_length
    have hoffset := hvalid.offset_le
    have hend : buf.size = buf.offset + e.wire.length := by
      rw [hwire] at hlen
      omega
    rw [hresult, htx, hend]
    exact layout_inOrder e buf.offset
  · exact absurd hok herror

/-- On a buffer of any size and content, from any offset inside it, the parser reads only
bytes of the buffer and moves its cursor only forward and never past the end, on every
error path as on success; and what it accepts lies in the buffer, slice behind slice. -/
theorem transaction_deserialize_never_leaves {buf : Buffer} (hvalid : buf.Valid) (tx : Transaction) :
    NeverLeaves buf tx := by
  have hinside : Inside buf (transaction_deserialize buf tx).2 := by
    rw [final_readPayload]
    exact stays_readPayload.final_of_keeps (.start hvalid tx)
  have hclimb := hinside.climb
  exact
    { inspected_lt := hinside.inspected_lt
      starts := by rw [List.head?_reverse, hclimb.last_eq]
      ends := by rw [List.getLast?_reverse, hclimb.head_eq]
      never_decreases := hclimb.reverse_sorted
      never_exceeds := fun _ hoffset => Nat.le_trans (hclimb.le_now hoffset) hinside.offset_le
      ptr_eq := hinside.ptr_eq
      size_eq := hinside.size_eq
      offset_le := hclimb.start_le
      le_size := hinside.offset_le
      inOrder := transaction_deserialize_inOrder hvalid }

/-- The payload of the smallest email is parsed inside its bytes. -/
theorem smallest_never_leaves :
    (transaction_deserialize (.ofBytes Email.smallest.wire) .zero).1 = .PARSING_OK ∧
      NeverLeaves (.ofBytes Email.smallest.wire) .zero :=
  ⟨by decide +kernel, transaction_deserialize_never_leaves (Buffer.ofBytes_valid _) .zero⟩

end hardmail.deserialize
