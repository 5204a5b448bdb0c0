import HardMail.Transaction.Represents

open memory codec

namespace hardmail.deserialize

/-- The size cap gives up before anything is read. -/
theorem readPayload_too_long {s : ParserState} (hsize : s.buf.size > MAX_TX_LEN) :
    readPayload.run s = .error .WRONG_LENGTH_ERROR s := by
  simp [readPayload, readLimit, hsize]

/-- Under the size cap the parser goes on with the fields. -/
theorem readPayload_run {s : ParserState} (hsize : ¬ s.buf.size > MAX_TX_LEN) :
    readPayload.run s = readFields.run s := by
  simp [readPayload, readLimit, hsize]

/-- A buffer over the size cap is refused whatever its bytes are. -/
theorem transaction_deserialize_too_long {buf : Buffer} (hsize : buf.size > MAX_TX_LEN)
    (tx : Transaction) : (transaction_deserialize buf tx).1 = .WRONG_LENGTH_ERROR := by
  rw [transaction_deserialize, readPayload_too_long (s := .start buf tx) hsize]

/-- The outcome on any buffer: the unread bytes are the payload of an email under
the size cap, which is then stored, or the status is an error. -/
theorem transaction_deserialize_cases {buf : Buffer} (hvalid : buf.Valid) (tx : Transaction) :
    (∃ e s, buf.size ≤ MAX_TX_LEN ∧ buf.rest = e.wire ∧
      transaction_deserialize buf tx = (.PARSING_OK, s) ∧ s.tx = layout e buf.offset) ∨
    (¬ (buf.size ≤ MAX_TX_LEN ∧ ∃ e : Email, buf.rest = e.wire) ∧
      (transaction_deserialize buf tx).1 ≠ .PARSING_OK) := by
  by_cases hsize : buf.size > MAX_TX_LEN
  · right
    refine ⟨fun h => Nat.not_lt.mpr h.1 hsize, ?_⟩
    rw [transaction_deserialize_too_long hsize]
    exact ParserStatus.noConfusion
  rw [transaction_deserialize, readPayload_run (s := .start buf tx) hsize]
  obtain ⟨e, tail, s, hrest, hfields, hbuf, htx⟩ | ⟨hno, error, s, herror, hfields⟩ :=
    readFields_parses (.start buf tx) hvalid
  · have hlen := hvalid.rest_length
    have hoffset := hvalid.offset_le
    rw [emailCodec_encode] at hrest hbuf
    change buf.rest = e.wire ++ tail at hrest
    rw [hrest, List.length_append] at hlen
    rw [hfields]
    have hend : s.buf.offset = buf.offset + e.wire.length := by rw [hbuf]; rfl
    have hsame : s.buf.size = buf.size := by rw [hbuf]; rfl
    by_cases hfit : tail = []
    · left
      refine ⟨e, s, Nat.not_lt.mp hsize, by rw [hrest, hfit, List.append_nil], ?_, htx⟩
      rw [hfit, List.length_nil] at hlen
      have hexact : s.buf.offset = s.buf.size := by omega
      simp [hexact]
    · right
      have hmore := List.length_pos_iff.mpr hfit
      constructor
      · rintro ⟨-, e', heq⟩
        rw [hrest] at heq
        exact hfit (Email.eq_of_wire_append heq).2
      · have hleft : s.buf.offset ≠ s.buf.size := by omega
        simp [hleft]
  · right
    rw [hfields]
    refine ⟨?_, herror⟩
    rintro ⟨-, e, heq⟩
    apply hno e []
    rw [emailCodec_encode, List.append_nil]
    exact heq

section payload
variable (p spare : List UInt8) (tx : Transaction)

/-- A payload at the start of a memory that may go on behind it. -/
def payloadBuffer : Buffer := ⟨p ++ spare, p.length, 0⟩

theorem payloadBuffer_valid : (payloadBuffer p spare).Valid :=
  ⟨Nat.zero_le _, by simp [payloadBuffer]⟩

@[simp] theorem payloadBuffer_rest : (payloadBuffer p spare).rest = p := by
  simp [payloadBuffer, Buffer.rest]

/-- The payloads the parser accepts are the documented encodings under the cap. -/
theorem transaction_deserialize_ok_iff :
    (transaction_deserialize (payloadBuffer p spare) tx).1 = .PARSING_OK ↔
      p.length ≤ MAX_TX_LEN ∧ ∃ e : Email, p = e.wire := by
  obtain ⟨e, s, hsize, hrest, hresult, -⟩ | ⟨hno, herror⟩ :=
    transaction_deserialize_cases (payloadBuffer_valid p spare) tx
  · rw [payloadBuffer_rest] at hrest
    rw [hresult]
    exact iff_of_true rfl ⟨hsize, e, hrest⟩
  · rw [payloadBuffer_rest] at hno
    exact iff_of_false herror hno

/-- Reading the payload of an email under the cap stores that email, whatever the
structure held before. -/
theorem transaction_deserialize_wire {e : Email} (hlen : e.wire.length ≤ MAX_TX_LEN) :
    ∃ s, transaction_deserialize (payloadBuffer e.wire spare) tx = (.PARSING_OK, s) ∧
      s.tx = layout e 0 := by
  obtain ⟨e', s, -, hrest, hresult, htx⟩ | ⟨hno, -⟩ :=
    transaction_deserialize_cases (payloadBuffer_valid e.wire spare) tx
  · rw [payloadBuffer_rest] at hrest
    obtain rfl := Email.wire_injective hrest
    exact ⟨s, hresult, htx⟩
  · exact absurd ⟨hlen, e, payloadBuffer_rest _ _⟩ hno

end payload

/-- What the parser leaves behind for an accepted payload represents the email the
payload encodes. -/
theorem transaction_deserialize_represents {p spare : List UInt8} {tx : Transaction}
    (hok : (transaction_deserialize ⟨p ++ spare, p.length, 0⟩ tx).1 = .PARSING_OK) :
    ∃ e : Email, p = e.wire ∧ p.length ≤ MAX_TX_LEN ∧
      (transaction_deserialize ⟨p ++ spare, p.length, 0⟩ tx).2.tx.Represents (p ++ spare) e := by
  obtain ⟨hlen, e, rfl⟩ := (transaction_deserialize_ok_iff p spare tx).mp hok
  obtain ⟨s, hresult, htx⟩ := transaction_deserialize_wire spare tx hlen
  rw [payloadBuffer] at hresult
  refine ⟨e, rfl, hlen, ?_⟩
  rw [hresult, htx]
  exact layout_represents rfl

/-- The parser accepts exactly the documented grammar below the size cap, and what
it stores for an accepted payload is exactly the email of that payload, whatever
the memory behind the payload and the structure held before. -/
theorem transaction_deserialize_spec (p spare : List UInt8) (tx : Transaction) :
    ((transaction_deserialize ⟨p ++ spare, p.length, 0⟩ tx).1 = .PARSING_OK ↔
      p.length ≤ MAX_TX_LEN ∧ ∃ e : Email, p = e.wire) ∧
    ((transaction_deserialize ⟨p ++ spare, p.length, 0⟩ tx).1 = .PARSING_OK →
      ∃ e : Email, p = e.wire ∧
        (transaction_deserialize ⟨p ++ spare, p.length, 0⟩ tx).2.tx.Represents (p ++ spare) e) := by
  refine ⟨transaction_deserialize_ok_iff p spare tx, ?_⟩
  intro hok
  obtain ⟨e, hp, -, hrep⟩ := transaction_deserialize_represents hok
  exact ⟨e, hp, hrep⟩

end hardmail.deserialize
