import HardMail.App.State
import HardMail.Transaction.Accepts

open memory codec

namespace hardmail

open deserialize

namespace GlobalCtx

variable (G : GlobalCtx)

/-- `raw_tx[0..raw_tx_len)` -/
def payload : List UInt8 := G.tx_info.raw_tx.toList.take G.tx_info.raw_tx_len

/-- The buffer `process_transaction` parses. -/
def payloadBuffer : Buffer := ⟨G.tx_info.raw_tx.toList, G.tx_info.raw_tx_len, 0⟩

/-- What is received lies inside the raw buffer, as long as its length is within the buffer. -/
theorem payloadBuffer_valid (hlen : G.tx_info.raw_tx_len ≤ MAX_TRANSACTION_LEN) :
    G.payloadBuffer.Valid :=
  ⟨Nat.zero_le _, by rw [payloadBuffer, G.tx_info.raw_tx.length_toList]; exact hlen⟩

/-- Parsing what has been received either stores the email whose payload it is, or
fails on something that is no email's payload. -/
theorem transaction_deserialize_payload (old : Transaction) :
    (∃ e st, G.payload = e.wire ∧ G.tx_info.raw_tx_len ≤ MAX_TRANSACTION_LEN ∧
      transaction_deserialize G.payloadBuffer old = (.PARSING_OK, st) ∧ st.tx = layout e 0 ∧
      (layout e 0).Represents G.tx_info.raw_tx.toList e) ∨
    ((G.tx_info.raw_tx_len ≤ MAX_TRANSACTION_LEN → ∀ e : Email, G.payload ≠ e.wire) ∧
      (transaction_deserialize G.payloadBuffer old).1 ≠ .PARSING_OK) := by
  by_cases hlen : G.tx_info.raw_tx_len ≤ MAX_TRANSACTION_LEN
  · have hrest : G.payloadBuffer.rest = G.payload := rfl
    obtain ⟨e, st, -, hwire, hresult, htx⟩ | ⟨hno, herror⟩ :=
      transaction_deserialize_cases (G.payloadBuffer_valid hlen) old
    · left
      rw [hrest] at hwire
      have hmem : G.tx_info.raw_tx.toList.drop 0 = e.wire ++ G.tx_info.raw_tx.toList.drop G.tx_info.raw_tx_len := by
        rw [List.drop_zero, ← hwire, payload, List.take_append_drop]
      exact ⟨e, st, hwire, hlen, hresult, htx, layout_represents hmem⟩
    · right
      refine ⟨fun _ e hwire => hno ⟨hlen, e, ?_⟩, herror⟩
      rw [hrest, hwire]
  · right
    refine ⟨fun hle => absurd hle hlen, ?_⟩
    rw [transaction_deserialize_too_long (Nat.not_le.mp hlen) old]
    exact ParserStatus.noConfusion

/-- The payload of an email is accepted, whatever the structure held before. -/
theorem transaction_deserialize_payload_ok {e : Email} (hlen : G.tx_info.raw_tx_len ≤ MAX_TRANSACTION_LEN)
    (hwire : G.payload = e.wire) (old : Transaction) :
    (transaction_deserialize G.payloadBuffer old).1 = .PARSING_OK ∧
      (layout e 0).Represents G.tx_info.raw_tx.toList e := by
  obtain ⟨e', st, hwire', -, hresult, -, hrep⟩ | ⟨hno, -⟩ := G.transaction_deserialize_payload old
  · obtain rfl := Email.wire_injective (hwire.symm.trans hwire')
    exact ⟨by rw [hresult], hrep⟩
  · exact absurd hwire (hno hlen e)

/-- The payload received so far is accepted by the parser, and the structure holds
what the parser stored for it. -/
def Parsed : Prop :=
  ∃ old, (transaction_deserialize G.payloadBuffer old).1 = .PARSING_OK ∧
    (transaction_deserialize G.payloadBuffer old).2.tx = G.tx_info.transaction

/-- The payload of an email has been parsed into the context and hashed. -/
structure Hashed (sdk : Sdk) (e : Email) : Prop where
  room : G.tx_info.raw_tx_len ≤ MAX_TRANSACTION_LEN
  payload_eq : G.payload = e.wire
  accepted : ∀ old, (transaction_deserialize G.payloadBuffer old).1 = .PARSING_OK
  represents : G.tx_info.transaction.Represents G.tx_info.raw_tx.toList e
  m_hash_eq : G.tx_info.m_hash = sdk.cx_hash_sha256 G.payload

variable {G}

/-- A payload is parsed and hashed when the stored structure is the layout of its email and
the stored hash is its digest. -/
theorem Hashed.of_layout {sdk : Sdk} {e : Email} (hroom : G.tx_info.raw_tx_len ≤ MAX_TRANSACTION_LEN)
    (hwire : G.payload = e.wire) (htx : G.tx_info.transaction = layout e 0)
    (hhash : G.tx_info.m_hash = sdk.cx_hash_sha256 e.wire) : G.Hashed sdk e := by
  have hok := G.transaction_deserialize_payload_ok hroom hwire
  exact ⟨hroom, hwire, fun old => (hok old).1, htx ▸ (hok .zero).2, by rw [hhash, hwire]⟩

/-- Whether a payload is parsed and hashed depends on the buffer, its length, the structure
and the hash, and on nothing else of the context. -/
theorem Hashed.congr {G' : GlobalCtx} {sdk : Sdk} {e : Email} (h : G.Hashed sdk e)
    (hraw : G'.tx_info.raw_tx = G.tx_info.raw_tx) (hlen : G'.tx_info.raw_tx_len = G.tx_info.raw_tx_len)
    (htx : G'.tx_info.transaction = G.tx_info.transaction) (hhash : G'.tx_info.m_hash = G.tx_info.m_hash) :
    G'.Hashed sdk e := by
  have hpayload : G'.payload = G.payload := by rw [payload, payload, hraw, hlen]
  have hbuffer : G'.payloadBuffer = G.payloadBuffer := by rw [payloadBuffer, payloadBuffer, hraw, hlen]
  refine ⟨hlen ▸ h.room, hpayload.trans h.payload_eq, fun old => hbuffer ▸ h.accepted old, ?_, ?_⟩
  · rw [htx, hraw]
    exact h.represents
  · rw [hhash, hpayload]
    exact h.m_hash_eq

/-- A parsed payload is that of an email, and the structure points at that email's fields in
the raw buffer. -/
theorem Parsed.represents (h : G.Parsed) :
    ∃ e : Email, G.payload = e.wire ∧ G.tx_info.raw_tx_len ≤ MAX_TRANSACTION_LEN ∧
      G.tx_info.transaction.Represents G.tx_info.raw_tx.toList e := by
  obtain ⟨old, hok, htx⟩ := h
  obtain ⟨e, st, hwire, hlen, hresult, hst, hrep⟩ | ⟨-, herror⟩ := G.transaction_deserialize_payload old
  · refine ⟨e, hwire, hlen, ?_⟩
    rw [← htx, hresult, hst]
    exact hrep
  · exact absurd hok herror

end GlobalCtx

end hardmail
