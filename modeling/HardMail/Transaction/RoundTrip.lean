import HardMail.Transaction.Accepts
import HardMail.Transaction.Encoding
import HardMail.Transaction.Host

open memory codec

namespace hardmail

open deserialize serialize

/-- Serializing a structure that represents an email succeeds exactly when the
payload fits in the output, and then leaves the payload at its start. -/
theorem transaction_serialize_of_represents {mem out : List UInt8} {tx : Transaction} {e : Email}
    {out_len : Nat} (h : tx.Represents mem e) (hout : out_len ≤ out.length) :
    (out_len < e.wire.length ∧ (transaction_serialize mem tx out out_len).1 = -1) ∨
    (e.wire.length ≤ out_len ∧ (transaction_serialize mem tx out out_len).1 = (e.wire.length : Int) ∧
      (transaction_serialize mem tx out out_len).2.out.take e.wire.length = e.wire) := by
  obtain ⟨hshort, -, w, -, -, hresult⟩ | ⟨hfit, w, hw, hresult⟩ :=
    transaction_serialize_cases h.sliced hout
  · left
    rw [h.encoding_eq_wire] at hshort
    exact ⟨hshort, by rw [hresult]⟩
  · right
    rw [h.encoding_eq_wire] at hfit hw hresult
    rw [hresult]
    exact ⟨hfit, rfl, hw.take⟩

/-- A structure represents at most one email in a given memory. -/
theorem Transaction.Represents.unique {mem : List UInt8} {tx : Transaction} {a b : Email}
    (ha : tx.Represents mem a) (hb : tx.Represents mem b) : a = b := by
  apply Email.wire_injective
  rw [← ha.encoding_eq_wire, hb.encoding_eq_wire]

/-- Serializing what was parsed gives back the accepted payload, in every output
that has room for it, so no two accepted payloads decode to the same email. -/
theorem serialize_undoes_deserialize :
    (∀ (p spare out : List UInt8) (tx : Transaction) (out_len : Nat),
      (transaction_deserialize ⟨p ++ spare, p.length, 0⟩ tx).1 = .PARSING_OK →
      p.length ≤ out_len → out_len ≤ out.length →
      let parsed := (transaction_deserialize ⟨p ++ spare, p.length, 0⟩ tx).2.tx
      let result := transaction_serialize (p ++ spare) parsed out out_len
      result.1 = (p.length : Int) ∧ result.2.out.take p.length = p) ∧
    (∀ (p q spare spare' : List UInt8) (tx tx' : Transaction) (e : Email),
      (transaction_deserialize ⟨p ++ spare, p.length, 0⟩ tx).1 = .PARSING_OK →
      (transaction_deserialize ⟨q ++ spare', q.length, 0⟩ tx').1 = .PARSING_OK →
      (transaction_deserialize ⟨p ++ spare, p.length, 0⟩ tx).2.tx.Represents (p ++ spare) e →
      (transaction_deserialize ⟨q ++ spare', q.length, 0⟩ tx').2.tx.Represents (q ++ spare') e →
      p = q) := by
  constructor
  · intro p spare out tx out_len hok hfit hout
    obtain ⟨e, rfl, -, hrep⟩ := transaction_deserialize_represents hok
    obtain ⟨hshort, -⟩ | ⟨-, hlen, hbytes⟩ := transaction_serialize_of_represents hrep hout
    · omega
    · exact ⟨hlen, hbytes⟩
  · intro p q spare spare' tx tx' e hp hq hpe hqe
    obtain ⟨a, hpa, -, hpa'⟩ := transaction_deserialize_represents hp
    obtain ⟨b, hqb, -, hqb'⟩ := transaction_deserialize_represents hq
    rw [hpa, hqb, hpa'.unique hpe, hqb'.unique hqe]

theorem smallest_accepted (spare : List UInt8) (tx : Transaction) :
    (transaction_deserialize ⟨Email.smallest.wire ++ spare, Email.smallest.wire.length, 0⟩ tx).1 =
      .PARSING_OK :=
  (transaction_deserialize_ok_iff Email.smallest.wire spare tx).mpr
    ⟨by rw [Email.smallest_wire_length]; decide, .smallest, rfl⟩

/-- The smallest email is parsed, and written back as it was. -/
theorem smallest_serialize_undoes_deserialize :
    let parsed :=
      (transaction_deserialize ⟨Email.smallest.wire ++ [], Email.smallest.wire.length, 0⟩ .zero).2.tx
    let result := transaction_serialize (Email.smallest.wire ++ []) parsed (List.replicate 40 0) 40
    result.1 = (Email.smallest.wire.length : Int) ∧
      result.2.out.take Email.smallest.wire.length = Email.smallest.wire :=
  serialize_undoes_deserialize.1 _ [] _ .zero 40 (smallest_accepted [] .zero)
    (by rw [Email.smallest_wire_length]; decide) (by simp)

/-- The serializer and the host builder give the same bytes for every email within
the documented bounds. The parser reads them back as that email exactly when they
stay under the size cap, which the bounds do not ensure. -/
theorem deserialize_undoes_serialize_iff {mem out : List UInt8} {tx : Transaction} {e : Email}
    {out_len : Nat} (hrep : tx.Represents mem e) (hout : out_len ≤ out.length)
    (hok : (transaction_serialize mem tx out out_len).1 ≠ -1) (spare : List UInt8) (old : Transaction) :
    let result := transaction_serialize mem tx out out_len
    let p := result.2.out.take result.1.toNat
    let parsed := transaction_deserialize ⟨p ++ spare, p.length, 0⟩ old
    (∀ h : host.Email, h.Describes e → h.serialize = some p) ∧
    ((parsed.1 = .PARSING_OK ∧ parsed.2.tx.Represents (p ++ spare) e) ↔
      e.sender.val.length + e.recipient.val.length + e.subject.val.length + e.body.val.length +
        (e.attachment.elim 0 fun att => 37 + att.name.val.length) ≤ 2578) := by
  obtain ⟨-, hfail⟩ | ⟨-, hlen, hbytes⟩ := transaction_serialize_of_represents hrep hout
  · exact absurd hfail hok
  have hwire := e.wire_length
  simp only [hlen, Int.toNat_natCast, hbytes]
  refine ⟨fun h hdesc => host.Email.serialize_of_describes hdesc, ?_⟩
  constructor
  · rintro ⟨hparsed, -⟩
    have hcap := ((transaction_deserialize_ok_iff e.wire spare old).mp hparsed).1
    simp only [MAX_TX_LEN] at hcap
    omega
  · intro hfields
    have hcap : e.wire.length ≤ MAX_TX_LEN := by
      simp only [MAX_TX_LEN]
      omega
    obtain ⟨s, hresult, htx⟩ := transaction_deserialize_wire spare old hcap
    rw [payloadBuffer] at hresult
    rw [hresult, htx]
    exact ⟨rfl, layout_represents rfl⟩

/-- The payload of an email is a memory in which the parser's layout represents it. -/
theorem layout_represents_wire (e : Email) : (layout e 0).Represents e.wire e :=
  layout_represents (List.append_nil e.wire).symm

/-- The smallest email is written into an array of its size. -/
theorem smallest_serializes :
    (transaction_serialize Email.smallest.wire (layout .smallest 0) (List.replicate 26 0) 26).1 = 26 := by
  obtain ⟨hshort, -⟩ | ⟨-, hlen, -⟩ := transaction_serialize_of_represents
    (layout_represents_wire .smallest) (Nat.le_of_eq (List.length_replicate (n := 26) (a := 0)).symm)
  · rw [Email.smallest_wire_length] at hshort
    omega
  · rw [hlen, Email.smallest_wire_length]
    rfl

/-- The smallest email is written, and read back as it was. -/
theorem smallest_round_trip_iff :
    let result :=
      transaction_serialize Email.smallest.wire (layout .smallest 0) (List.replicate 26 0) 26
    let p := result.2.out.take result.1.toNat
    let parsed := transaction_deserialize ⟨p ++ [], p.length, 0⟩ .zero
    (∀ h : host.Email, h.Describes .smallest → h.serialize = some p) ∧
    ((parsed.1 = .PARSING_OK ∧ parsed.2.tx.Represents (p ++ []) .smallest) ↔ 4 ≤ 2578) :=
  deserialize_undoes_serialize_iff (layout_represents_wire .smallest) (by simp)
    (by rw [smallest_serializes]; decide) [] .zero

/-- The largest email within the documented bounds serializes but is refused. -/
theorem largest_refused :
    (layout .largest 0).Represents Email.largest.wire .largest ∧
    let result :=
      transaction_serialize Email.largest.wire (layout .largest 0) (List.replicate 2627 0) 2627
    let p := result.2.out.take result.1.toNat
    result.1 = 2627 ∧
      (transaction_deserialize ⟨p ++ [], p.length, 0⟩ .zero).1 = .WRONG_LENGTH_ERROR := by
  refine ⟨layout_represents_wire .largest, ?_⟩
  obtain ⟨hshort, -⟩ | ⟨-, hlen, hbytes⟩ := transaction_serialize_of_represents
    (layout_represents_wire .largest) (Nat.le_of_eq (List.length_replicate (n := 2627) (a := 0)).symm)
  · rw [Email.largest_wire_length] at hshort
    omega
  · simp only [hlen, Int.toNat_natCast, hbytes]
    refine ⟨by rw [Email.largest_wire_length]; rfl, transaction_deserialize_too_long ?_ .zero⟩
    change MAX_TX_LEN < Email.largest.wire.length
    rw [Email.largest_wire_length]
    decide

end hardmail
