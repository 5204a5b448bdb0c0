import HardMail.Email

open codec

namespace hardmail.host

/-- `str.encode("ascii")`, which raises on any other character. -/
def encode_ascii (s : List Char) : Option (List UInt8) :=
  if s.all (·.toNat < 128) then some (s.map fun c => UInt8.ofNat c.toNat) else none

/-- `int.to_bytes(size, byteorder="big")`, which raises when the number does not fit. -/
def to_bytes (n size : Nat) : Option (List UInt8) :=
  if n < 256 ^ size then some (beBytes size n) else none

def hexValue (c : Char) : Option Nat :=
  if '0' ≤ c ∧ c ≤ '9' then some (c.toNat - '0'.toNat)
  else if 'a' ≤ c ∧ c ≤ 'f' then some (c.toNat - 'a'.toNat + 10)
  else if 'A' ≤ c ∧ c ≤ 'F' then some (c.toNat - 'A'.toNat + 10)
  else none

def isSpace (c : Char) : Bool := c = ' ' ∨ 0x09 ≤ c.toNat ∧ c.toNat ≤ 0x0d

/-- `bytes.fromhex`, which skips white space between two bytes. -/
def fromhex : List Char → Option (List UInt8)
  | [] => some []
  | top :: rest =>
    if isSpace top then fromhex rest
    else match rest with
      | [] => none
      | bot :: rest => do
        let high ← hexValue top
        let low ← hexValue bot
        return UInt8.ofNat (16 * high + low) :: (← fromhex rest)

/-- A failed `assert` raises. -/
def assert (b : Prop) [Decidable b] : Option Unit := if b then some () else none

structure Attachment where
  name : List Char
  size : Nat
  sha256_hex : List Char

structure Email where
  challenge : List UInt8
  sender : List Char
  recipient : List Char
  subject : List Char
  body : List Char
  attachment : Option Attachment

def Attachment.serialize (a : Attachment) : Option (List UInt8) := do
  let name ← encode_ascii a.name
  assert (1 ≤ name.length ∧ name.length ≤ MAX_ATT_NAME_LEN)
  return [1] ++ (← to_bytes name.length 1) ++ name ++ (← to_bytes a.size 4) ++ (← fromhex a.sha256_hex)

/-- `_text_field` -/
def text_field (value : List Char) (max_len : Nat) : Option (List UInt8) := do
  let raw ← encode_ascii value
  assert (1 ≤ raw.length ∧ raw.length ≤ max_len)
  return (← to_bytes raw.length 1) ++ raw

/-- The bytes the builder returns, or `none` when it raises. -/
def Email.serialize (e : Email) : Option (List UInt8) := do
  assert (e.challenge.length = CHALLENGE_LEN)
  let body ← encode_ascii e.body
  assert (1 ≤ body.length ∧ body.length ≤ MAX_BODY_LEN)
  return e.challenge ++ (← text_field e.sender MAX_FROM_LEN) ++
    (← text_field e.recipient MAX_TO_LEN) ++ (← text_field e.subject MAX_SUBJECT_LEN) ++
    (← to_bytes body.length 2) ++ body ++
    (← e.attachment.elim (some [0]) Attachment.serialize)

/-- The builder's attachment object for an attachment. -/
structure Attachment.Describes (a : Attachment) (att : hardmail.Attachment) : Prop where
  name : encode_ascii a.name = some att.name.val
  size : a.size = att.size.toNat
  hash : fromhex a.sha256_hex = some att.hash.val

/-- The builder's object for an email. -/
structure Email.Describes (h : Email) (e : hardmail.Email) : Prop where
  challenge : h.challenge = e.challenge.val
  sender : encode_ascii h.sender = some e.sender.val
  recipient : encode_ascii h.recipient = some e.recipient.val
  subject : encode_ascii h.subject = some e.subject.val
  body : encode_ascii h.body = some e.body.val
  attachment : match h.attachment, e.attachment with
    | none, none => True
    | some a, some att => a.Describes att
    | _, _ => False

theorem assert_of {b : Prop} [Decidable b] (h : b) : assert b = some () := if_pos h

theorem to_bytes_of_lt {n size : Nat} (h : n < 256 ^ size) : to_bytes n size = some (beBytes size n) :=
  if_pos h

/-- A text that is encoded within its bound is written behind its length. -/
theorem text_field_of_encode {s : List Char} {max : Nat} {t : Text Printable max}
    (hencode : encode_ascii s = some t.val) (hmax : max < 256) :
    text_field s max = some (beBytes 1 t.val.length ++ t.val) := by
  have hbounds : 1 ≤ t.val.length ∧ t.val.length ≤ max := ⟨t.property.nonempty, t.property.bounded⟩
  have hsize : t.val.length < 256 ^ 1 := by omega
  simp only [text_field, hencode, Option.bind_eq_bind, Option.bind_some, assert_of hbounds,
    to_bytes_of_lt hsize]
  rfl

/-- The builder writes the attachment that its object describes. -/
theorem Attachment.serialize_of_describes {a : Attachment} {att : hardmail.Attachment}
    (h : a.Describes att) : a.serialize = some (1 :: att.wire) := by
  have hbounds : 1 ≤ att.name.val.length ∧ att.name.val.length ≤ MAX_ATT_NAME_LEN :=
    ⟨att.name.property.nonempty, att.name.property.bounded⟩
  have hname : att.name.val.length < 256 ^ 1 := Nat.lt_of_le_of_lt hbounds.2 (by decide)
  have hsize : att.size.toNat < 256 ^ 4 := att.size.toNat_lt
  simp only [Attachment.serialize, h.name, h.size, h.hash, Option.bind_eq_bind, Option.bind_some,
    assert_of hbounds, to_bytes_of_lt hname, to_bytes_of_lt hsize, hardmail.Attachment.wire]
  simp

/-- For an email within the documented bounds the builder raises nothing and
returns the documented encoding, of whatever length. -/
theorem Email.serialize_of_describes {h : Email} {e : hardmail.Email} (hdesc : h.Describes e) :
    h.serialize = some e.wire := by
  have hchallenge : e.challenge.val.length = CHALLENGE_LEN := e.challenge.property
  have hbounds : 1 ≤ e.body.val.length ∧ e.body.val.length ≤ MAX_BODY_LEN :=
    ⟨e.body.property.nonempty, e.body.property.bounded⟩
  have hbody : e.body.val.length < 256 ^ 2 := Nat.lt_of_le_of_lt hbounds.2 (by decide)
  have hsender := text_field_of_encode hdesc.sender (by decide)
  have hrecipient := text_field_of_encode hdesc.recipient (by decide)
  have hsubject := text_field_of_encode hdesc.subject (by decide)
  have htail : h.attachment.elim (some [0]) Attachment.serialize =
      some (e.attachment.elim [0] fun att => 1 :: att.wire) := by
    have hattachment := hdesc.attachment
    cases hhost : h.attachment with
    | none =>
      cases hatt : e.attachment with
      | none => rfl
      | some att => simp [hhost, hatt] at hattachment
    | some a =>
      cases hatt : e.attachment with
      | none => simp [hhost, hatt] at hattachment
      | some att =>
        simp only [hhost, hatt] at hattachment
        exact Attachment.serialize_of_describes hattachment
  rw [Email.serialize, htail]
  simp only [hdesc.body, hsender, hrecipient, hsubject, Option.bind_eq_bind, Option.bind_some,
    assert_of hchallenge, assert_of hbounds, to_bytes_of_lt hbody, hdesc.challenge, hardmail.Email.wire_eq]
  simp only [List.append_assoc]
  rfl

end hardmail.host
