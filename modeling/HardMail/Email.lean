import HardMail.Codec.Words
import HardMail.Types

open codec

namespace hardmail

/-- Printable ASCII. -/
def Printable (c : UInt8) : Prop := 0x20 ≤ c ∧ c ≤ 0x7e

/-- Printable ASCII or a newline, as a message body may contain. -/
def BodyByte (c : UInt8) : Prop := Printable c ∨ c = 0x0a

instance : DecidablePred Printable := fun _ => inferInstanceAs (Decidable (_ ∧ _))

instance : DecidablePred BodyByte := fun _ => inferInstanceAs (Decidable (_ ∨ _))

/-- A nonempty text of bounded length over a class of bytes. -/
structure TextOf (ok : UInt8 → Prop) (max : Nat) (l : List UInt8) : Prop where
  nonempty : 1 ≤ l.length
  bounded : l.length ≤ max
  all_ok : ∀ c ∈ l, ok c

instance {ok : UInt8 → Prop} [DecidablePred ok] {max : Nat} : DecidablePred (TextOf ok max) :=
  fun l => decidable_of_iff (1 ≤ l.length ∧ l.length ≤ max ∧ (l.all fun c => decide (ok c)) = true) (by
    simp only [List.all_eq_true, decide_eq_true_eq]
    exact ⟨fun h => ⟨h.1, h.2.1, h.2.2⟩, fun h => ⟨h.1, h.2, h.3⟩⟩)

abbrev Text (ok : UInt8 → Prop) (max : Nat) := { l : List UInt8 // TextOf ok max l }

abbrev Bytes (n : Nat) := { l : List UInt8 // l.length = n }

/-- The file an email pins by name, size and content hash. -/
@[ext] structure Attachment where
  name : Text Printable MAX_ATT_NAME_LEN
  size : UInt32
  hash : Bytes ATT_HASH_LEN
  deriving DecidableEq

/-- An email within the documented bounds of every field. -/
@[ext] structure Email where
  challenge : Bytes CHALLENGE_LEN
  sender : Text Printable MAX_FROM_LEN
  recipient : Text Printable MAX_TO_LEN
  subject : Text Printable MAX_SUBJECT_LEN
  body : Text BodyByte MAX_BODY_LEN
  attachment : Option Attachment
  deriving DecidableEq

/-- `name_len:u8 | name | size:u32be | sha256(32)` -/
def Attachment.wire (att : Attachment) : List UInt8 :=
  beBytes 1 att.name.val.length ++ att.name.val ++ (beBytes 4 att.size.toNat ++ att.hash.val)

/-- The documented wire format:
`challenge | from_len:u8 | from | to_len:u8 | to | subject_len:u8 | subject |
body_len:u16be | body | att_count:u8 [ attachment ]`. -/
def Email.wire (e : Email) : List UInt8 :=
  e.challenge.val ++ (beBytes 1 e.sender.val.length ++ e.sender.val) ++
    (beBytes 1 e.recipient.val.length ++ e.recipient.val) ++
    (beBytes 1 e.subject.val.length ++ e.subject.val) ++
    (beBytes 2 e.body.val.length ++ e.body.val) ++
    match e.attachment with
    | none => [0]
    | some att => 1 :: att.wire

/-- The wire format with the optional attachment as one term. -/
theorem Email.wire_eq (e : Email) :
    e.wire = e.challenge.val ++ (beBytes 1 e.sender.val.length ++ e.sender.val) ++
      (beBytes 1 e.recipient.val.length ++ e.recipient.val) ++
      (beBytes 1 e.subject.val.length ++ e.subject.val) ++ (beBytes 2 e.body.val.length ++ e.body.val) ++
      e.attachment.elim [0] fun att => 1 :: att.wire := by
  rw [Email.wire]
  cases e.attachment <;> rfl

/-- The `u8`-prefixed text fields. -/
def textCodec (max : Nat) (hmax : max < 256) : Codec UInt8 (Text Printable max) :=
  .text 1 (TextOf Printable max) fun _ h => by
    have hbound := h.bounded
    omega

def bodyCodec : Codec UInt8 (Text BodyByte MAX_BODY_LEN) :=
  .text 2 (TextOf BodyByte MAX_BODY_LEN) fun _ h => by
    have hbound := h.bounded
    simp only [MAX_BODY_LEN] at hbound
    omega

def sizeCodec : Codec UInt8 UInt32 :=
  (Codec.bigEndian 4).iso
    { toFun := fun n => UInt32.ofNat n.val
      invFun := fun w => ⟨w.toNat, w.toNat_lt⟩
      left_inv := fun n => Subtype.ext (UInt32.toNat_ofNat_of_lt' n.property)
      right_inv := fun _ => UInt32.ofNat_toNat }

def attachmentCodec : Codec UInt8 Attachment :=
  ((textCodec MAX_ATT_NAME_LEN (by decide)).pair (sizeCodec.pair (.block ATT_HASH_LEN))).iso
    { toFun := fun v => ⟨v.1, v.2.1, v.2.2⟩
      invFun := fun a => (a.name, a.size, a.hash)
      left_inv := fun _ => rfl
      right_inv := fun _ => rfl }

/-- The wire format as a codec, which carries its round-trip laws. -/
def emailCodec : Codec UInt8 Email :=
  ((Codec.block CHALLENGE_LEN).pair ((textCodec MAX_FROM_LEN (by decide)).pair
    ((textCodec MAX_TO_LEN (by decide)).pair ((textCodec MAX_SUBJECT_LEN (by decide)).pair
      (bodyCodec.pair (attachmentCodec.optional 0 1 (by decide))))))).iso
    { toFun := fun v => ⟨v.1, v.2.1, v.2.2.1, v.2.2.2.1, v.2.2.2.2.1, v.2.2.2.2.2⟩
      invFun := fun e => (e.challenge, e.sender, e.recipient, e.subject, e.body, e.attachment)
      left_inv := fun _ => rfl
      right_inv := fun _ => rfl }

/-- The codec writes the documented wire format. -/
theorem emailCodec_encode (e : Email) : emailCodec.encode e = e.wire := by
  obtain ⟨challenge, sender, recipient, subject, body, attachment⟩ := e
  simp only [Email.wire, List.append_assoc]
  cases attachment <;> rfl

/-- Distinct emails have distinct payloads. -/
theorem Email.wire_injective : Function.Injective Email.wire := by
  intro a b h
  apply emailCodec.encode_injective
  rw [emailCodec_encode, emailCodec_encode, h]

/-- No payload is a proper prefix of another one. -/
theorem Email.eq_of_wire_append {a b : Email} {rest : List UInt8} (h : a.wire ++ rest = b.wire) :
    a = b ∧ rest = [] := by
  apply emailCodec.eq_of_encode_prefix
  rw [emailCodec_encode, emailCodec_encode, h]

/-- The length of a payload, from the lengths of its fields. -/
theorem Email.wire_length (e : Email) :
    e.wire.length = 22 + e.sender.val.length + e.recipient.val.length + e.subject.val.length +
      e.body.val.length + (e.attachment.elim 0 fun att => 37 + att.name.val.length) := by
  have hchallenge := e.challenge.property
  simp only [CHALLENGE_LEN] at hchallenge
  cases hatt : e.attachment with
  | none =>
    simp only [Email.wire, hatt, List.length_append, beBytes_length, List.length_cons,
      List.length_nil, Option.elim_none]
    omega
  | some att =>
    have hhash := att.hash.property
    simp only [ATT_HASH_LEN] at hhash
    simp only [Email.wire, hatt, Attachment.wire, List.length_append, beBytes_length,
      List.length_cons, Option.elim_some]
    omega

/-- The length of a text of less than 256 bytes survives as a byte. -/
theorem TextOf.toNat_ofNat_length {ok : UInt8 → Prop} {max : Nat} {l : List UInt8} (h : TextOf ok max l)
    (hmax : max < 256) : (UInt8.ofNat l.length).toNat = l.length :=
  UInt8.toNat_ofNat_of_lt' (Nat.lt_of_le_of_lt h.bounded hmax)

/-- One byte of the class over and over is a text of it. -/
theorem TextOf.replicate {ok : UInt8 → Prop} {max n : Nat} {c : UInt8} (hc : ok c) (hpos : 1 ≤ n)
    (hmax : n ≤ max) : TextOf ok max (List.replicate n c) := by
  refine ⟨by simpa using hpos, by simpa using hmax, ?_⟩
  intro b hb
  rwa [List.eq_of_mem_replicate hb]

/-- One byte in every text field and no attachment. -/
def Email.smallest : Email where
  challenge := ⟨List.replicate CHALLENGE_LEN 0x11, rfl⟩
  sender := ⟨List.replicate 1 0x61, .replicate (by decide) (by decide) (by decide)⟩
  recipient := ⟨List.replicate 1 0x62, .replicate (by decide) (by decide) (by decide)⟩
  subject := ⟨List.replicate 1 0x63, .replicate (by decide) (by decide) (by decide)⟩
  body := ⟨List.replicate 1 0x64, .replicate (by decide) (by decide) (by decide)⟩
  attachment := none

/-- Every text field as long as its bound allows, and an attachment. -/
def Email.largest : Email where
  challenge := ⟨List.replicate CHALLENGE_LEN 0x11, rfl⟩
  sender := ⟨List.replicate MAX_FROM_LEN 0x61, .replicate (by decide) (by decide) (by decide)⟩
  recipient := ⟨List.replicate MAX_TO_LEN 0x62, .replicate (by decide) (by decide) (by decide)⟩
  subject := ⟨List.replicate MAX_SUBJECT_LEN 0x63, .replicate (by decide) (by decide) (by decide)⟩
  body := ⟨List.replicate MAX_BODY_LEN 0x64, .replicate (by decide) (by decide) (by decide)⟩
  attachment := some
    { name := ⟨List.replicate MAX_ATT_NAME_LEN 0x65, .replicate (by decide) (by decide) (by decide)⟩
      size := 0
      hash := ⟨List.replicate ATT_HASH_LEN 0, rfl⟩ }

/-- The smallest email takes 26 bytes. -/
theorem Email.smallest_wire_length : Email.smallest.wire.length = 26 := by
  rw [Email.wire_length]
  rfl

/-- The documented bounds admit payloads above the size cap of the parser. -/
theorem Email.largest_wire_length : Email.largest.wire.length = 2627 := by
  rw [Email.wire_length]
  simp only [Email.largest, List.length_replicate, Option.elim_some]
  rfl

end hardmail
