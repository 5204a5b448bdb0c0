import HardMail.Sdk.Buffer

namespace hardmail.deserialize

/-- What a parser has done to its buffer: the indices it has inspected, and every
position its cursor has had, the latest first. -/
structure Record where
  inspected : List Nat
  cursors : List Nat
  deriving DecidableEq, Repr

/-- The record after the bytes at the indices `read` have been inspected and the cursor
has been put at `cursor`. -/
def Record.add (record : Record) (read : List Nat) (cursor : Nat) : Record :=
  ⟨read ++ record.inspected, cursor :: record.cursors⟩

/-- What the parser carries: the cursor, the structure it fills, and the record of what
it has done to the buffer. -/
structure ParserState where
  buf : Buffer
  tx : Transaction
  record : Record
  deriving DecidableEq, Repr

/-- The parser starts with the cursor where the caller has left it. -/
def ParserState.start (buf : Buffer) (tx : Transaction) : ParserState :=
  ⟨buf, tx, ⟨[], [buf.offset]⟩⟩

@[simp] theorem ParserState.start_buf (buf : Buffer) (tx : Transaction) : (start buf tx).buf = buf := rfl
@[simp] theorem ParserState.start_tx (buf : Buffer) (tx : Transaction) : (start buf tx).tx = tx := rfl

/-- A parser either continues or gives up with a status. Giving up undoes
nothing: the structure keeps what was stored before. -/
abbrev Parser := EStateM ParserStatus ParserState

def modifyTx (f : Transaction → Transaction) : Parser Unit :=
  modify fun s => { s with tx := f s.tx }

/-- Move the cursor, having inspected the bytes at the indices `read`. No other statement
assigns the buffer. -/
def moveTo (buf : Buffer) (read : List Nat) : Parser Unit :=
  modify fun s => { s with buf, record := s.record.add read buf.offset }

def seek_cur (n : Nat) : Parser Bool := do
  match buffer_seek_cur (← get).buf n with
  | some buf => moveTo buf []; return true
  | none => return false

/-- A read of the SDK that loads `k` bytes at the cursor. -/
def read {α : Type} (k : Nat) (sdk_read : Buffer → Option (α × Buffer)) : Parser (Option α) := do
  let s ← get
  match sdk_read s.buf with
  | some (v, buf) =>
    moveTo buf ((List.range k).map (s.buf.offset + ·))
    return some v
  | none => return none

def read_u8 : Parser (Option UInt8) := read 1 buffer_read_u8

def read_u16 : Parser (Option UInt16) := read 2 buffer_read_u16

def read_u32 : Parser (Option UInt32) := read 4 buffer_read_u32

/-- Load the byte at an index of the buffer's memory. -/
def inspect (i : Nat) : Parser UInt8 := do
  let s ← get
  moveTo s.buf [i]
  return s.buf.ptr.getD i 0

/-- The loop of `text_ok` over the `len` bytes from index `p` on. -/
def text_ok (p : Nat) (len : Nat) (allow_newline : Bool) : Parser Bool :=
  match len with
  | 0 => return true
  | len + 1 => do
    let c ← inspect p
    if allow_newline ∧ c = 0x0a then text_ok (p + 1) len allow_newline
    else if c < 0x20 ∨ c > 0x7e then return false
    else text_ok (p + 1) len allow_newline

/-- The text fields of the structure, each a pointer and a `uint8_t` length. -/
inductive TextField where
  | from_
  | to_
  | subject
  | att_name
  deriving DecidableEq, Repr

def storePtr (field : TextField) (p : Ptr) (tx : Transaction) : Transaction :=
  match field with
  | .from_ => { tx with from_ := p }
  | .to_ => { tx with to_ := p }
  | .subject => { tx with subject := p }
  | .att_name => { tx with att_name := p }

def storeLen (field : TextField) (len : UInt8) (tx : Transaction) : Transaction :=
  match field with
  | .from_ => { tx with from_len := len }
  | .to_ => { tx with to_len := len }
  | .subject => { tx with subject_len := len }
  | .att_name => { tx with att_name_len := len }

/-- Reads a text field behind its one-byte length. The pointer is stored before
the seek that validates it, the length only at the end. -/
def read_text_field (field : TextField) (max_len : Nat) : Parser Bool := do
  let some len ← read_u8 | return false
  if len = 0 ∨ len.toNat > max_len then return false
  let p := (← get).buf.offset
  modifyTx (storePtr field (some p))
  if !(← seek_cur len.toNat) then return false
  if !(← text_ok p len.toNat false) then return false
  modifyTx (storeLen field len)
  return true

/-- `if (b) return error;` -/
def refuseIf (b : Prop) [Decidable b] (error : ParserStatus) : Parser Unit :=
  if b then throw error else return ()

def readLimit : Parser Unit := do
  refuseIf ((← get).buf.size > MAX_TX_LEN) .WRONG_LENGTH_ERROR

def readChallenge : Parser Unit := do
  let p := (← get).buf.offset
  modifyTx fun tx => { tx with challenge := some p }
  refuseIf (!(← seek_cur CHALLENGE_LEN)) .CHALLENGE_PARSING_ERROR

def readField (field : TextField) (max_len : Nat) (error : ParserStatus) : Parser Unit := do
  refuseIf (!(← read_text_field field max_len)) error

def readBody : Parser Unit := do
  let some body_len ← read_u16 | throw .BODY_PARSING_ERROR
  refuseIf (body_len = 0 ∨ body_len.toNat > MAX_BODY_LEN) .BODY_PARSING_ERROR
  let p := (← get).buf.offset
  modifyTx fun tx => { tx with body := some p }
  refuseIf (!(← seek_cur body_len.toNat)) .BODY_PARSING_ERROR
  refuseIf (!(← text_ok p body_len.toNat true)) .FIELD_ENCODING_ERROR
  modifyTx fun tx => { tx with body_len := body_len }

def clearAttachment : Parser Unit :=
  modifyTx fun tx =>
    { tx with has_attachment := 0, att_name := none, att_name_len := 0, att_size := 0, att_hash := none }

def readAttSize : Parser Unit := do
  let some size ← read_u32 | throw .ATTACHMENT_PARSING_ERROR
  modifyTx fun tx => { tx with att_size := size }

def readAttHash : Parser Unit := do
  let p := (← get).buf.offset
  modifyTx fun tx => { tx with att_hash := some p }
  refuseIf (!(← seek_cur ATT_HASH_LEN)) .ATTACHMENT_PARSING_ERROR

def readAttachment : Parser Unit := do
  clearAttachment
  let some att_count ← read_u8 | throw .ATTACHMENT_PARSING_ERROR
  refuseIf (att_count > 1) .ATTACHMENT_PARSING_ERROR
  if att_count = 1 then
    readField .att_name MAX_ATT_NAME_LEN .ATTACHMENT_PARSING_ERROR
    readAttSize
    readAttHash
    modifyTx fun tx => { tx with has_attachment := 1 }

/-- The statements of `transaction_deserialize` between its size cap and its
exact-fit test, in order. -/
def readFields : Parser Unit := do
  readChallenge
  readField .from_ MAX_FROM_LEN .FROM_PARSING_ERROR
  readField .to_ MAX_TO_LEN .TO_PARSING_ERROR
  readField .subject MAX_SUBJECT_LEN .SUBJECT_PARSING_ERROR
  readBody
  readAttachment

def readPayload : Parser Unit := do
  readLimit
  readFields

/-- The status returned, and the cursor, structure and record left behind. -/
def transaction_deserialize (buf : Buffer) (tx : Transaction) : ParserStatus × ParserState :=
  match readPayload.run (.start buf tx) with
  | .ok _ s =>
    (if s.buf.offset = s.buf.size then .PARSING_OK else .WRONG_LENGTH_ERROR, s)
  | .error status s => (status, s)

end hardmail.deserialize
