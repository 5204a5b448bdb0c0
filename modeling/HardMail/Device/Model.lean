import HardMail.App.Steps

open memory codec machine

namespace hardmail

/-- The instructions a command may ask for. -/
inductive Opcode where
  | version
  | name
  | pubkey
  | sign (is_token_tx : Bool)
  | token
  deriving DecidableEq, Repr

namespace Opcode

def ofIns (ins : UInt8) : Option Opcode :=
  if ins = GET_VERSION then some .version
  else if ins = GET_APP_NAME then some .name
  else if ins = GET_PUBLIC_KEY then some .pubkey
  else if ins = SIGN_TX then some (.sign false)
  else if ins = SIGN_TOKEN_TX then some (.sign true)
  else if ins = PROVIDE_TOKEN_INFO then some .token
  else none

/-- The parameters an instruction takes. Chunk 0 is never the last chunk. -/
def Takes (p1 p2 : UInt8) : Opcode → Prop
  | version => p1 = 0 ∧ p2 = 0
  | name => p1 = 0 ∧ p2 = 0
  | pubkey => p1 ≤ 1 ∧ p2 = 0
  | sign _ => p1 ≤ P1_MAX ∧ (p2 = P2_MORE ∨ p2 = P2_LAST ∧ p1 ≠ P1_START)
  | token => p1 = 0 ∧ p2 = 0

instance (p1 p2 : UInt8) : DecidablePred (Takes p1 p2) := fun op => by
  cases op <;> exact inferInstanceAs (Decidable (_ ∧ _))

def carriesData : Opcode → Bool
  | version => false
  | name => false
  | _ => true

end Opcode

/-- What a command that is not refused asks for. -/
inductive Instruction where
  | version
  | name
  | pubkey (data : List UInt8) (display : Bool)
  | start (is_token_tx : Bool) (data : List UInt8)
  | chunk (is_token_tx more : Bool) (data : List UInt8)
  | token
  deriving DecidableEq, Repr

def Opcode.instruction (cmd : Command) : Opcode → Instruction
  | .version => .version
  | .name => .name
  | .pubkey => .pubkey cmd.data (cmd.p1 ≠ 0)
  | .sign is_token_tx =>
    if cmd.p1 = P1_START then .start is_token_tx cmd.data else .chunk is_token_tx (cmd.p2 = P2_MORE) cmd.data
  | .token => .token

/-- The instruction of a command, or the status it is refused with. -/
def Command.instruction (cmd : Command) : Except UInt16 Instruction :=
  if cmd.cla ≠ CLA then .error SWO_INVALID_CLA
  else match Opcode.ofIns cmd.ins with
    | none => .error SWO_INVALID_INS
    | some op =>
      if ¬ op.Takes cmd.p1 cmd.p2 then .error SWO_INCORRECT_P1_P2
      else if op.carriesData ∧ cmd.data = [] then .error SWO_WRONG_DATA_LENGTH
      else .ok (op.instruction cmd)

/-- What a token is called and how its amounts are scaled. -/
structure TokenInfo where
  ticker : List UInt8
  decimals : UInt8
  deriving DecidableEq, Repr

/-- The token a descriptor speaks of, if it is one of this application. -/
def TokenDescriptor.token (descriptor : TokenDescriptor) : Option (CArray UInt8 TOKEN_ADDRESS_LEN × TokenInfo) :=
  if validate_coin_type descriptor.coin_type then
    descriptor.TUID.join.map fun address => (address, ⟨cString descriptor.ticker, descriptor.magnitude⟩)
  else none

/-- What the device does that matters to its host and its user: its responses, its
reviews, and its uses of the seed. -/
inductive Report where
  | respond (sw : UInt16) (data : List UInt8)
  | review (review : Review)
  | derive (path : DerivationPath)
  | sign (path : DerivationPath) (digest : CArray UInt8 32)
  deriving DecidableEq

/-- What an event of the code says. -/
def Event.report : Event → Report
  | .io_send_sw sw => .respond sw []
  | .helper_send_response_pubkey resp sw => .respond sw resp
  | .helper_send_response_sig resp sw => .respond sw resp
  | .send_info resp sw => .respond sw resp
  | .review shown => .review shown
  | .bip32_derive_get_pubkey_256 path path_len => .derive (.ofArray path path_len)
  | .bip32_derive_eddsa_sign_hash_256 path path_len hash => .sign (.ofArray path path_len) hash

/-- The device as its documentation has it: without buffers, pointers and parser, and
with the received bytes, the path and the review themselves. `stored` is the payload
received so far, or the key material that an approval exports. -/
structure Device where
  purpose : RequestType
  path : DerivationPath
  stored : List UInt8
  room : stored.length ≤ MAX_TRANSACTION_LEN
  digest : CArray UInt8 32
  token : Option (CArray UInt8 TOKEN_ADDRESS_LEN × TokenInfo)
  screen : Option Review

namespace Device

def init : Device where
  purpose := .CONFIRM_ADDRESS
  path := .of []
  stored := []
  room := Nat.zero_le _
  digest := .fill 32 0
  token := none
  screen := none

/-- A command that begins a session forgets all of the one before but its review. -/
def reset (d : Device) (purpose : RequestType) (path : DerivationPath) : Device :=
  { d with purpose, path, stored := [], room := Nat.zero_le _, digest := .fill 32 0 }

def keep (d : Device) (key : KeyMaterial) : Device :=
  { d with
    stored := key.1.toList ++ key.2.toList
    room := by rw [List.length_append, key.1.length_toList, key.2.length_toList]; decide }

def append (d : Device) (chunk : List UInt8) (room : (d.stored ++ chunk).length ≤ MAX_TRANSACTION_LEN) : Device :=
  { d with stored := d.stored ++ chunk, room }

/-- What is stored, as memory that nothing has been written behind. -/
def memory (d : Device) : List UInt8 := padded MAX_TRANSACTION_LEN 0 d.stored

/-- The key material that an approval exports, whatever is stored. -/
def exported (d : Device) : List UInt8 :=
  UInt8.ofNat PUBKEY_LEN :: slice d.memory 0 PUBKEY_LEN ++
    UInt8.ofNat CHAINCODE_LEN :: slice d.memory PUBKEY_LEN CHAINCODE_LEN

end Device

abbrev Reaction := Device × List Report

def respond (d : Device) (sw : UInt16) : Reaction := (d, [.respond sw []])

/-- What a refused path leaves behind: the length byte that came with it, and what the
reader has left of the words. -/
def refusedPath (data : List UInt8) (out : Outcomes) : DerivationPath := .ofArray out.path_residue (data.headD 0)

namespace Device

variable (sdk : Sdk) (d : Device)

def beginSession (purpose : RequestType) (data : List UInt8) (out : Outcomes) : Reaction :=
  match pathOf data with
  | none => respond (d.reset purpose (refusedPath data out)) SWO_WRONG_DATA_LENGTH
  | some words => respond (d.reset purpose (.of words)) SWO_SUCCESS

/-- Answers with the key of a path, or shows its address first. -/
def exportKey (data : List UInt8) (display : Bool) (out : Outcomes) : Reaction :=
  match pathOf data with
  | none => respond (d.reset .CONFIRM_ADDRESS (refusedPath data out)) SWO_WRONG_DATA_LENGTH
  | some words =>
    let d := d.reset .CONFIRM_ADDRESS (.of words)
    let derive := Report.derive (.of words)
    match out.derive, out.compress with
    | some failure, _ => (d.keep failure.residue, [derive, .respond failure.error.val.toUInt16 []])
    | none, some failure =>
      (d.keep (failure.residue, sdk.derivedCode words), [derive, .respond failure.error.val.toUInt16 []])
    | none, none =>
      let d := d.keep (sdk.derivedKey words, sdk.derivedCode words)
      if !display then
        (d, [derive, .respond SWO_SUCCESS (pubkeyResponse (sdk.derivedKey words) (sdk.derivedCode words))])
      else if out.keccak.isSome then (d, [derive, .respond SWO_INCORRECT_DATA []])
      else
        let review := Review.address (sdk.addressText (sdk.derivedKey words))
        ({ d with screen := some review }, [derive, .review review])

/-- Reviews the email that has been received, or refuses what is not one. -/
def complete (purpose : RequestType) (out : Outcomes) : Reaction :=
  match emailCodec.decode d.stored, out.hash with
  | some (_, []), some residue => respond { d with digest := residue } SWO_INCORRECT_DATA
  | some (e, []), none =>
    let d := { d with digest := sdk.cx_hash_sha256 d.stored }
    if purpose = .CONFIRM_TRANSACTION then
      ({ d with screen := some (.email e.pairs) }, [.review (.email e.pairs)])
    else respond d SWO_CONDITIONS_NOT_SATISFIED
  | _, _ => respond d SWO_INCORRECT_DATA

def receive (purpose : RequestType) (more : Bool) (chunk : List UInt8) (out : Outcomes) : Reaction :=
  if d.purpose ≠ purpose then respond d SWO_CONDITIONS_NOT_SATISFIED
  else if hroom : (d.stored ++ chunk).length ≤ MAX_TRANSACTION_LEN then
    let d := d.append chunk hroom
    if more then respond d SWO_SUCCESS else d.complete sdk purpose out
  else respond d SWO_WRONG_DATA_LENGTH

/-- Replaces the token the host has told of, or forgets it. -/
def learnToken (out : Outcomes) : Reaction :=
  let token := out.descriptor.bind TokenDescriptor.token
  respond { d with token } (if token.isSome then SWO_SUCCESS else SW_INVALID_DYNAMIC_TOKEN)

def obey (out : Outcomes) : Instruction → Reaction
  | .version => (d, [.respond SWO_SUCCESS [2, 3, 2]])
  | .name => (d, [.respond SWO_SUCCESS (ascii "HardMail".toList)])
  | .pubkey data display => d.exportKey sdk data display out
  | .start is_token_tx data => d.beginSession (requestType is_token_tx) data out
  | .chunk is_token_tx more data => d.receive sdk (requestType is_token_tx) more data out
  | .token => d.learnToken out

/-- The answer to the review on the screen signs or exports what is stored by then. -/
def answer (confirm : Bool) (out : Outcomes) : Reaction :=
  let off := { d with screen := none }
  match d.screen, confirm with
  | none, _ => (d, [])
  | some _, false => respond off SWO_CONDITIONS_NOT_SATISFIED
  | some (.address _), true => (off, [.respond SWO_SUCCESS d.exported])
  | some (.email _), true =>
    if out.sign.isSome then (off, [.sign d.path d.digest, .respond SWO_SECURITY_ISSUE []])
    else
      (off, [.sign d.path d.digest, .respond SWO_SUCCESS (signatureText (sdk.sign out d.path d.digest))])

def step : Input → Reaction
  | .apdu cmd out =>
    match cmd.instruction with
    | .error sw => respond d sw
    | .ok instruction => d.obey sdk out instruction
  | .badLength => respond d SWO_WRONG_DATA_LENGTH
  | .choice confirm out => d.answer sdk confirm out

end Device

def device (sdk : Sdk) : Machine Device Input Report := ⟨.init, Device.step sdk⟩

end hardmail
