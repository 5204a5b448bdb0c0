import HardMail.Device.Model
import HardMail.Machine.Strategy

open memory codec machine

namespace hardmail.host

def MAX_APDU_LEN : Nat := 255

/-- What reaches the device: a command of the host, or an answer of its user. -/
inductive Move where
  | command (cmd : Command)
  | answer (confirm : Bool)

/-- The input a move is, when the calls of the `n`-th turn out as `calls n`. -/
def Move.input (calls : Nat → Outcomes) (move : Move) (n : Nat) : Input :=
  match move with
  | command cmd => .apdu cmd (calls n)
  | answer confirm => .choice confirm (calls n)

/-- What the client raises. -/
inductive Raised where
  | ExceptionRAPDU (status : UInt16)
  | ValueError
  | IndexError
  | AssertionError
  deriving DecidableEq, Repr

abbrev Call (α : Type) := Client Move Report Raised α

/-- The response a report is, if it is one. -/
def response : Report → Option (UInt16 × List UInt8)
  | .respond sw data => some (sw, data)
  | _ => none

/-- The review a report is, if it is one. -/
def shown : Report → Option Review
  | .review review => some review
  | _ => none

/-- A move, and what the device reports of it. -/
def send (move : Move) : Call (List Report) := ExceptT.lift (.send move .done)

/-- `BackendInterface`: the connection of the client to the device, which is not part of
this repository. Its calls take a command in parts and return the data of the response.
While `exchange_async` is under way, the user answers reviews as `user` does. -/
structure BackendInterface where
  exchange (cla ins : UInt8) (p1 : Nat) (p2 : UInt8) (data : List UInt8) : Call (List UInt8)
  exchange_async (user : Review → Bool) (cla ins : UInt8) (p1 : Nat) (p2 : UInt8) (data : List UInt8) :
    Call (List UInt8)

/-- What the response among the reports of a turn is to the caller: its data, or an
exception with its status when that is not the one of success. -/
inductive Responds (reports : List Report) : Except Raised (List UInt8) → Prop where
  | success {data : List UInt8} (h : reports.findSome? response = some (SWO_SUCCESS, data)) :
    Responds reports (.ok data)
  | refusal {sw : UInt16} {data : List UInt8} (h : reports.findSome? response = some (sw, data))
    (hsw : sw ≠ SWO_SUCCESS) : Responds reports (.error (.ExceptionRAPDU sw))

/-- A wait for the response, which passes on what there is. -/
def Receives (receive : List Report → Call (List UInt8)) : Prop :=
  ∀ reports result, Responds reports result → receive reports = MonadExcept.ofExcept result

/-- What the backend is documented to do with a command whose parts are bytes: it sends
that command and waits for the response, and in `exchange_async` the user first answers the
review the command opens. Nothing is assumed of other commands, or of a wait for a response
that does not come. -/
structure BackendInterface.Documented (backend : BackendInterface) : Prop where
  exchange_eq : ∀ (cla ins p2 : UInt8) (p1 : Nat) (data : List UInt8), p1 < 256 → ∀ hdata : data.length < 256,
    ∃ receive, Receives receive ∧ backend.exchange cla ins p1 p2 data =
      send (.command ⟨cla, ins, UInt8.ofNat p1, p2, data, hdata⟩) >>= receive
  exchange_async_eq : ∀ (user : Review → Bool) (cla ins p2 : UInt8) (p1 : Nat) (data : List UInt8), p1 < 256 →
    ∀ hdata : data.length < 256, ∃ receive, Receives receive ∧ backend.exchange_async user cla ins p1 p2 data =
      send (.command ⟨cla, ins, UInt8.ofNat p1, p2, data, hdata⟩) >>= fun reports =>
        match reports.findSome? shown with
        | none => receive reports
        | some review => send (.answer (user review)) >>= receive

def split_message (message : List UInt8) (max_size : Nat) : List (List UInt8) :=
  (List.range ((message.length + max_size - 1) / max_size)).map fun i => slice message (i * max_size) max_size

section sender
variable (backend : BackendInterface)

/-- The client is given the packed derivation path. -/
def get_public_key (path : List UInt8) : Call (List UInt8) := backend.exchange CLA GET_PUBLIC_KEY 0 0 path

def get_public_key_with_confirmation (user : Review → Bool) (path : List UInt8) : Call (List UInt8) :=
  backend.exchange_async user CLA GET_PUBLIC_KEY 1 0 path

/-- The part of `_sign_transaction` that sends the messages, from the index `idx` on. -/
def sign_messages (user : Review → Bool) (ins : UInt8) (messages : List (List UInt8)) (idx : Nat) :
    Call (List UInt8) := do
  let idx ← messages.dropLast.foldlM (fun idx msg => do
    let _ ← backend.exchange CLA ins idx P2_MORE msg
    return idx + 1) idx
  match messages.getLast? with
  | none => throw .IndexError
  | some msg => backend.exchange_async user CLA ins idx P2_LAST msg

/-- `_sign_transaction` -/
def sign_transaction (user : Review → Bool) (ins : UInt8) (path transaction : List UInt8) : Call (List UInt8) := do
  let _ ← backend.exchange CLA ins P1_START.toNat P2_MORE path
  sign_messages backend user ins (split_message transaction MAX_APDU_LEN) (P1_START.toNat + 1)

def sign_tx (user : Review → Bool) (path transaction : List UInt8) : Call (List UInt8) :=
  sign_transaction backend user SIGN_TX path transaction

def sign_token_tx (user : Review → Bool) (path transaction : List UInt8) : Call (List UInt8) :=
  sign_transaction backend user SIGN_TOKEN_TX path transaction

end sender

def pop_sized_buf_from_buffer (buffer : List UInt8) (size : Nat) : List UInt8 × List UInt8 :=
  (buffer.drop size, buffer.take size)

def pop_size_prefixed_buf_from_buf (buffer : List UInt8) : Except Raised (List UInt8 × Nat × List UInt8) :=
  match buffer.head? with
  | none => .error .IndexError
  | some data_len => .ok (buffer.drop (1 + data_len.toNat), data_len.toNat, slice buffer 1 data_len.toNat)

def unpack_get_public_key_response (response : List UInt8) :
    Except Raised (Nat × List UInt8 × Nat × List UInt8) := do
  let (response, pub_key_len, pub_key) ← pop_size_prefixed_buf_from_buf response
  let (response, chain_code_len, chain_code) ← pop_size_prefixed_buf_from_buf response
  if pub_key_len = 65 ∧ chain_code_len = 32 ∧ response = [] then
    return (pub_key_len, pub_key, chain_code_len, chain_code)
  else throw .AssertionError

def unpack_sign_tx_response (response : List UInt8) : Except Raised (Nat × List UInt8 × Nat) := do
  let (response, der_sig_len, der_sig) ← pop_size_prefixed_buf_from_buf response
  let (response, v) := pop_sized_buf_from_buffer response 1
  if response = [] then return (der_sig_len, der_sig, beValue v) else throw .AssertionError

/-- `_device_key` of the tests. -/
def device_key (backend : BackendInterface) (path : List UInt8) : Call (List UInt8) := do
  let response ← get_public_key backend path
  let (_, public_key, _, _) ← MonadExcept.ofExcept (unpack_get_public_key_response response)
  return public_key

/-- A signature, and its unpacking, as the tests ask for it. -/
def signature (backend : BackendInterface) (user : Review → Bool) (ins : UInt8) (path transaction : List UInt8) :
    Call (Nat × List UInt8 × Nat) := do
  let response ← sign_transaction backend user ins path transaction
  MonadExcept.ofExcept (unpack_sign_tx_response response)

/-- A response as `direct` passes it on. -/
def direct.receive (reports : List Report) : Call (List UInt8) :=
  match reports.findSome? response with
  | none => throw .ValueError
  | some (sw, data) => if sw = SWO_SUCCESS then pure data else throw (.ExceptionRAPDU sw)

/-- A backend that reaches the device directly, and raises one and the same error wherever
nothing is documented. -/
def direct : BackendInterface where
  exchange cla ins p1 p2 data :=
    if h : p1 < 256 ∧ data.length < 256 then
      send (.command ⟨cla, ins, UInt8.ofNat p1, p2, data, h.2⟩) >>= direct.receive
    else throw .ValueError
  exchange_async user cla ins p1 p2 data :=
    if h : p1 < 256 ∧ data.length < 256 then
      send (.command ⟨cla, ins, UInt8.ofNat p1, p2, data, h.2⟩) >>= fun reports =>
        match reports.findSome? shown with
        | none => direct.receive reports
        | some review => send (.answer (user review)) >>= direct.receive
    else throw .ValueError

theorem direct.receives : Receives direct.receive := by
  intro reports result hresponds
  cases hresponds with
  | success h =>
    rw [direct.receive, h]
    exact if_pos rfl
  | refusal h hsw =>
    rw [direct.receive, h]
    exact if_neg hsw

/-- There are backends that do what is documented. -/
theorem direct_documented : direct.Documented where
  exchange_eq _ _ _ _ _ hp1 hdata := ⟨direct.receive, direct.receives, dif_pos ⟨hp1, hdata⟩⟩
  exchange_async_eq _ _ _ _ _ _ hp1 hdata := ⟨direct.receive, direct.receives, dif_pos ⟨hp1, hdata⟩⟩

/-- The functions of the signature library the tests check signatures with. -/
structure Eddsa where
  Key : Type
  import_public_key : List UInt8 → Option Key
  verify : Key → List UInt8 → List UInt8 → Bool

def compressed_public_key (raw_public_key : List UInt8) : List UInt8 := slice raw_public_key 1 32

def check_signature_validity (eddsa : Eddsa) (raw_public_key signature digest : List UInt8) : Except Raised Bool :=
  if signature.length ≠ 64 then .ok false
  else match eddsa.import_public_key (compressed_public_key raw_public_key) with
    | none => .error .ValueError
    | some key => .ok (eddsa.verify key digest signature)

end hardmail.host
