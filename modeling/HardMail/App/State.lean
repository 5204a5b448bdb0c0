import HardMail.Sdk.Crypto
import HardMail.Ui.Format

open memory

namespace hardmail

/-- The static buffers of the email review. -/
inductive StaticString where
  | g_from
  | g_to
  | g_subject
  | g_body
  | g_request
  | g_attachment
  | g_att_hash
  deriving DecidableEq, Repr

/-- `nbgl_contentTagValue_t`, whose value points to a buffer or is NULL. -/
structure Pair where
  item : String
  value : Option StaticString
  deriving DecidableEq

/-- The static data of the email review. -/
structure Display where
  g_from : CArray UInt8 (MAX_FROM_LEN + 1)
  g_to : CArray UInt8 (MAX_TO_LEN + 1)
  g_subject : CArray UInt8 (MAX_SUBJECT_LEN + 1)
  g_body : CArray UInt8 (MAX_BODY_LEN + 1)
  g_request : CArray UInt8 (2 * CHALLENGE_LEN + 1)
  g_attachment : CArray UInt8 (MAX_ATT_NAME_LEN + 40)
  g_att_hash : CArray UInt8 (2 * ATT_HASH_LEN + 1)
  pairs : CArray Pair 7
  nbPairs : Nat

/-- The string a pair's value points to. -/
def Display.string (d : Display) : Option StaticString → List UInt8
  | none => []
  | some .g_from => cString d.g_from
  | some .g_to => cString d.g_to
  | some .g_subject => cString d.g_subject
  | some .g_body => cString d.g_body
  | some .g_request => cString d.g_request
  | some .g_attachment => cString d.g_attachment
  | some .g_att_hash => cString d.g_att_hash

/-- `pairs[n].item = item; pairs[n].value = value;` -/
def Display.setPair (d : Display) (n : Nat) (item : String) (value : StaticString) : Display :=
  { d with pairs := ⟨d.pairs.toList.set n ⟨item, some value⟩, by simp⟩ }

/-- What NBGL reads from the list of pairs it is handed. -/
def Display.shown (d : Display) : List (String × List UInt8) :=
  (d.pairs.toList.take d.nbPairs).map fun pair => (pair.item, d.string pair.value)

/-- A review on the screen, with the texts it shows. -/
inductive Review where
  | email (pairs : List (String × List UInt8))
  | address (address : List UInt8)
  deriving DecidableEq, Repr

/-- `dynamic_token_info_t`, whose ticker is the string its buffer holds. -/
structure DynamicTokenInfo where
  received : Bool
  address : CArray UInt8 TOKEN_ADDRESS_LEN
  ticker : List UInt8
  decimals : UInt8

/-- The global state of the application, and the review on the screen. -/
structure AppState where
  G_context : GlobalCtx
  display : Display
  g_address : CArray UInt8 43
  g_dynamic_token_info : DynamicTokenInfo
  screen : Option Review

/-- What can be seen of a step from outside: the responses it sends, by the
function that sends them and with the status word it hands over, the reviews it
opens, and the calls that use a derivation path. -/
inductive Event where
  | io_send_sw (sw : UInt16)
  | helper_send_response_pubkey (resp : List UInt8) (sw : UInt16)
  | helper_send_response_sig (resp : List UInt8) (sw : UInt16)
  | send_info (resp : List UInt8) (sw : UInt16)
  | review (review : Review)
  | bip32_derive_get_pubkey_256 (path : CArray UInt32 MAX_BIP32_PATH) (path_len : UInt8)
  | bip32_derive_eddsa_sign_hash_256 (path : CArray UInt32 MAX_BIP32_PATH) (path_len : UInt8)
      (hash : CArray UInt8 32)
  deriving DecidableEq

/-- `command_t`, whose data pointer is NULL exactly when its length is zero. -/
structure Command where
  cla : UInt8
  ins : UInt8
  p1 : UInt8
  p2 : UInt8
  data : List UInt8
  lc_lt : data.length < 256

/-- What a turn of the main loop or of the user can be. -/
inductive Input where
  | apdu (cmd : Command) (out : Outcomes)
  /-- a message `apdu_parser` refuses -/
  | badLength
  /-- the answer to the review on the screen -/
  | choice (confirm : Bool) (out : Outcomes)

/-- A command all of whose calls succeed. -/
def Input.send (ins p1 p2 : UInt8) (data : List UInt8) (lc_lt : data.length < 256 := by decide) : Input :=
  .apdu ⟨CLA, ins, p1, p2, data, lc_lt⟩ .success

/-- What a handler does: the state it leaves, and what was seen of it. -/
abbrev Effect := AppState × List Event

def io_send_sw (s : AppState) (sw : UInt16) : Effect := (s, [.io_send_sw sw])

/-- The token slot after `init_dynamic_token_storage`. -/
def DynamicTokenInfo.zero : DynamicTokenInfo where
  received := false
  address := .fill TOKEN_ADDRESS_LEN 0
  ticker := []
  decimals := 0

def Display.zero : Display where
  g_from := .fill _ 0
  g_to := .fill _ 0
  g_subject := .fill _ 0
  g_body := .fill _ 0
  g_request := .fill _ 0
  g_attachment := .fill _ 0
  g_att_hash := .fill _ 0
  pairs := .fill 7 ⟨"", none⟩
  nbPairs := 0

/-- The state `app_main` enters its loop with. -/
def AppState.init : AppState where
  G_context := .zero
  display := .zero
  g_address := .fill 43 0
  g_dynamic_token_info := .zero
  screen := none

end hardmail
