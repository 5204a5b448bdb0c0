import HardMail.Memory.Slice

open memory

namespace hardmail

def MAX_TX_LEN : Nat := 2600
def ADDRESS_LEN : Nat := 20
def CHALLENGE_LEN : Nat := 16
def MAX_FROM_LEN : Nat := 128
def MAX_TO_LEN : Nat := 128
def MAX_SUBJECT_LEN : Nat := 200
def MAX_BODY_LEN : Nat := 2048
def MAX_ATT_NAME_LEN : Nat := 64
def ATT_HASH_LEN : Nat := 32
def MAX_TRANSACTION_LEN : Nat := 2600
def MAX_DER_SIG_LEN : Nat := 72
def MAX_BIP32_PATH : Nat := 10
def PUBKEY_LEN : Nat := 65
def CHAINCODE_LEN : Nat := 32
def TOKEN_ADDRESS_LEN : Nat := 32

def CLA : UInt8 := 0xE0
def GET_VERSION : UInt8 := 0x03
def GET_APP_NAME : UInt8 := 0x04
def GET_PUBLIC_KEY : UInt8 := 0x05
def SIGN_TX : UInt8 := 0x06
def SIGN_TOKEN_TX : UInt8 := 0x07
def PROVIDE_TOKEN_INFO : UInt8 := 0x22

def P1_START : UInt8 := 0x00
def P1_MAX : UInt8 := 0x10
def P2_LAST : UInt8 := 0x00
def P2_MORE : UInt8 := 0x80

def SWO_SUCCESS : UInt16 := 0x9000
def SWO_SECURITY_ISSUE : UInt16 := 0x6600
def SWO_CONDITIONS_NOT_SATISFIED : UInt16 := 0x6985
def SWO_INCORRECT_DATA : UInt16 := 0x6A80
def SWO_INCORRECT_P1_P2 : UInt16 := 0x6A86
def SWO_WRONG_DATA_LENGTH : UInt16 := 0x6A87
def SWO_INVALID_INS : UInt16 := 0x6D00
def SWO_INVALID_CLA : UInt16 := 0x6E00
def SW_INVALID_DYNAMIC_TOKEN : UInt16 := 0xB009

/-- The results of the payload parser. -/
inductive ParserStatus where
  | PARSING_OK
  | FROM_PARSING_ERROR
  | TO_PARSING_ERROR
  | SUBJECT_PARSING_ERROR
  | BODY_PARSING_ERROR
  | FIELD_ENCODING_ERROR
  | CHALLENGE_PARSING_ERROR
  | WRONG_LENGTH_ERROR
  | ATTACHMENT_PARSING_ERROR
  deriving DecidableEq, Repr

inductive State where
  | STATE_NONE
  | STATE_PARSED
  | STATE_APPROVED
  deriving DecidableEq, Repr

inductive RequestType where
  | CONFIRM_ADDRESS
  | CONFIRM_TRANSACTION
  | CONFIRM_TOKEN_TRANSACTION
  deriving DecidableEq, Repr

/-- A pointer into the payload buffer: its distance from the start of the
buffer, or NULL. -/
abbrev Ptr := Option Nat

/-- The `len` bytes a pointer into `mem` points to. -/
def deref (mem : List UInt8) : Ptr → Nat → List UInt8
  | none, _ => []
  | some p, len => slice mem p len

/-- `email_t`, which the source also calls `transaction_t`. Its pointers
reference into the raw payload, which is not copied. -/
structure Transaction where
  challenge : Ptr
  from_ : Ptr
  from_len : UInt8
  to_ : Ptr
  to_len : UInt8
  subject : Ptr
  subject_len : UInt8
  body : Ptr
  body_len : UInt16
  has_attachment : UInt8
  att_name : Ptr
  att_name_len : UInt8
  att_size : UInt32
  att_hash : Ptr
  deriving DecidableEq, Repr

/-- The all-zero structure, with NULL pointers. -/
def Transaction.zero : Transaction where
  challenge := none
  from_ := none
  from_len := 0
  to_ := none
  to_len := 0
  subject := none
  subject_len := 0
  body := none
  body_len := 0
  has_attachment := 0
  att_name := none
  att_name_len := 0
  att_size := 0
  att_hash := none

/-- `transaction_ctx_t`, without the token metadata that nothing reads. -/
structure TransactionCtx where
  raw_tx : CArray UInt8 MAX_TRANSACTION_LEN
  raw_tx_len : Nat
  transaction : Transaction
  is_token_tx : Bool
  m_hash : CArray UInt8 32
  signature : CArray UInt8 MAX_DER_SIG_LEN
  signature_len : UInt8
  v : UInt8
  deriving DecidableEq

/-- `global_ctx_t`. The union of `pk_info` and `tx_info` is stored as its larger
member: the 97 bytes of `pk_info` are the first bytes of `raw_tx`, which is the
first field of `tx_info`. -/
structure GlobalCtx where
  state : State
  tx_info : TransactionCtx
  req_type : RequestType
  bip32_path : CArray UInt32 MAX_BIP32_PATH
  bip32_path_len : UInt8
  deriving DecidableEq

/-- The context after `explicit_bzero`. -/
def GlobalCtx.zero : GlobalCtx where
  state := .STATE_NONE
  tx_info :=
    { raw_tx := .fill MAX_TRANSACTION_LEN 0
      raw_tx_len := 0
      transaction := .zero
      is_token_tx := false
      m_hash := .fill 32 0
      signature := .fill MAX_DER_SIG_LEN 0
      signature_len := 0
      v := 0 }
  req_type := .CONFIRM_ADDRESS
  bip32_path := .fill MAX_BIP32_PATH 0
  bip32_path_len := 0

/-- `pk_info.raw_public_key` -/
def GlobalCtx.raw_public_key (G : GlobalCtx) : CArray UInt8 PUBKEY_LEN :=
  G.tx_info.raw_tx.sub 0 PUBKEY_LEN (by decide)

/-- `pk_info.chain_code` -/
def GlobalCtx.chain_code (G : GlobalCtx) : CArray UInt8 CHAINCODE_LEN :=
  G.tx_info.raw_tx.sub PUBKEY_LEN CHAINCODE_LEN (by decide)

def GlobalCtx.setRawPublicKey (G : GlobalCtx) (key : CArray UInt8 PUBKEY_LEN) : GlobalCtx :=
  { G with tx_info := { G.tx_info with
      raw_tx := G.tx_info.raw_tx.blit 0 key.toList (by rw [key.length_toList]; decide) } }

def GlobalCtx.setChainCode (G : GlobalCtx) (code : CArray UInt8 CHAINCODE_LEN) : GlobalCtx :=
  { G with tx_info := { G.tx_info with
      raw_tx := G.tx_info.raw_tx.blit PUBKEY_LEN code.toList (by rw [code.length_toList]; decide) } }

namespace GlobalCtx

variable (G : GlobalCtx)

@[simp] theorem raw_public_key_setRawPublicKey (key : CArray UInt8 PUBKEY_LEN) :
    (G.setRawPublicKey key).raw_public_key = key := by
  apply CArray.ext
  have hslice := slice_blit G.tx_info.raw_tx.toList key.toList (Nat.zero_le _)
  rwa [key.length_toList] at hslice

@[simp] theorem chain_code_setChainCode (code : CArray UInt8 CHAINCODE_LEN) :
    (G.setChainCode code).chain_code = code := by
  apply CArray.ext
  have hslice := slice_blit G.tx_info.raw_tx.toList code.toList
    (show PUBKEY_LEN ≤ G.tx_info.raw_tx.toList.length by rw [CArray.length_toList]; decide)
  rwa [code.length_toList] at hslice

@[simp] theorem raw_public_key_setChainCode (code : CArray UInt8 CHAINCODE_LEN) :
    (G.setChainCode code).raw_public_key = G.raw_public_key := by
  apply CArray.ext
  exact slice_blit_before (Nat.le_refl _) (by rw [CArray.length_toList]; decide)

@[simp] theorem chain_code_setRawPublicKey (key : CArray UInt8 PUBKEY_LEN) :
    (G.setRawPublicKey key).chain_code = G.chain_code := by
  apply CArray.ext
  exact slice_blit_after (by rw [CArray.length_toList]; decide) (Nat.zero_le _)

end GlobalCtx

end hardmail
