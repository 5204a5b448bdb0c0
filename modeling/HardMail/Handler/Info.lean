import HardMail.App.State

open memory codec

namespace hardmail

/-- `MAJOR | MINOR | PATCH` -/
def handler_get_version (s : AppState) : Effect := (s, [.send_info [2, 3, 2] SWO_SUCCESS])

/-- The name of the application, without a NUL. -/
def handler_get_app_name (s : AppState) : Effect := (s, [.send_info (ascii "HardMail".toList) SWO_SUCCESS])

def BOILERPLATE_SLIP44_COIN_TYPE : UInt32 := 0x8001
def BOILERPLATE_SLIP44_COIN_TYPE_HARDENED : UInt32 := 0x80008001

/-- Both forms of the coin type of this application are taken. -/
def validate_coin_type (coin_type : UInt32) : Bool :=
  coin_type = BOILERPLATE_SLIP44_COIN_TYPE ∨ coin_type = BOILERPLATE_SLIP44_COIN_TYPE_HARDENED

/-- Empties the token slot. -/
def init_dynamic_token_storage (s : AppState) : AppState := { s with g_dynamic_token_info := .zero }

/-- The string that `strncpy` leaves in a buffer of `n + 1` bytes, the last of which is
set to NUL behind it. -/
def strncpy {n : Nat} (src : CArray UInt8 (n + 1)) : List UInt8 := (cString src).take n

/-- Stores a token in the slot. -/
def set_token_info (s : AppState) (decimals : UInt8) {MAX_TICKER_SIZE : Nat}
    (ticker : CArray UInt8 (MAX_TICKER_SIZE + 1)) (token_address : CArray UInt8 TOKEN_ADDRESS_LEN) : AppState :=
  { s with g_dynamic_token_info :=
      { address := token_address, ticker := strncpy ticker, decimals, received := true } }

/-- A ticker that ends within its buffer is copied whole. -/
theorem strncpy_eq {n : Nat} {src : CArray UInt8 (n + 1)} (hterminated : 0 ∈ src.toList) :
    strncpy src = cString src := by
  have hlt := untilTerminator_length_lt hterminated
  rw [src.length_toList] at hlt
  exact List.take_of_length_le (Nat.le_of_lt_succ hlt)

/-- Replaces the token slot by what a descriptor says, or empties it. -/
def handler_provide_token_info (s : AppState) (out : Outcomes) : Effect :=
  let s := init_dynamic_token_storage s
  match out.descriptor with
  | none => io_send_sw s SW_INVALID_DYNAMIC_TOKEN
  | some tlv_output =>
    if !validate_coin_type tlv_output.coin_type then io_send_sw s SW_INVALID_DYNAMIC_TOKEN
    else match tlv_output.TUID with
      | none => io_send_sw s SW_INVALID_DYNAMIC_TOKEN
      | some none => io_send_sw s SW_INVALID_DYNAMIC_TOKEN
      | some (some address) =>
        io_send_sw (set_token_info s tlv_output.magnitude tlv_output.ticker address) SWO_SUCCESS

end hardmail
