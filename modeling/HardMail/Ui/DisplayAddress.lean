import HardMail.App.State

open memory codec

namespace hardmail

/-- The last bytes of the hash of a public key without its format byte. -/
def address_from_pubkey (sdk : Sdk) (public_key : CArray UInt8 PUBKEY_LEN) (out : Outcomes) :
    Option (List UInt8) :=
  match out.keccak with
  | some _ => none
  | none =>
    some (slice (sdk.cx_keccak_256_hash (slice public_key.toList 1 64)).toList (32 - ADDRESS_LEN) ADDRESS_LEN)

/-- Opens the review of the address of the key in the context. -/
def ui_display_address (sdk : Sdk) (s : AppState) (out : Outcomes) : Effect :=
  let G := s.G_context
  if G.req_type ≠ .CONFIRM_ADDRESS ∨ G.state ≠ .STATE_NONE then
    io_send_sw { s with G_context := { G with state := .STATE_NONE } } SWO_CONDITIONS_NOT_SATISFIED
  else
    let s := { s with g_address := .fill 43 0 }
    match address_from_pubkey sdk G.raw_public_key out with
    | none => io_send_sw s SWO_INCORRECT_DATA
    | some address =>
      match format_hex address s.g_address with
      | none => io_send_sw s SWO_INCORRECT_DATA
      | some g_address =>
        ({ s with g_address, screen := some (.address (cString g_address)) },
          [.review (.address (cString g_address))])

end hardmail
