import HardMail.Handler.GetPublicKey

open memory

namespace hardmail

/-- Answers the command that opened an address review. -/
def validate_pubkey (s : AppState) (choice : Bool) : Effect :=
  if choice then helper_send_response_pubkey s else io_send_sw s SWO_CONDITIONS_NOT_SATISFIED

/-- Signs the hash in the context with the key of the path in the context. -/
def crypto_sign_message (sdk : Sdk) (G : GlobalCtx) (out : Outcomes) : GlobalCtx × Bool :=
  match out.sign with
  | some failure => ({ G with tx_info := { G.tx_info with signature := failure.residue } }, false)
  | none =>
    let sig := sdk.sign out G.derivationPath G.tx_info.m_hash
    ({ G with tx_info := { G.tx_info with
        signature := G.tx_info.signature.blit 0 sig.val (by have h := sig.property; omega)
        signature_len := UInt8.ofNat sig.val.length
        v := 0 } }, true)

/-- `signature_len | signature | v` -/
def signatureResponse (G : GlobalCtx) : List UInt8 :=
  G.tx_info.signature_len ::
    G.tx_info.signature.toList.take G.tx_info.signature_len.toNat ++ [G.tx_info.v]

/-- Sends the signature of the context. -/
def helper_send_response_sig (s : AppState) : Effect :=
  (s, [.helper_send_response_sig (signatureResponse s.G_context) SWO_SUCCESS])

/-- Answers the command that opened an email review. Neither the state nor the
request type of the context is looked at. -/
def validate_transaction (sdk : Sdk) (s : AppState) (choice : Bool) (out : Outcomes) : Effect :=
  let G := s.G_context
  if choice then
    let call := Event.bip32_derive_eddsa_sign_hash_256 G.bip32_path G.bip32_path_len G.tx_info.m_hash
    match crypto_sign_message sdk { G with state := .STATE_APPROVED } out with
    | (G, false) =>
      ({ s with G_context := { G with state := .STATE_NONE } }, [call, .io_send_sw SWO_SECURITY_ISSUE])
    | (G, true) =>
      match helper_send_response_sig { s with G_context := G } with
      | (s, events) => (s, call :: events)
  else io_send_sw { s with G_context := { G with state := .STATE_NONE } } SWO_CONDITIONS_NOT_SATISFIED

/-- The `review_choice` of the review on the screen, which the answer takes off the
screen. -/
def review_choice (sdk : Sdk) (s : AppState) (confirm : Bool) (out : Outcomes) : Effect :=
  match s.screen with
  | none => (s, [])
  | some (.email _) => validate_transaction sdk { s with screen := none } confirm out
  | some (.address _) => validate_pubkey { s with screen := none } confirm

end hardmail
