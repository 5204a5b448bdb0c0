import HardMail.Handler.SignTx
import HardMail.Handler.Info
import HardMail.Ui.Validate

open memory

namespace hardmail

def apdu_dispatcher (sdk : Sdk) (s : AppState) (cmd : Command) (out : Outcomes) : Effect :=
  if cmd.cla ≠ CLA then io_send_sw s SWO_INVALID_CLA
  else if cmd.ins = GET_VERSION then
    if cmd.p1 ≠ 0 ∨ cmd.p2 ≠ 0 then io_send_sw s SWO_INCORRECT_P1_P2 else handler_get_version s
  else if cmd.ins = GET_APP_NAME then
    if cmd.p1 ≠ 0 ∨ cmd.p2 ≠ 0 then io_send_sw s SWO_INCORRECT_P1_P2 else handler_get_app_name s
  else if cmd.ins = GET_PUBLIC_KEY then
    if cmd.p1 > 1 ∨ cmd.p2 > 0 then io_send_sw s SWO_INCORRECT_P1_P2
    else if cmd.data = [] then io_send_sw s SWO_WRONG_DATA_LENGTH
    else handler_get_public_key sdk s (.ofBytes cmd.data) (cmd.p1 ≠ 0) out
  else if cmd.ins = SIGN_TX ∨ cmd.ins = SIGN_TOKEN_TX then
    if cmd.p1 = P1_START ∧ cmd.p2 ≠ P2_MORE ∨ cmd.p1 > P1_MAX ∨ cmd.p2 ≠ P2_LAST ∧ cmd.p2 ≠ P2_MORE then
      io_send_sw s SWO_INCORRECT_P1_P2
    else if cmd.data = [] then io_send_sw s SWO_WRONG_DATA_LENGTH
    else handler_sign_tx sdk s (.ofBytes cmd.data) cmd.p1 (cmd.p2 &&& P2_MORE ≠ 0) (cmd.ins = SIGN_TOKEN_TX) out
  else if cmd.ins = PROVIDE_TOKEN_INFO then
    if cmd.p1 ≠ 0 ∨ cmd.p2 ≠ 0 then io_send_sw s SWO_INCORRECT_P1_P2
    else if cmd.data = [] then io_send_sw s SWO_WRONG_DATA_LENGTH
    else handler_provide_token_info s out
  else io_send_sw s SWO_INVALID_INS

end hardmail
