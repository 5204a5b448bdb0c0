import HardMail.Handler.Path
import HardMail.Ui.DisplayTransaction

open memory codec

namespace hardmail

open deserialize

/-- Starts a session: resets the context, then reads the derivation path. A refused
path leaves the request type behind. -/
def init_transaction_context (s : AppState) (cdata : Buffer) (req_type : RequestType) (out : Outcomes) :
    Effect :=
  match readPath (resetContext req_type) cdata out with
  | (G, false) => io_send_sw { s with G_context := G } SWO_WRONG_DATA_LENGTH
  | (G, true) => io_send_sw { s with G_context := G } SWO_SUCCESS

/-- Appends a chunk to the payload, for the request type of the session only. -/
def accumulate_transaction_data (G : GlobalCtx) (cdata : Buffer) (req_type : RequestType) :
    GlobalCtx × UInt16 :=
  if G.req_type ≠ req_type then (G, SWO_CONDITIONS_NOT_SATISFIED)
  else if h : G.tx_info.raw_tx_len + cdata.size > MAX_TRANSACTION_LEN then (G, SWO_WRONG_DATA_LENGTH)
  else match buffer_move cdata cdata.size with
    | none => (G, SWO_INCORRECT_DATA)
    | some (bytes, _) =>
      ({ G with tx_info := { G.tx_info with
          raw_tx := G.tx_info.raw_tx.blit G.tx_info.raw_tx_len bytes.val
            (by have hbytes := bytes.property; omega)
          raw_tx_len := G.tx_info.raw_tx_len + cdata.size } }, SWO_SUCCESS)

/-- Parses the payload and hashes it. The state is set before the hash. -/
def process_transaction (sdk : Sdk) (G : GlobalCtx) (out : Outcomes) : GlobalCtx × UInt16 :=
  match transaction_deserialize G.payloadBuffer G.tx_info.transaction with
  | (status, parsed) =>
    let tx_info := { G.tx_info with is_token_tx := false, transaction := parsed.tx }
    if status ≠ .PARSING_OK then ({ G with tx_info }, SWO_INCORRECT_DATA)
    else match out.hash with
      | some residue =>
        ({ G with state := .STATE_PARSED, tx_info := { tx_info with m_hash := residue } }, SWO_INCORRECT_DATA)
      | none =>
        ({ G with state := .STATE_PARSED, tx_info := { tx_info with m_hash := sdk.cx_hash_sha256 G.payload } },
          SWO_SUCCESS)

def handler_sign_tx (sdk : Sdk) (s : AppState) (cdata : Buffer) (chunk : UInt8) (more is_token_tx : Bool)
    (out : Outcomes) : Effect :=
  let req_type : RequestType := if is_token_tx then .CONFIRM_TOKEN_TRANSACTION else .CONFIRM_TRANSACTION
  if chunk = 0 then init_transaction_context s cdata req_type out
  else match accumulate_transaction_data s.G_context cdata req_type with
    | (G, err) =>
      if err ≠ SWO_SUCCESS then io_send_sw { s with G_context := G } err
      else if more then io_send_sw { s with G_context := G } SWO_SUCCESS
      else match process_transaction sdk G out with
        | (G, err) =>
          if err ≠ SWO_SUCCESS then io_send_sw { s with G_context := G } err
          else ui_display_transaction { s with G_context := G }

end hardmail
