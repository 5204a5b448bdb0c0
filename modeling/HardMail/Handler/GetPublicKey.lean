import HardMail.Handler.Path
import HardMail.Ui.DisplayAddress

open memory codec

namespace hardmail

/-- `PUBKEY_LEN | key | CHAINCODE_LEN | chain code` -/
def pubkeyResponse (key : CArray UInt8 PUBKEY_LEN) (code : CArray UInt8 CHAINCODE_LEN) : List UInt8 :=
  UInt8.ofNat PUBKEY_LEN :: key.toList ++ UInt8.ofNat CHAINCODE_LEN :: code.toList

/-- The response determines the key and the chain code. -/
theorem pubkeyResponse_injective {key key' : CArray UInt8 PUBKEY_LEN} {code code' : CArray UInt8 CHAINCODE_LEN}
    (h : pubkeyResponse key code = pubkeyResponse key' code') : key = key' ∧ code = code' := by
  simp only [pubkeyResponse, List.cons_append, List.cons.injEq, true_and] at h
  obtain ⟨hkey, hcode⟩ := List.append_inj h (by rw [key.length_toList, key'.length_toList])
  exact ⟨CArray.ext hkey, CArray.ext (List.cons.inj hcode).2⟩

/-- Sends the key material of the context. -/
def helper_send_response_pubkey (s : AppState) : Effect :=
  (s, [.helper_send_response_pubkey (pubkeyResponse s.G_context.raw_public_key s.G_context.chain_code) SWO_SUCCESS])

/-- Derives the key of a path into the context, then shows its address or answers. -/
def handler_get_public_key (sdk : Sdk) (s : AppState) (cdata : Buffer) (display : Bool) (out : Outcomes) :
    Effect :=
  match readPath (resetContext .CONFIRM_ADDRESS) cdata out with
  | (G, false) => io_send_sw { s with G_context := G } SWO_WRONG_DATA_LENGTH
  | (G, true) =>
    let call := Event.bip32_derive_get_pubkey_256 G.bip32_path G.bip32_path_len
    match out.derive with
    | some failure =>
      let G := (G.setRawPublicKey failure.residue.1).setChainCode failure.residue.2
      ({ s with G_context := G }, [call, .io_send_sw failure.error.val.toUInt16])
    | none =>
      let derived := sdk.derive out G.derivationPath
      let G := (G.setRawPublicKey derived.1).setChainCode derived.2
      match out.compress with
      | some failure =>
        ({ s with G_context := G.setRawPublicKey failure.residue },
          [call, .io_send_sw failure.error.val.toUInt16])
      | none =>
        let G := G.setRawPublicKey (sdk.cx_edwards_compress_point G.raw_public_key)
        let s := { s with G_context := G }
        match (if display then ui_display_address sdk s out else helper_send_response_pubkey s) with
        | (s, events) => (s, call :: events)

end hardmail
