import HardMail.Device.Dispatch
import HardMail.Machine.Simulation

open memory codec machine

namespace hardmail

open deserialize

/-- The token in the slot. -/
def DynamicTokenInfo.token (info : DynamicTokenInfo) : Option (CArray UInt8 TOKEN_ADDRESS_LEN × TokenInfo) :=
  if info.received then some (info.address, ⟨info.ticker, info.decimals⟩) else none

/-- The context holds what the device remembers. The length field counts only in the
sessions that receive a payload. -/
structure GlobalCtx.Holds (G : GlobalCtx) (d : Device) : Prop where
  req_type_eq : G.req_type = d.purpose
  path_eq : G.derivationPath = d.path
  raw_tx_eq : G.tx_info.raw_tx.toList = d.memory
  raw_tx_len_eq : d.purpose ≠ .CONFIRM_ADDRESS → G.tx_info.raw_tx_len = d.stored.length
  m_hash_eq : G.tx_info.m_hash = d.digest

/-- The state of the application realizes a state of the device. -/
structure Realizes (s : AppState) (d : Device) : Prop where
  holds : s.G_context.Holds d
  token_eq : s.g_dynamic_token_info.token = d.token
  screen_eq : s.screen = d.screen

/-- An effect of the code does what the device does. -/
structure Effects (effect : Effect) (reaction : Reaction) : Prop where
  realizes : Realizes effect.1 reaction.1
  reports_eq : reaction.2 = effect.2.map Event.report

variable {sdk : Sdk} {s : AppState} {d : Device} {G : GlobalCtx} {out : Outcomes}

/-- A status word that is sent is the response the device makes. -/
theorem Realizes.io_send_sw (h : Realizes s d) (sw : UInt16) : Effects (hardmail.io_send_sw s sw) (respond d sw) :=
  ⟨h, rfl⟩

/-- The application starts as the device does. -/
theorem realizes_init : Realizes .init .init := by
  refine ⟨⟨rfl, rfl, ?_, fun h => absurd rfl h, rfl⟩, rfl, rfl⟩
  rw [Device.memory, Device.init, padded_nil]
  rfl

/-- What a handler holds that starts from a cleared context. -/
theorem readPath_holds (d : Device) (purpose : RequestType) (data : List UInt8) (out : Outcomes) :
    ∃ G : GlobalCtx, readPath (resetContext purpose) (.ofBytes data) out = (G, (pathOf data).isSome) ∧
      G.state = .STATE_NONE ∧ G.tx_info = GlobalCtx.zero.tx_info ∧
      G.Holds (d.reset purpose ((pathOf data).elim (refusedPath data out) .of)) := by
  obtain ⟨hstate, hreq, htx⟩ := readPath_frame (resetContext purpose) (.ofBytes data) out
  have hpath : (readPath (resetContext purpose) (.ofBytes data) out).2 = (pathOf data).isSome ∧
      (readPath (resetContext purpose) (.ofBytes data) out).1.derivationPath =
        (pathOf data).elim (refusedPath data out) .of := by
    obtain ⟨words, hwords, hok, hpath, hlen⟩ | ⟨hnone, hfail⟩ := readPath_cases (resetContext purpose) data out
    · rw [hwords]
      exact ⟨hok, HoldsPath.path_eq ⟨hpath, hlen⟩⟩
    · refine ⟨by rw [hfail, hnone]; rfl, ?_⟩
      rw [hnone, Option.elim_none]
      cases data with
      | nil => rfl
      | cons len bytes =>
        have hlen := buffer_read_u8_of_rest (Buffer.ofBytes_valid (len :: bytes)) (Buffer.ofBytes_rest _)
        simp only [readPath, hlen] at hfail ⊢
        cases hread : buffer_read_bip32_path ((Buffer.ofBytes (len :: bytes)).advance 1) len.toNat with
        | none => rfl
        | some read =>
          rw [hread] at hfail
          cases hfail
  generalize readPath (resetContext purpose) (.ofBytes data) out = result at hstate hreq htx hpath
  obtain ⟨G, ok⟩ := result
  obtain ⟨rfl, hpath⟩ := hpath
  dsimp only at hstate hreq htx hpath
  refine ⟨G, rfl, hstate, htx, hreq, hpath, ?_, fun _ => by rw [htx]; rfl, by rw [htx]; rfl⟩
  rw [htx, Device.memory, Device.reset, padded_nil]
  rfl

/-- Chunk 0 of the code is the start of a session of the device, also when it is refused:
both then keep the length byte and what the reader has left of the words. -/
theorem init_transaction_context_effects (h : Realizes s d) (is_token_tx : Bool) (data : List UInt8) (out : Outcomes) :
    Effects (init_transaction_context s (.ofBytes data) (requestType is_token_tx) out)
      (d.beginSession (requestType is_token_tx) data out) := by
  obtain ⟨G, hread, -, -, hholds⟩ := readPath_holds d (requestType is_token_tx) data out
  cases hpath : pathOf data with
  | none =>
    rw [hpath, Option.isSome_none] at hread
    rw [hpath, Option.elim_none] at hholds
    simp only [init_transaction_context, hread, Device.beginSession, hpath]
    exact ⟨⟨hholds, h.token_eq, h.screen_eq⟩, rfl⟩
  | some words =>
    rw [hpath, Option.isSome_some] at hread
    rw [hpath, Option.elim_some] at hholds
    simp only [init_transaction_context, hread, Device.beginSession, hpath]
    exact ⟨⟨hholds, h.token_eq, h.screen_eq⟩, rfl⟩

/-- Key material overwrites the received bytes, which the device stores in their place. -/
theorem GlobalCtx.Holds.setKey (h : G.Holds d) (hstored : d.stored = []) (hpurpose : d.purpose = .CONFIRM_ADDRESS)
    (key : KeyMaterial) : ((G.setRawPublicKey key.1).setChainCode key.2).Holds (d.keep key) := by
  refine ⟨h.req_type_eq, h.path_eq, ?_, fun hne => absurd hpurpose hne, h.m_hash_eq⟩
  have hkey := blit_padded MAX_TRANSACTION_LEN 0 [] key.1.toList
  have hcode := blit_padded MAX_TRANSACTION_LEN 0 key.1.toList key.2.toList
  rw [List.nil_append] at hkey
  rw [key.1.length_toList] at hcode
  have hraw := h.raw_tx_eq
  rw [Device.memory, hstored] at hraw
  simp only [GlobalCtx.setChainCode, GlobalCtx.setRawPublicKey, CArray.toList_blit, hraw]
  exact (congrArg (memory.blit · PUBKEY_LEN key.2.toList) hkey).trans hcode

/-- The public key is overwritten by its compressed form, and the chain code stays. -/
theorem GlobalCtx.Holds.setRawPublicKey {key : KeyMaterial} (h : G.Holds (d.keep key))
    (new : CArray UInt8 PUBKEY_LEN) (hpurpose : d.purpose = .CONFIRM_ADDRESS) :
    (G.setRawPublicKey new).Holds (d.keep (new, key.2)) := by
  refine ⟨h.req_type_eq, h.path_eq, ?_, fun hne => absurd hpurpose hne, h.m_hash_eq⟩
  have hraw := h.raw_tx_eq
  rw [Device.memory, Device.keep] at hraw
  simp only [GlobalCtx.setRawPublicKey, CArray.toList_blit, hraw]
  exact blit_padded_zero _ _ (by rw [key.1.length_toList, new.length_toList])

/-- The context exports what the device does, be it a key or not. -/
theorem GlobalCtx.Holds.exported (h : G.Holds d) : pubkeyResponse G.raw_public_key G.chain_code = d.exported := by
  simp only [pubkeyResponse, Device.exported, GlobalCtx.raw_public_key, GlobalCtx.chain_code, CArray.sub, h.raw_tx_eq]

/-- An address that cannot be computed is not shown, and the text of the one before is gone. -/
theorem ui_display_address_of_keccak (sdk : Sdk) (s : AppState) {error : CxError} (hkeccak : out.keccak = some error)
    (hreset : Reset .CONFIRM_ADDRESS s.G_context) :
    ui_display_address sdk s out = ({ s with g_address := .fill 43 0 }, [.io_send_sw SWO_INCORRECT_DATA]) := by
  have hcheck : ¬ (s.G_context.req_type ≠ .CONFIRM_ADDRESS ∨ s.G_context.state ≠ .STATE_NONE) := by
    simp [hreset.req_type_eq, hreset.state_eq]
  simp only [ui_display_address, if_neg hcheck, address_from_pubkey, hkeccak]
  rfl

/-- The key material that is exported, when key material is stored. -/
theorem Device.exported_keep (d : Device) (key : KeyMaterial) :
    (d.keep key).exported = pubkeyResponse key.1 key.2 := by
  have hkey : slice (d.keep key).memory 0 PUBKEY_LEN = key.1.toList := by
    have hdrop : (d.keep key).memory.drop 0 = key.1.toList ++ (key.2.toList ++
        List.replicate (MAX_TRANSACTION_LEN - (d.keep key).stored.length) 0) := by
      simp only [Device.memory, Device.keep, padded, List.append_assoc, List.drop_zero]
    have hslice := slice_eq_of_drop_eq hdrop
    rwa [key.1.length_toList] at hslice
  have hcode : slice (d.keep key).memory PUBKEY_LEN CHAINCODE_LEN = key.2.toList := by
    have hdrop : (d.keep key).memory.drop PUBKEY_LEN = key.2.toList ++
        List.replicate (MAX_TRANSACTION_LEN - (d.keep key).stored.length) 0 := by
      simp only [Device.memory, Device.keep, padded, List.append_assoc]
      exact List.drop_left' key.1.length_toList
    have hslice := slice_eq_of_drop_eq hdrop
    rwa [key.2.length_toList] at hslice
  rw [Device.exported, hkey, hcode]
  rfl

/-- The end of a GET_PUBLIC_KEY whose key is in the context. -/
theorem answer_pubkey_effects (h : Realizes s d) {words : List UInt32} (display : Bool)
    (hholds : G.Holds ((d.reset .CONFIRM_ADDRESS (.of words)).keep (sdk.derivedKey words, sdk.derivedCode words)))
    {call : Event} (hcall : call.report = .derive (.of words)) (hreset : Reset .CONFIRM_ADDRESS G) :
    Effects
      (match (if display then ui_display_address sdk { s with G_context := G } out
          else helper_send_response_pubkey { s with G_context := G }) with
        | (s, events) => (s, call :: events))
      (if !display then
        ((d.reset .CONFIRM_ADDRESS (.of words)).keep (sdk.derivedKey words, sdk.derivedCode words),
          [.derive (.of words),
            .respond SWO_SUCCESS (pubkeyResponse (sdk.derivedKey words) (sdk.derivedCode words))])
      else if out.keccak.isSome then
        ((d.reset .CONFIRM_ADDRESS (.of words)).keep (sdk.derivedKey words, sdk.derivedCode words),
          [.derive (.of words), .respond SWO_INCORRECT_DATA []])
      else
        ({ (d.reset .CONFIRM_ADDRESS (.of words)).keep (sdk.derivedKey words, sdk.derivedCode words) with
          screen := some (.address (sdk.addressText (sdk.derivedKey words))) },
          [.derive (.of words), .review (.address (sdk.addressText (sdk.derivedKey words)))])) := by
  have hexported := hholds.exported
  rw [Device.exported_keep] at hexported
  have hkey : G.raw_public_key = sdk.derivedKey words := (pubkeyResponse_injective hexported).1
  cases display with
  | false =>
    refine ⟨⟨hholds, h.token_eq, h.screen_eq⟩, ?_⟩
    simp only [helper_send_response_pubkey, hexported, Bool.false_eq_true, if_false, Bool.not_false, if_true]
    rw [List.map_cons, hcall]
    rfl
  | true =>
    simp only [Bool.not_true, Bool.false_eq_true, if_false, if_true]
    cases hkeccak : out.keccak with
    | some error =>
      rw [ui_display_address_of_keccak sdk { s with G_context := G } hkeccak hreset]
      refine ⟨⟨hholds, h.token_eq, h.screen_eq⟩, ?_⟩
      rw [Option.isSome_some, if_pos rfl, List.map_cons, hcall]
      rfl
    | none =>
      obtain ⟨g_address, hfail, -⟩ | ⟨g_address, hresult⟩ :=
        ui_display_address_cases sdk { s with G_context := G } out hreset
      · exact absurd hkeccak hfail
      · rw [hresult]
        dsimp only
        rw [hkey]
        refine ⟨⟨⟨hholds.req_type_eq, hholds.path_eq, hholds.raw_tx_eq, hholds.raw_tx_len_eq, hholds.m_hash_eq⟩,
          h.token_eq, rfl⟩, ?_⟩
        rw [Option.isSome_none, if_neg Bool.false_ne_true, List.map_cons, hcall]
        rfl

/-- GET_PUBLIC_KEY of the code is the export of the device, on every path. -/
theorem handler_get_public_key_effects (h : Realizes s d) (data : List UInt8) (display : Bool) (out : Outcomes) :
    Effects (handler_get_public_key sdk s (.ofBytes data) display out) (d.exportKey sdk data display out) := by
  obtain ⟨G, hread, hstate, htx, hholds⟩ := readPath_holds d .CONFIRM_ADDRESS data out
  cases hpath : pathOf data with
  | none =>
    rw [hpath, Option.isSome_none] at hread
    rw [hpath, Option.elim_none] at hholds
    simp only [handler_get_public_key, hread, Device.exportKey, hpath]
    exact ⟨⟨hholds, h.token_eq, h.screen_eq⟩, rfl⟩
  | some words =>
    rw [hpath, Option.isSome_some] at hread
    rw [hpath, Option.elim_some] at hholds
    have hwords : G.derivationPath = .of words := hholds.path_eq
    have hderived := sdk.derive_of out (pathOf_length hpath).2
    simp only [handler_get_public_key, hread, Device.exportKey, hpath]
    cases hderive : out.derive with
    | some failure =>
      refine ⟨⟨hholds.setKey rfl rfl failure.residue, h.token_eq, h.screen_eq⟩, ?_⟩
      rw [← hwords]
      rfl
    | none =>
      have hkept := hholds.setKey rfl rfl (sdk.bip32_derive_get_pubkey_256 words)
      cases hcompress : out.compress with
      | some failure =>
        refine ⟨⟨?_, h.token_eq, h.screen_eq⟩, ?_⟩
        · rw [hwords, hderived]
          exact hkept.setRawPublicKey failure.residue rfl
        · rw [← hwords]
          rfl
      | none =>
        have hkey : ((G.setRawPublicKey (sdk.derive out G.derivationPath).1).setChainCode
            (sdk.derive out G.derivationPath).2).raw_public_key = (sdk.bip32_derive_get_pubkey_256 words).1 := by
          rw [hwords, hderived, GlobalCtx.raw_public_key_setChainCode, GlobalCtx.raw_public_key_setRawPublicKey]
        have hlen : G.tx_info.raw_tx_len = 0 := by
          rw [htx]
          rfl
        simp only [hkey]
        rw [hwords, hderived]
        exact answer_pubkey_effects h display (hkept.setRawPublicKey (sdk.derivedKey words) rfl)
          (congrArg Report.derive hwords) ⟨hholds.req_type_eq, hstate, hlen⟩

/-- In the sessions that receive one, what is stored is the payload. -/
theorem GlobalCtx.Holds.payload_eq (h : G.Holds d) (hpurpose : d.purpose ≠ .CONFIRM_ADDRESS) :
    G.payload = d.stored := by
  rw [GlobalCtx.payload, h.raw_tx_eq, h.raw_tx_len_eq hpurpose, Device.memory, take_padded]

/-- No signing session is a request for an address. -/
theorem requestType_ne_address (is_token_tx : Bool) : requestType is_token_tx ≠ .CONFIRM_ADDRESS := by
  cases is_token_tx <;> decide

/-- A chunk is stored, or refused for its session first and its size second. -/
theorem accumulate_transaction_data_holds (h : G.Holds d) (is_token_tx : Bool) (chunk : List UInt8) :
    (d.purpose ≠ requestType is_token_tx ∧
      accumulate_transaction_data G (.ofBytes chunk) (requestType is_token_tx) = (G, SWO_CONDITIONS_NOT_SATISFIED)) ∨
    (d.purpose = requestType is_token_tx ∧ ¬ (d.stored ++ chunk).length ≤ MAX_TRANSACTION_LEN ∧
      accumulate_transaction_data G (.ofBytes chunk) (requestType is_token_tx) = (G, SWO_WRONG_DATA_LENGTH)) ∨
    (d.purpose = requestType is_token_tx ∧
      ∃ (hroom : (d.stored ++ chunk).length ≤ MAX_TRANSACTION_LEN) (G' : GlobalCtx),
        accumulate_transaction_data G (.ofBytes chunk) (requestType is_token_tx) = (G', SWO_SUCCESS) ∧
          G'.Holds (d.append chunk hroom)) := by
  have hsize : (Buffer.ofBytes chunk).size = chunk.length := rfl
  by_cases hreq : d.purpose = requestType is_token_tx
  · have hne : d.purpose ≠ .CONFIRM_ADDRESS := hreq ▸ requestType_ne_address is_token_tx
    have hlen := h.raw_tx_len_eq hne
    by_cases hroom : (d.stored ++ chunk).length ≤ MAX_TRANSACTION_LEN
    · right; right
      have hfit : ¬ G.tx_info.raw_tx_len + (Buffer.ofBytes chunk).size > MAX_TRANSACTION_LEN := by
        rw [hlen, hsize, ← List.length_append]
        exact Nat.not_lt.mpr hroom
      have hmove : (Buffer.ofBytes chunk).size - (Buffer.ofBytes chunk).offset ≤ (Buffer.ofBytes chunk).size :=
        Nat.sub_le _ _
      have hbytes : slice (Buffer.ofBytes chunk).ptr (Buffer.ofBytes chunk).offset
          ((Buffer.ofBytes chunk).size - (Buffer.ofBytes chunk).offset) = chunk := by
        simp only [Buffer.ofBytes, Nat.sub_zero, slice_zero, List.take_length]
      refine ⟨hreq, hroom, ?_⟩
      simp only [accumulate_transaction_data, if_neg (not_not_intro (h.req_type_eq.trans hreq)), dif_neg hfit,
        buffer_move, dif_pos hmove]
      refine ⟨_, rfl, h.req_type_eq, h.path_eq, ?_, fun _ => ?_, h.m_hash_eq⟩
      · simp only [CArray.toList_blit, hbytes, h.raw_tx_eq, hlen]
        exact blit_padded _ _ _ _
      · simp only [hlen, hsize]
        exact List.length_append.symm
    · right; left
      refine ⟨hreq, hroom, ?_⟩
      have hover : G.tx_info.raw_tx_len + (Buffer.ofBytes chunk).size > MAX_TRANSACTION_LEN := by
        rw [hlen, hsize, ← List.length_append]
        exact Nat.not_le.mp hroom
      rw [accumulate_transaction_data, if_neg (not_not_intro (h.req_type_eq.trans hreq)), dif_pos hover]
  · left
    refine ⟨hreq, ?_⟩
    rw [accumulate_transaction_data, if_pos (h.req_type_eq.symm ▸ hreq)]

/-- The payload of an email is decoded to that email, with nothing left over. -/
theorem Email.decode_wire (e : Email) : emailCodec.decode e.wire = some (e, []) := by
  have hdecode := emailCodec.decode_encode e []
  rwa [emailCodec_encode, List.append_nil] at hdecode

/-- What is decoded to an email with nothing left over is its payload. -/
theorem Email.eq_wire_of_decode {payload : List UInt8} {e : Email} (h : emailCodec.decode payload = some (e, [])) :
    payload = e.wire := by
  have hwire := emailCodec.encode_of_decode payload e [] h
  rwa [emailCodec_encode, List.append_nil] at hwire

/-- The device refuses what is not the payload of an email. -/
theorem Device.complete_malformed (sdk : Sdk) {d : Device} (hbad : ∀ e : Email, d.stored ≠ e.wire)
    (purpose : RequestType) (out : Outcomes) : d.complete sdk purpose out = respond d SWO_INCORRECT_DATA := by
  unfold Device.complete
  split
  · rename_i hdecode hhash
    exact absurd (Email.eq_wire_of_decode hdecode) (hbad _)
  · rename_i hdecode hhash
    exact absurd (Email.eq_wire_of_decode hdecode) (hbad _)
  · rfl

/-- Parsing, hashing and showing the payload in the context. -/
theorem complete_effects (h : Realizes s d) {is_token_tx : Bool} (hpurpose : d.purpose = requestType is_token_tx)
    (out : Outcomes) :
    Effects
      (match process_transaction sdk s.G_context out with
        | (G, err) =>
          if err ≠ SWO_SUCCESS then io_send_sw { s with G_context := G } err
          else ui_display_transaction { s with G_context := G })
      (d.complete sdk (requestType is_token_tx) out) := by
  have hne : d.purpose ≠ .CONFIRM_ADDRESS := hpurpose ▸ requestType_ne_address is_token_tx
  have hpayload := h.holds.payload_eq hne
  have hlen : s.G_context.tx_info.raw_tx_len ≤ MAX_TRANSACTION_LEN := by
    rw [h.holds.raw_tx_len_eq hne]
    exact d.room
  obtain ⟨hreq, hpath, hraw, hcount, hhash⟩ := h.holds
  have hincorrect : SWO_INCORRECT_DATA ≠ SWO_SUCCESS := by decide
  obtain ⟨tx, hbad, hprocess⟩ | ⟨e, residue, hwire, hfail, hprocess⟩ | ⟨e, hwire, hok, hrep, hprocess⟩ :=
    process_transaction_cases sdk s.G_context out hlen
  · rw [hpayload] at hbad
    simp only [hprocess, if_pos hincorrect, Device.complete_malformed sdk hbad]
    exact ⟨⟨⟨hreq, hpath, hraw, hcount, hhash⟩, h.token_eq, h.screen_eq⟩, rfl⟩
  · have hdecode : emailCodec.decode d.stored = some (e, []) := by
      rw [← hpayload, hwire, e.decode_wire]
    simp only [hprocess, if_pos hincorrect, Device.complete, hdecode, hfail]
    exact ⟨⟨⟨hreq, hpath, hraw, hcount, rfl⟩, h.token_eq, h.screen_eq⟩, rfl⟩
  · have hstored : e.wire = d.stored := hwire.symm.trans hpayload
    have hdecode : emailCodec.decode d.stored = some (e, []) := by
      rw [← hstored, e.decode_wire]
    have hdigest : sdk.cx_hash_sha256 e.wire = sdk.cx_hash_sha256 d.stored := by rw [hstored]
    simp only [hprocess, ne_eq, not_true_eq_false, if_false, Device.complete, hdecode, hok]
    cases is_token_tx with
    | true =>
      have htoken : s.G_context.req_type ≠ .CONFIRM_TRANSACTION := by
        rw [hreq, hpurpose]
        decide
      simp only [ui_display_transaction, if_pos (Or.inl htoken)]
      exact ⟨⟨⟨hreq, hpath, hraw, hcount, hdigest⟩, h.token_eq, h.screen_eq⟩, rfl⟩
    | false =>
      obtain ⟨display, hresult⟩ := ui_display_transaction_of_represents
        (s := { s with G_context := { s.G_context with
          state := .STATE_PARSED
          tx_info := { s.G_context.tx_info with
            is_token_tx := false, transaction := layout e 0, m_hash := sdk.cx_hash_sha256 e.wire } } })
        (hreq.trans hpurpose) rfl hrep
      rw [hresult]
      exact ⟨⟨⟨hreq, hpath, hraw, hcount, hdigest⟩, h.token_eq, rfl⟩, rfl⟩

/-- A data chunk of the code is received by the device: the code parses and hashes its
buffer, the device decodes what it has stored. -/
theorem handler_sign_tx_effects (h : Realizes s d) (is_token_tx more : Bool) (chunk : List UInt8) (out : Outcomes) :
    Effects (handler_sign_tx sdk s (.ofBytes chunk) 1 more is_token_tx out)
      (d.receive sdk (requestType is_token_tx) more chunk out) := by
  have hone : (1 : UInt8) ≠ 0 := by decide
  have htype : (if is_token_tx then RequestType.CONFIRM_TOKEN_TRANSACTION else .CONFIRM_TRANSACTION) =
      requestType is_token_tx := rfl
  simp only [handler_sign_tx, if_neg hone, htype]
  obtain ⟨hreq, haccum⟩ | ⟨hreq, hroom, haccum⟩ | ⟨hreq, hroom, G, haccum, hholds⟩ :=
    accumulate_transaction_data_holds h.holds is_token_tx chunk
  · have hsw : SWO_CONDITIONS_NOT_SATISFIED ≠ SWO_SUCCESS := by decide
    simp only [haccum, if_pos hsw, Device.receive, if_pos hreq]
    exact h.io_send_sw _
  · have hsw : SWO_WRONG_DATA_LENGTH ≠ SWO_SUCCESS := by decide
    simp only [haccum, if_pos hsw, Device.receive, if_neg (not_not_intro hreq), dif_neg hroom]
    exact h.io_send_sw _
  · have hnext : Realizes { s with G_context := G } (d.append chunk hroom) := ⟨hholds, h.token_eq, h.screen_eq⟩
    simp only [haccum, ne_eq, not_true_eq_false, if_false, Device.receive, if_neg (not_not_intro hreq), dif_pos hroom]
    cases more with
    | true => exact hnext.io_send_sw _
    | false => exact complete_effects hnext hreq out

/-- PROVIDE_TOKEN_INFO of the code tells the device of a token, or makes it forget the one
it has. -/
theorem handler_provide_token_info_effects (h : Realizes s d) (out : Outcomes) :
    Effects (handler_provide_token_info s out) (d.learnToken out) := by
  have hslot : ∀ info : DynamicTokenInfo,
      Realizes { s with g_dynamic_token_info := info } { d with token := info.token } :=
    fun _ => ⟨⟨h.holds.req_type_eq, h.holds.path_eq, h.holds.raw_tx_eq, h.holds.raw_tx_len_eq, h.holds.m_hash_eq⟩,
      rfl, h.screen_eq⟩
  unfold handler_provide_token_info Device.learnToken
  cases hdescriptor : out.descriptor with
  | none => exact (hslot .zero).io_send_sw _
  | some descriptor =>
    dsimp only
    cases hcoin : validate_coin_type descriptor.coin_type with
    | false =>
      simp only [Option.bind_some, TokenDescriptor.token, hcoin]
      exact (hslot .zero).io_send_sw _
    | true =>
      simp only [Option.bind_some, TokenDescriptor.token, hcoin, if_true, Bool.not_true, Bool.false_eq_true, if_false]
      cases htuid : descriptor.TUID with
      | none => exact (hslot .zero).io_send_sw _
      | some tag =>
        cases tag with
        | none => exact (hslot .zero).io_send_sw _
        | some address =>
          rw [← strncpy_eq descriptor.terminated]
          exact (hslot ⟨true, address, strncpy descriptor.ticker, descriptor.magnitude⟩).io_send_sw _

/-- Each handler of the code does what the device makes of its instruction. -/
theorem Instruction.handle_effects (h : Realizes s d) (out : Outcomes) (instruction : Instruction) :
    Effects (instruction.handle sdk s out) (d.obey sdk out instruction) := by
  cases instruction with
  | version => exact ⟨h, rfl⟩
  | name => exact ⟨h, rfl⟩
  | pubkey data display => exact handler_get_public_key_effects h data display out
  | start is_token_tx data => exact init_transaction_context_effects h is_token_tx data out
  | chunk is_token_tx more data => exact handler_sign_tx_effects h is_token_tx more data out
  | token => exact handler_provide_token_info_effects h out

/-- The answer to a review signs or exports what the context holds, as the device does with
what it stores. -/
theorem review_choice_effects (h : Realizes s d) (confirm : Bool) (out : Outcomes) :
    Effects (review_choice sdk s confirm out) (d.answer sdk confirm out) := by
  have hstep := review_choice_step sdk s confirm out
  generalize review_choice sdk s confirm out = effect at hstep
  obtain ⟨s', events⟩ := effect
  obtain ⟨hreq, hpath, hraw, hcount, hhash⟩ := h.holds
  have hsigning : (signing s.G_context).report = .sign d.path d.digest := by rw [← hpath, ← hhash]; rfl
  cases hstep with
  | idle hscreen =>
    rw [h.screen_eq] at hscreen
    simp only [Device.answer, hscreen]
    exact ⟨h, rfl⟩
  | rejected hscreen hconfirm =>
    rw [h.screen_eq] at hscreen
    subst hconfirm
    simp only [Device.answer, hscreen]
    exact ⟨⟨⟨hreq, hpath, hraw, hcount, hhash⟩, h.token_eq, rfl⟩, rfl⟩
  | unsigned signature hscreen hconfirm hsign =>
    rw [h.screen_eq] at hscreen
    subst hconfirm
    simp only [Device.answer, hscreen, if_pos (Option.isSome_iff_ne_none.mpr hsign)]
    refine ⟨⟨⟨hreq, hpath, hraw, hcount, hhash⟩, h.token_eq, rfl⟩, ?_⟩
    rw [List.map_cons, hsigning]
    rfl
  | signed hscreen hconfirm hsign hsame hlen htx hsamehash =>
    rw [h.screen_eq] at hscreen
    subst hconfirm
    simp only [Device.answer, hscreen, hsign, Option.isSome_none, Bool.false_eq_true, if_false]
    refine ⟨⟨⟨hreq, hpath, hsame ▸ hraw, hlen ▸ hcount, hsamehash.trans hhash⟩, h.token_eq, rfl⟩, ?_⟩
    rw [List.map_cons, hsigning, hpath, hhash]
    rfl
  | verified hscreen hconfirm =>
    rw [h.screen_eq] at hscreen
    subst hconfirm
    simp only [Device.answer, hscreen]
    refine ⟨⟨⟨hreq, hpath, hraw, hcount, hhash⟩, h.token_eq, rfl⟩, ?_⟩
    rw [h.holds.exported]
    rfl
  | unverified hscreen hconfirm =>
    rw [h.screen_eq] at hscreen
    subst hconfirm
    simp only [Device.answer, hscreen]
    exact ⟨⟨⟨hreq, hpath, hraw, hcount, hhash⟩, h.token_eq, rfl⟩, rfl⟩

/-- Every input does to the code what it does to the device. -/
theorem step_effects (sdk : Sdk) (h : Realizes s d) (i : Input) : Effects (step sdk s i) (d.step sdk i) := by
  cases i with
  | apdu cmd out =>
    simp only [step, Device.step, apdu_dispatcher_eq]
    cases cmd.instruction with
    | error sw => exact h.io_send_sw sw
    | ok instruction => exact Instruction.handle_effects h out instruction
  | badLength => exact h.io_send_sw _
  | choice confirm out => exact review_choice_effects h confirm out

/-- The application refines the device step by step. -/
theorem app_simulates_device (sdk : Sdk) : Simulates (app sdk) (device sdk) Event.report Realizes := by
  refine ⟨realizes_init, ?_⟩
  intro i s d h
  have heffects := step_effects sdk h i
  exact ⟨heffects.realizes, heffects.reports_eq⟩

/-- Over every run of commands and answers, with calls that succeed or fail in any way, the
code reports what the device does. -/
theorem app_refines_device (sdk : Sdk) (h : List Input) :
    ((app sdk).emits .init h).map Event.report = (device sdk).emits .init h :=
  ((app_simulates_device sdk).emits_eq h).symm

end hardmail
