import HardMail.Apdu.Dispatcher
import HardMail.Machine.Run

open memory codec

namespace hardmail

open deserialize

/-- One turn of the main loop, or one answer of the user. -/
def step (sdk : Sdk) (s : AppState) : Input → Effect
  | .apdu cmd out => apdu_dispatcher sdk s cmd out
  | .badLength => io_send_sw s SWO_WRONG_DATA_LENGTH
  | .choice confirm out => review_choice sdk s confirm out

def app (sdk : Sdk) : machine.Machine AppState Input Event := ⟨.init, step sdk⟩

/-- What the dispatcher makes of a command, as far as the context is concerned. -/
inductive Request where
  /-- a GET_PUBLIC_KEY that reaches its handler -/
  | pubkey (data : List UInt8) (display : Bool)
  /-- a chunk 0 that reaches `handler_sign_tx` -/
  | start (is_token_tx : Bool) (data : List UInt8)
  /-- a later chunk that reaches `handler_sign_tx` -/
  | chunk (is_token_tx more : Bool) (data : List UInt8)
  | other
  deriving DecidableEq, Repr

def Command.request (cmd : Command) : Request :=
  if cmd.cla ≠ CLA then .other
  else if cmd.ins = GET_PUBLIC_KEY then
    if cmd.p1 > 1 ∨ cmd.p2 > 0 ∨ cmd.data = [] then .other
    else .pubkey cmd.data (cmd.p1 ≠ 0)
  else if cmd.ins = SIGN_TX ∨ cmd.ins = SIGN_TOKEN_TX then
    if (cmd.p1 = P1_START ∧ cmd.p2 ≠ P2_MORE ∨ cmd.p1 > P1_MAX ∨ cmd.p2 ≠ P2_LAST ∧ cmd.p2 ≠ P2_MORE) ∨
        cmd.data = [] then .other
    else if cmd.p1 = P1_START then .start (cmd.ins = SIGN_TOKEN_TX) cmd.data
    else .chunk (cmd.ins = SIGN_TOKEN_TX) (cmd.p2 = P2_MORE) cmd.data
  else .other

def requestType (is_token_tx : Bool) : RequestType :=
  if is_token_tx then .CONFIRM_TOKEN_TRANSACTION else .CONFIRM_TRANSACTION

/-- The context after appending a chunk to its payload. -/
structure Appends (G : GlobalCtx) (chunk : List UInt8) (G' : GlobalCtx) : Prop where
  room : G.tx_info.raw_tx_len + chunk.length ≤ MAX_TRANSACTION_LEN
  raw_tx_len_eq : G'.tx_info.raw_tx_len = G.tx_info.raw_tx_len + chunk.length
  payload_eq : G'.payload = G.payload ++ chunk
  state_eq : G'.state = G.state
  req_type_eq : G'.req_type = G.req_type
  bip32_path_eq : G'.bip32_path = G.bip32_path
  bip32_path_len_eq : G'.bip32_path_len = G.bip32_path_len
  m_hash_eq : G'.tx_info.m_hash = G.tx_info.m_hash
  transaction_eq : G'.tx_info.transaction = G.tx_info.transaction

/-- What has been received fits the buffer also after a chunk is appended. -/
theorem Appends.room_after {G G' : GlobalCtx} {chunk : List UInt8} (h : Appends G chunk G') :
    G'.tx_info.raw_tx_len ≤ MAX_TRANSACTION_LEN := by
  rw [h.raw_tx_len_eq]
  exact h.room

/-- What a chunk 0 can do. -/
inductive StartStep (s : AppState) (is_token_tx : Bool) (data : List UInt8) : AppState → List Event → Prop where
  | malformed {G : GlobalCtx} (hpath : pathOf data = none) (hreset : Reset (requestType is_token_tx) G) :
    StartStep s is_token_tx data { s with G_context := G } [.io_send_sw SWO_WRONG_DATA_LENGTH]
  | accepted {G : GlobalCtx} {words : List UInt32} (hpath : pathOf data = some words)
    (hreset : Reset (requestType is_token_tx) G) (hholds : HoldsPath words G) :
    StartStep s is_token_tx data { s with G_context := G } [.io_send_sw SWO_SUCCESS]

/-- What a later chunk can do. -/
inductive ChunkStep (sdk : Sdk) (out : Outcomes) (s : AppState) (is_token_tx more : Bool)
    (chunk : List UInt8) : AppState → List Event → Prop where
  | refused {sw : UInt16}
    (hrefuse : ¬ (s.G_context.req_type = requestType is_token_tx ∧
      s.G_context.tx_info.raw_tx_len + chunk.length ≤ MAX_TRANSACTION_LEN)) (hsw : sw ≠ SWO_SUCCESS) :
    ChunkStep sdk out s is_token_tx more chunk s [.io_send_sw sw]
  | stored {G : GlobalCtx} (hreq : s.G_context.req_type = requestType is_token_tx)
    (happends : Appends s.G_context chunk G) (hmore : more = true) :
    ChunkStep sdk out s is_token_tx more chunk { s with G_context := G } [.io_send_sw SWO_SUCCESS]
  | malformed {G : GlobalCtx} (tx : Transaction) (hreq : s.G_context.req_type = requestType is_token_tx)
    (happends : Appends s.G_context chunk G) (hmore : more = false) (hbad : ∀ e : Email, G.payload ≠ e.wire) :
    ChunkStep sdk out s is_token_tx more chunk
      { s with G_context := { G with tx_info := { G.tx_info with is_token_tx := false, transaction := tx } } }
      [.io_send_sw SWO_INCORRECT_DATA]
  | unhashed {G : GlobalCtx} {e : Email} (residue : CArray UInt8 32)
    (hreq : s.G_context.req_type = requestType is_token_tx) (happends : Appends s.G_context chunk G)
    (hmore : more = false) (hwire : G.payload = e.wire) (hhash : out.hash = some residue) :
    ChunkStep sdk out s is_token_tx more chunk
      { s with G_context := { G with
          state := .STATE_PARSED
          tx_info := { G.tx_info with is_token_tx := false, transaction := layout e 0, m_hash := residue } } }
      [.io_send_sw SWO_INCORRECT_DATA]
  | notShown {G : GlobalCtx} {e : Email} (hreq : s.G_context.req_type = requestType is_token_tx)
    (happends : Appends s.G_context chunk G) (hmore : more = false) (hwire : G.payload = e.wire)
    (hhash : out.hash = none) (htoken : is_token_tx = true) :
    ChunkStep sdk out s is_token_tx more chunk
      { s with G_context := { G with
          state := .STATE_NONE
          tx_info := { G.tx_info with
            is_token_tx := false, transaction := layout e 0, m_hash := sdk.cx_hash_sha256 e.wire } } }
      [.io_send_sw SWO_CONDITIONS_NOT_SATISFIED]
  | shown {G : GlobalCtx} {e : Email} (display : Display)
    (hreq : s.G_context.req_type = requestType is_token_tx) (happends : Appends s.G_context chunk G)
    (hmore : more = false) (hwire : G.payload = e.wire) (hhash : out.hash = none)
    (htoken : is_token_tx = false) :
    ChunkStep sdk out s is_token_tx more chunk
      { s with
        G_context := { G with
          state := .STATE_PARSED
          tx_info := { G.tx_info with
            is_token_tx := false, transaction := layout e 0, m_hash := sdk.cx_hash_sha256 e.wire } }
        display
        screen := some (.email e.pairs) }
      [.review (.email e.pairs)]

/-- The compressed key and the chain code of a derivation path. -/
def Sdk.derivedKey (sdk : Sdk) (words : List UInt32) : CArray UInt8 PUBKEY_LEN :=
  sdk.cx_edwards_compress_point (sdk.bip32_derive_get_pubkey_256 words).1

def Sdk.derivedCode (sdk : Sdk) (words : List UInt32) : CArray UInt8 CHAINCODE_LEN :=
  (sdk.bip32_derive_get_pubkey_256 words).2

/-- The text of the address of a public key. -/
def Sdk.addressText (sdk : Sdk) (key : CArray UInt8 PUBKEY_LEN) : List UInt8 :=
  hex (slice (sdk.cx_keccak_256_hash (slice key.toList 1 64)).toList (32 - ADDRESS_LEN) ADDRESS_LEN)

/-- The context holds the key material of a derivation path. -/
structure HoldsKey (sdk : Sdk) (words : List UInt32) (G : GlobalCtx) : Prop where
  raw_public_key_eq : G.raw_public_key = sdk.derivedKey words
  chain_code_eq : G.chain_code = sdk.derivedCode words

/-- The call that derives the key of the path in a context. -/
def derivation (G : GlobalCtx) : Event := .bip32_derive_get_pubkey_256 G.bip32_path G.bip32_path_len

/-- What a GET_PUBLIC_KEY can do. -/
inductive PubkeyStep (sdk : Sdk) (out : Outcomes) (s : AppState) (data : List UInt8) (display : Bool) :
    AppState → List Event → Prop where
  | malformed {G : GlobalCtx} (hpath : pathOf data = none) (hreset : Reset .CONFIRM_ADDRESS G) :
    PubkeyStep sdk out s data display { s with G_context := G } [.io_send_sw SWO_WRONG_DATA_LENGTH]
  | failed {G : GlobalCtx} {words : List UInt32} (g_address : CArray UInt8 43) (sw : UInt16)
    (hpath : pathOf data = some words) (hreset : Reset .CONFIRM_ADDRESS G) (hholds : HoldsPath words G)
    (hfail : out.derive ≠ none ∨ out.compress ≠ none ∨ display = true ∧ out.keccak ≠ none) :
    PubkeyStep sdk out s data display { s with G_context := G, g_address } [derivation G, .io_send_sw sw]
  | answered {G : GlobalCtx} {words : List UInt32} (hpath : pathOf data = some words)
    (hreset : Reset .CONFIRM_ADDRESS G) (hholds : HoldsPath words G) (hkey : HoldsKey sdk words G)
    (hdisplay : display = false) :
    PubkeyStep sdk out s data display { s with G_context := G }
      [derivation G, .helper_send_response_pubkey (pubkeyResponse G.raw_public_key G.chain_code) SWO_SUCCESS]
  | shown {G : GlobalCtx} {words : List UInt32} (g_address : CArray UInt8 43) (hpath : pathOf data = some words)
    (hreset : Reset .CONFIRM_ADDRESS G) (hholds : HoldsPath words G) (hkey : HoldsKey sdk words G)
    (hdisplay : display = true) :
    PubkeyStep sdk out s data display
      { s with G_context := G, g_address, screen := some (.address (sdk.addressText G.raw_public_key)) }
      [derivation G, .review (.address (sdk.addressText G.raw_public_key))]

/-- The call that signs the hash in a context. -/
def signing (G : GlobalCtx) : Event :=
  .bip32_derive_eddsa_sign_hash_256 G.bip32_path G.bip32_path_len G.tx_info.m_hash

/-- `signature_len | signature | v`, as the response to an approval. -/
def signatureText (sig : Signature) : List UInt8 := UInt8.ofNat sig.val.length :: sig.val ++ [0]

/-- What an answer of the user can do. -/
inductive ChoiceStep (sdk : Sdk) (out : Outcomes) (s : AppState) (confirm : Bool) :
    AppState → List Event → Prop where
  | idle (hscreen : s.screen = none) : ChoiceStep sdk out s confirm s []
  | rejected {pairs : List (String × List UInt8)} (hscreen : s.screen = some (.email pairs))
    (hconfirm : confirm = false) :
    ChoiceStep sdk out s confirm
      { s with G_context := { s.G_context with state := .STATE_NONE }, screen := none }
      [.io_send_sw SWO_CONDITIONS_NOT_SATISFIED]
  | unsigned {pairs : List (String × List UInt8)} (signature : CArray UInt8 MAX_DER_SIG_LEN)
    (hscreen : s.screen = some (.email pairs)) (hconfirm : confirm = true) (hsign : out.sign ≠ none) :
    ChoiceStep sdk out s confirm
      { s with
        G_context := { s.G_context with
          state := .STATE_NONE, tx_info := { s.G_context.tx_info with signature } }
        screen := none }
      [signing s.G_context, .io_send_sw SWO_SECURITY_ISSUE]
  | signed {pairs : List (String × List UInt8)} {tx_info : TransactionCtx}
    (hscreen : s.screen = some (.email pairs)) (hconfirm : confirm = true) (hsign : out.sign = none)
    (hraw : tx_info.raw_tx = s.G_context.tx_info.raw_tx)
    (hlen : tx_info.raw_tx_len = s.G_context.tx_info.raw_tx_len)
    (htx : tx_info.transaction = s.G_context.tx_info.transaction)
    (hhash : tx_info.m_hash = s.G_context.tx_info.m_hash) :
    ChoiceStep sdk out s confirm
      { s with G_context := { s.G_context with state := .STATE_APPROVED, tx_info }, screen := none }
      [signing s.G_context, .helper_send_response_sig
        (signatureText (sdk.sign out s.G_context.derivationPath s.G_context.tx_info.m_hash)) SWO_SUCCESS]
  | verified {address : List UInt8} (hscreen : s.screen = some (.address address)) (hconfirm : confirm = true) :
    ChoiceStep sdk out s confirm { s with screen := none }
      [.helper_send_response_pubkey (pubkeyResponse s.G_context.raw_public_key s.G_context.chain_code) SWO_SUCCESS]
  | unverified {address : List UInt8} (hscreen : s.screen = some (.address address))
    (hconfirm : confirm = false) :
    ChoiceStep sdk out s confirm { s with screen := none } [.io_send_sw SWO_CONDITIONS_NOT_SATISFIED]

/-- Chunk 0 resets the context, and is accepted exactly if it carries a well-formed path. -/
theorem init_transaction_context_step (s : AppState) (is_token_tx : Bool) (data : List UInt8)
    (out : Outcomes) :
    StartStep s is_token_tx data
      (init_transaction_context s (.ofBytes data) (requestType is_token_tx) out).1
      (init_transaction_context s (.ofBytes data) (requestType is_token_tx) out).2 := by
  obtain ⟨G, hreset, ⟨words, hpath, hholds, hread⟩ | ⟨hpath, hread⟩⟩ :=
    readPath_reset_cases (requestType is_token_tx) data out
  · simp only [init_transaction_context, hread]
    exact .accepted hpath hreset hholds
  · simp only [init_transaction_context, hread]
    exact .malformed hpath hreset

/-- The text an approval releases, once the signature is stored in the context. -/
theorem crypto_sign_message_of_success (sdk : Sdk) (G : GlobalCtx) {out : Outcomes} (hsign : out.sign = none) :
    ∃ tx_info, crypto_sign_message sdk G out = ({ G with tx_info }, true) ∧
      tx_info.raw_tx = G.tx_info.raw_tx ∧ tx_info.raw_tx_len = G.tx_info.raw_tx_len ∧
      tx_info.transaction = G.tx_info.transaction ∧ tx_info.m_hash = G.tx_info.m_hash ∧
      signatureResponse { G with tx_info } =
        signatureText (sdk.sign out G.derivationPath G.tx_info.m_hash) := by
  simp only [crypto_sign_message, hsign]
  refine ⟨_, rfl, rfl, rfl, rfl, rfl, ?_⟩
  have hsize := (sdk.sign out G.derivationPath G.tx_info.m_hash).property
  have hlen := UInt8.toNat_ofNat_of_lt' (Nat.lt_of_le_of_lt hsize (by decide))
  simp only [signatureResponse, signatureText, hlen, CArray.toList_blit, take_blit_zero]

/-- An answer of the user ends the review on the screen, and signs or exports only on an
approval. -/
theorem review_choice_step (sdk : Sdk) (s : AppState) (confirm : Bool) (out : Outcomes) :
    ChoiceStep sdk out s confirm (review_choice sdk s confirm out).1 (review_choice sdk s confirm out).2 := by
  unfold review_choice
  cases hscreen : s.screen with
  | none => exact .idle hscreen
  | some review =>
    cases review with
    | address address =>
      cases confirm with
      | false => exact .unverified hscreen rfl
      | true => exact .verified hscreen rfl
    | email pairs =>
      cases confirm with
      | false => exact .rejected hscreen rfl
      | true =>
        cases hsign : out.sign with
        | some failure =>
          simp only [validate_transaction, crypto_sign_message, hsign, if_true]
          exact .unsigned failure.residue hscreen rfl (by simp [hsign])
        | none =>
          obtain ⟨tx_info, hresult, hraw, hlen, htx, hhash, htext⟩ := crypto_sign_message_of_success sdk
            { s.G_context with state := .STATE_APPROVED } hsign
          simp only [validate_transaction, if_true, hresult, helper_send_response_sig, htext]
          exact .signed hscreen rfl hsign hraw hlen htx hhash

/-- A chunk that fits is appended to the payload of its session, any other changes
nothing. -/
theorem accumulate_transaction_data_cases (G : GlobalCtx) (chunk : List UInt8) (req_type : RequestType) :
    (G.req_type = req_type ∧ ∃ G', Appends G chunk G' ∧
      accumulate_transaction_data G (.ofBytes chunk) req_type = (G', SWO_SUCCESS)) ∨
    (¬ (G.req_type = req_type ∧ G.tx_info.raw_tx_len + chunk.length ≤ MAX_TRANSACTION_LEN) ∧
      ∃ sw, sw ≠ SWO_SUCCESS ∧ accumulate_transaction_data G (.ofBytes chunk) req_type = (G, sw)) := by
  have hsize : (Buffer.ofBytes chunk).size = chunk.length := rfl
  by_cases hreq : G.req_type = req_type
  · by_cases hroom : G.tx_info.raw_tx_len + (Buffer.ofBytes chunk).size > MAX_TRANSACTION_LEN
    · right
      refine ⟨fun h => Nat.not_lt.mpr h.2 hroom, SWO_WRONG_DATA_LENGTH, by decide, ?_⟩
      rw [accumulate_transaction_data, if_neg (not_not_intro hreq), dif_pos hroom]
    · left
      refine ⟨hreq, ?_⟩
      have hfit : (Buffer.ofBytes chunk).size - (Buffer.ofBytes chunk).offset ≤ (Buffer.ofBytes chunk).size :=
        Nat.sub_le _ _
      have hbytes : slice (Buffer.ofBytes chunk).ptr (Buffer.ofBytes chunk).offset
          ((Buffer.ofBytes chunk).size - (Buffer.ofBytes chunk).offset) = chunk := by
        simp only [Buffer.ofBytes, Nat.sub_zero, slice_zero, List.take_length]
      simp only [accumulate_transaction_data, if_neg (not_not_intro hreq), dif_neg hroom, buffer_move,
        dif_pos hfit]
      refine ⟨_, ?_, rfl⟩
      refine ⟨Nat.not_lt.mp hroom, rfl, ?_, rfl, rfl, rfl, rfl, rfl, rfl⟩
      have hinside : G.tx_info.raw_tx_len ≤ G.tx_info.raw_tx.toList.length := by
        rw [CArray.length_toList]
        omega
      simp only [GlobalCtx.payload, CArray.toList_blit]
      rw [hbytes]
      exact take_blit _ _ hinside
  · right
    refine ⟨fun h => hreq h.1, SWO_CONDITIONS_NOT_SATISFIED, by decide, ?_⟩
    rw [accumulate_transaction_data, if_pos hreq]

/-- What becomes of a complete payload: it is that of no email and is refused, or it is an
email's and is parsed, and then hashed unless the call fails. The flag of token transactions
is cleared on every path. -/
theorem process_transaction_cases (sdk : Sdk) (G : GlobalCtx) (out : Outcomes)
    (hlen : G.tx_info.raw_tx_len ≤ MAX_TRANSACTION_LEN) :
    (∃ tx, (∀ e : Email, G.payload ≠ e.wire) ∧ process_transaction sdk G out =
      ({ G with tx_info := { G.tx_info with is_token_tx := false, transaction := tx } }, SWO_INCORRECT_DATA)) ∨
    (∃ (e : Email) (residue : CArray UInt8 32), G.payload = e.wire ∧ out.hash = some residue ∧
      process_transaction sdk G out =
        ({ G with
            state := .STATE_PARSED
            tx_info := { G.tx_info with is_token_tx := false, transaction := layout e 0, m_hash := residue } },
          SWO_INCORRECT_DATA)) ∨
    (∃ e : Email, G.payload = e.wire ∧ out.hash = none ∧
      (layout e 0).Represents G.tx_info.raw_tx.toList e ∧
      process_transaction sdk G out =
        ({ G with
            state := .STATE_PARSED
            tx_info := { G.tx_info with
              is_token_tx := false, transaction := layout e 0, m_hash := sdk.cx_hash_sha256 e.wire } },
          SWO_SUCCESS)) := by
  obtain ⟨e, st, hwire, -, hresult, htx, hrep⟩ | ⟨hno, herror⟩ :=
    G.transaction_deserialize_payload G.tx_info.transaction
  · right
    cases hhash : out.hash with
    | some residue =>
      left
      refine ⟨e, residue, hwire, rfl, ?_⟩
      simp only [process_transaction, hresult, hhash, htx, ne_eq, not_true_eq_false, if_false]
    | none =>
      right
      refine ⟨e, hwire, rfl, hrep, ?_⟩
      simp only [process_transaction, hresult, hhash, htx, hwire, ne_eq, not_true_eq_false, if_false]
  · left
    refine ⟨(transaction_deserialize G.payloadBuffer G.tx_info.transaction).2.tx, hno hlen, ?_⟩
    simp only [process_transaction, ne_eq, herror, not_false_eq_true, if_true]

/-- A data chunk is refused, stored, or completes a payload that is refused, fails to be
hashed, or is shown. -/
theorem handler_sign_tx_step (sdk : Sdk) (s : AppState) (data : List UInt8) {chunk : UInt8} (hchunk : chunk ≠ 0)
    (more is_token_tx : Bool) (out : Outcomes) :
    ChunkStep sdk out s is_token_tx more data
      (handler_sign_tx sdk s (.ofBytes data) chunk more is_token_tx out).1
      (handler_sign_tx sdk s (.ofBytes data) chunk more is_token_tx out).2 := by
  have htype : (if is_token_tx then RequestType.CONFIRM_TOKEN_TRANSACTION else .CONFIRM_TRANSACTION) =
      requestType is_token_tx := rfl
  simp only [handler_sign_tx, if_neg hchunk, htype]
  obtain ⟨hreq, G, happends, haccum⟩ | ⟨hrefuse, sw, hsw, haccum⟩ :=
    accumulate_transaction_data_cases s.G_context data (requestType is_token_tx)
  · simp only [haccum, ne_eq, not_true_eq_false, if_false]
    cases more with
    | true => exact .stored hreq happends rfl
    | false =>
      have hincorrect : SWO_INCORRECT_DATA ≠ SWO_SUCCESS := by decide
      obtain ⟨tx, hbad, hprocess⟩ | ⟨e, residue, hwire, hhash, hprocess⟩ | ⟨e, hwire, hhash, hrep, hprocess⟩ :=
        process_transaction_cases sdk G out happends.room_after
      · simp only [hprocess, Bool.false_eq_true, if_false, if_pos hincorrect]
        exact .malformed tx hreq happends rfl hbad
      · simp only [hprocess, Bool.false_eq_true, if_false, if_pos hincorrect]
        exact .unhashed residue hreq happends rfl hwire hhash
      · simp only [hprocess, Bool.false_eq_true, if_false, not_true_eq_false]
        cases is_token_tx with
        | true =>
          have htoken : G.req_type ≠ .CONFIRM_TRANSACTION := by
            rw [happends.req_type_eq, hreq]
            decide
          simp only [ui_display_transaction, if_pos (Or.inl htoken)]
          exact .notShown hreq happends rfl hwire hhash rfl
        | false =>
          have htransaction : G.req_type = .CONFIRM_TRANSACTION := by
            rw [happends.req_type_eq, hreq]
            rfl
          obtain ⟨display, hresult⟩ := ui_display_transaction_of_represents
            (s := { s with G_context := { G with
              state := .STATE_PARSED
              tx_info := { G.tx_info with
                is_token_tx := false, transaction := layout e 0, m_hash := sdk.cx_hash_sha256 e.wire } } })
            htransaction rfl hrep
          rw [hresult]
          exact .shown display hreq happends rfl hwire hhash rfl
  · simp only [haccum, ne_eq, if_pos hsw]
    exact .refused hrefuse hsw

/-- Showing the address of the key in a context that has just been reset. -/
theorem ui_display_address_cases (sdk : Sdk) (s : AppState) (out : Outcomes)
    (hreset : Reset .CONFIRM_ADDRESS s.G_context) :
    (∃ g_address, out.keccak ≠ none ∧
      ui_display_address sdk s out = ({ s with g_address }, [.io_send_sw SWO_INCORRECT_DATA])) ∨
    (∃ g_address, ui_display_address sdk s out =
      ({ s with g_address, screen := some (.address (sdk.addressText s.G_context.raw_public_key)) },
        [.review (.address (sdk.addressText s.G_context.raw_public_key))])) := by
  have hcheck : ¬ (s.G_context.req_type ≠ .CONFIRM_ADDRESS ∨ s.G_context.state ≠ .STATE_NONE) := by
    simp [hreset.req_type_eq, hreset.state_eq]
  simp only [ui_display_address, if_neg hcheck, address_from_pubkey]
  cases hkeccak : out.keccak with
  | some error => exact Or.inl ⟨_, Option.some_ne_none error, rfl⟩
  | none =>
    right
    have hlen : (slice (sdk.cx_keccak_256_hash (slice s.G_context.raw_public_key.toList 1 64)).toList
        (32 - ADDRESS_LEN) ADDRESS_LEN).length = ADDRESS_LEN := by
      apply slice_length
      rw [CArray.length_toList]
      decide
    obtain ⟨g_address, hformat, htext⟩ := format_hex_eq_some
      (slice (sdk.cx_keccak_256_hash (slice s.G_context.raw_public_key.toList 1 64)).toList
        (32 - ADDRESS_LEN) ADDRESS_LEN) (.fill 43 0 : CArray UInt8 43) (by rw [hlen]; decide)
    refine ⟨g_address, ?_⟩
    simp only [hformat, htext, Sdk.addressText]

/-- The end of a GET_PUBLIC_KEY whose key has been derived into the context. -/
theorem answer_pubkey_step (sdk : Sdk) (s : AppState) (data : List UInt8) (display : Bool) (out : Outcomes)
    {G : GlobalCtx} {words : List UInt32} (hpath : pathOf data = some words)
    (hreset : Reset .CONFIRM_ADDRESS G) (hholds : HoldsPath words G) (hkey : HoldsKey sdk words G) :
    PubkeyStep sdk out s data display
      (if display then ui_display_address sdk { s with G_context := G } out
        else helper_send_response_pubkey { s with G_context := G }).1
      (derivation G :: (if display then ui_display_address sdk { s with G_context := G } out
        else helper_send_response_pubkey { s with G_context := G }).2) := by
  cases display with
  | false => exact .answered hpath hreset hholds hkey rfl
  | true =>
    simp only [if_true]
    obtain ⟨g_address, hkeccak, hresult⟩ | ⟨g_address, hresult⟩ :=
      ui_display_address_cases sdk { s with G_context := G } out hreset
    · rw [hresult]
      exact .failed g_address _ hpath hreset hholds (Or.inr (Or.inr ⟨rfl, hkeccak⟩))
    · rw [hresult]
      exact .shown g_address hpath hreset hholds hkey rfl

/-- A GET_PUBLIC_KEY resets the context before anything else. It then refuses the path,
answers a failing call with its error, exports the key, or shows its address. -/
theorem handler_get_public_key_step (sdk : Sdk) (s : AppState) (data : List UInt8) (display : Bool)
    (out : Outcomes) :
    PubkeyStep sdk out s data display (handler_get_public_key sdk s (.ofBytes data) display out).1
      (handler_get_public_key sdk s (.ofBytes data) display out).2 := by
  obtain ⟨G, ⟨hreq, hstate, hlen⟩, ⟨words, hpath, ⟨hwords, hcount⟩, hread⟩ | ⟨hpath, hread⟩⟩ :=
    readPath_reset_cases .CONFIRM_ADDRESS data out
  · have hreset : ∀ tx_info : TransactionCtx, tx_info.raw_tx_len = G.tx_info.raw_tx_len →
        Reset .CONFIRM_ADDRESS { G with tx_info } := fun _ h => ⟨hreq, hstate, h.trans hlen⟩
    have hholds : ∀ tx_info : TransactionCtx, HoldsPath words { G with tx_info } := fun _ => ⟨hwords, hcount⟩
    have hkey := HoldsPath.derive_eq ⟨hwords, hcount⟩ sdk out
    simp only [handler_get_public_key, hread]
    cases hderive : out.derive with
    | some failure => exact .failed s.g_address _ hpath (hreset _ rfl) (hholds _) (Or.inl (by simp [hderive]))
    | none =>
      cases hcompress : out.compress with
      | some failure =>
        exact .failed s.g_address _ hpath (hreset _ rfl) (hholds _) (Or.inr (Or.inl (by simp [hcompress])))
      | none =>
        have hpubkey : HoldsKey sdk words
            (((G.setRawPublicKey (sdk.derive out G.derivationPath).1).setChainCode
              (sdk.derive out G.derivationPath).2).setRawPublicKey
              (sdk.cx_edwards_compress_point ((G.setRawPublicKey (sdk.derive out G.derivationPath).1).setChainCode
                (sdk.derive out G.derivationPath).2).raw_public_key)) := by
          constructor
          · simp [Sdk.derivedKey, hkey]
          · simp [Sdk.derivedCode, hkey]
        exact answer_pubkey_step sdk s data display out hpath (hreset _ rfl) (hholds _) hpubkey
  · simp only [handler_get_public_key, hread]
    exact .malformed hpath ⟨hreq, hstate, hlen⟩

/-- What one input can do to the application. -/
inductive Does (sdk : Sdk) (s : AppState) : Input → AppState → List Event → Prop where
  | start {cmd : Command} {out : Outcomes} {is_token_tx : Bool} {data : List UInt8} {s' : AppState}
    {events : List Event} (hrequest : cmd.request = .start is_token_tx data)
    (h : StartStep s is_token_tx data s' events) : Does sdk s (.apdu cmd out) s' events
  | chunk {cmd : Command} {out : Outcomes} {is_token_tx more : Bool} {data : List UInt8} {s' : AppState}
    {events : List Event} (hrequest : cmd.request = .chunk is_token_tx more data) (hdata : data ≠ [])
    (h : ChunkStep sdk out s is_token_tx more data s' events) : Does sdk s (.apdu cmd out) s' events
  | pubkey {cmd : Command} {out : Outcomes} {data : List UInt8} {display : Bool} {s' : AppState}
    {events : List Event} (hrequest : cmd.request = .pubkey data display)
    (h : PubkeyStep sdk out s data display s' events) : Does sdk s (.apdu cmd out) s' events
  | other {cmd : Command} {out : Outcomes} {s' : AppState} {event : Event} (hrequest : cmd.request = .other)
    (hcontext : s'.G_context = s.G_context) (hscreen : s'.screen = s.screen)
    (hevent : (∃ sw, event = .io_send_sw sw) ∨ ∃ resp, event = .send_info resp SWO_SUCCESS) :
    Does sdk s (.apdu cmd out) s' [event]
  | badLength : Does sdk s .badLength s [.io_send_sw SWO_WRONG_DATA_LENGTH]
  | choice {confirm : Bool} {out : Outcomes} {s' : AppState} {events : List Event}
    (h : ChoiceStep sdk out s confirm s' events) : Does sdk s (.choice confirm out) s' events

/-- A later chunk does what such a chunk can do. -/
theorem Does.chunkStep {sdk : Sdk} {s s' : AppState} {cmd : Command} {out : Outcomes} {events : List Event}
    {is_token_tx more : Bool} {data : List UInt8} (h : Does sdk s (.apdu cmd out) s' events)
    (hrequest : cmd.request = .chunk is_token_tx more data) :
    ChunkStep sdk out s is_token_tx more data s' events := by
  cases h with
  | chunk hchunk hdata hstep =>
    rw [hrequest] at hchunk
    cases hchunk
    exact hstep
  | start hstart hstep =>
    rw [hrequest] at hstart
    cases hstart
  | pubkey hpubkey hstep =>
    rw [hrequest] at hpubkey
    cases hpubkey
  | other hother hcontext hscreen hevent =>
    rw [hrequest] at hother
    cases hother

/-- A refusal by the dispatcher leaves the state as it is. -/
theorem Does.refused {sdk : Sdk} {s : AppState} {cmd : Command} {out : Outcomes} (sw : UInt16)
    (hrequest : cmd.request = .other) : Does sdk s (.apdu cmd out) s [.io_send_sw sw] :=
  .other hrequest rfl rfl (Or.inl ⟨sw, rfl⟩)

/-- PROVIDE_TOKEN_INFO touches the slot of the dynamic token and nothing that reviews and
signatures depend on. -/
theorem handler_provide_token_info_does {sdk : Sdk} {cmd : Command} (hrequest : cmd.request = .other)
    (s : AppState) (out : Outcomes) :
    Does sdk s (.apdu cmd out) (handler_provide_token_info s out).1 (handler_provide_token_info s out).2 := by
  unfold handler_provide_token_info
  cases out.descriptor with
  | none => exact .other hrequest rfl rfl (Or.inl ⟨_, rfl⟩)
  | some tlv_output =>
    dsimp only
    split
    · exact .other hrequest rfl rfl (Or.inl ⟨_, rfl⟩)
    · split
      · exact .other hrequest rfl rfl (Or.inl ⟨_, rfl⟩)
      · exact .other hrequest rfl rfl (Or.inl ⟨_, rfl⟩)
      · exact .other hrequest rfl rfl (Or.inl ⟨_, rfl⟩)

/-- The dispatcher does not take a signing command for one of the earlier ones. -/
theorem not_info_of_signs {ins : UInt8} (hsign : ins = SIGN_TX ∨ ins = SIGN_TOKEN_TX) :
    ins ≠ GET_VERSION ∧ ins ≠ GET_APP_NAME := by
  obtain rfl | rfl := hsign
  · decide
  · decide

/-- Of the two values of P2 the dispatcher lets through, one has the bit set. -/
theorem decide_more {p2 : UInt8} (hp2 : p2 = P2_LAST ∨ p2 = P2_MORE) :
    decide (p2 &&& P2_MORE ≠ 0) = decide (p2 = P2_MORE) := by
  obtain rfl | rfl := hp2
  · decide
  · decide

/-- Every command does what its request says, whatever its class, instruction, parameters
and data are. -/
theorem apdu_dispatcher_does (sdk : Sdk) (s : AppState) (cmd : Command) (out : Outcomes) :
    Does sdk s (.apdu cmd out) (apdu_dispatcher sdk s cmd out).1 (apdu_dispatcher sdk s cmd out).2 := by
  by_cases hcla : cmd.cla ≠ CLA
  · have hrequest : cmd.request = .other := by rw [Command.request, if_pos hcla]
    rw [apdu_dispatcher, if_pos hcla]
    exact .refused _ hrequest
  by_cases hpubkey : cmd.ins = GET_PUBLIC_KEY
  · have hversion : cmd.ins ≠ GET_VERSION := by rw [hpubkey]; decide
    have hname : cmd.ins ≠ GET_APP_NAME := by rw [hpubkey]; decide
    rw [apdu_dispatcher, if_neg hcla, if_neg hversion, if_neg hname, if_pos hpubkey]
    by_cases hparam : cmd.p1 > 1 ∨ cmd.p2 > 0
    · rw [if_pos hparam]
      exact .refused _ (by rw [Command.request, if_neg hcla, if_pos hpubkey, if_pos (by tauto)])
    by_cases hdata : cmd.data = []
    · rw [if_neg hparam, if_pos hdata]
      exact .refused _ (by rw [Command.request, if_neg hcla, if_pos hpubkey, if_pos (by tauto)])
    · rw [if_neg hparam, if_neg hdata]
      exact .pubkey (by rw [Command.request, if_neg hcla, if_pos hpubkey, if_neg (by tauto)])
        (handler_get_public_key_step sdk s cmd.data _ out)
  by_cases hsign : cmd.ins = SIGN_TX ∨ cmd.ins = SIGN_TOKEN_TX
  · obtain ⟨hversion, hname⟩ := not_info_of_signs hsign
    rw [apdu_dispatcher, if_neg hcla, if_neg hversion, if_neg hname, if_neg hpubkey, if_pos hsign]
    by_cases hparam : cmd.p1 = P1_START ∧ cmd.p2 ≠ P2_MORE ∨ cmd.p1 > P1_MAX ∨ cmd.p2 ≠ P2_LAST ∧ cmd.p2 ≠ P2_MORE
    · rw [if_pos hparam]
      exact .refused _ (by rw [Command.request, if_neg hcla, if_neg hpubkey, if_pos hsign, if_pos (Or.inl hparam)])
    by_cases hdata : cmd.data = []
    · rw [if_neg hparam, if_pos hdata]
      exact .refused _ (by rw [Command.request, if_neg hcla, if_neg hpubkey, if_pos hsign, if_pos (Or.inr hdata)])
    rw [if_neg hparam, if_neg hdata]
    by_cases hstart : cmd.p1 = P1_START
    · have hzero : cmd.p1 = 0 := hstart
      rw [handler_sign_tx, if_pos hzero]
      exact .start (by rw [Command.request, if_neg hcla, if_neg hpubkey, if_pos hsign,
        if_neg (not_or.mpr ⟨hparam, hdata⟩), if_pos hstart]) (init_transaction_context_step s _ cmd.data out)
    · rw [decide_more (by tauto)]
      exact .chunk (by rw [Command.request, if_neg hcla, if_neg hpubkey, if_pos hsign,
        if_neg (not_or.mpr ⟨hparam, hdata⟩), if_neg hstart]) hdata
        (handler_sign_tx_step sdk s cmd.data hstart _ _ out)
  have hrequest : cmd.request = .other := by
    rw [Command.request, if_neg hcla, if_neg hpubkey, if_neg hsign]
  simp only [apdu_dispatcher, if_neg hcla, if_neg hpubkey, if_neg hsign]
  split
  · split
    · exact .refused _ hrequest
    · exact .other hrequest rfl rfl (Or.inr ⟨_, rfl⟩)
  · split
    · split
      · exact .refused _ hrequest
      · exact .other hrequest rfl rfl (Or.inr ⟨_, rfl⟩)
    · split
      · split
        · exact .refused _ hrequest
        · split
          · exact .refused _ hrequest
          · exact handler_provide_token_info_does hrequest s out
      · exact .refused _ hrequest

/-- A later chunk goes to `handler_sign_tx`. -/
theorem apdu_dispatcher_chunk (sdk : Sdk) (s : AppState) {cmd : Command} (out : Outcomes)
    {is_token_tx more : Bool} {data : List UInt8} (hrequest : cmd.request = .chunk is_token_tx more data) :
    cmd.p1 ≠ 0 ∧
      apdu_dispatcher sdk s cmd out = handler_sign_tx sdk s (.ofBytes data) cmd.p1 more is_token_tx out := by
  rw [Command.request] at hrequest
  split_ifs at hrequest with hcla hpubkey hparam hsign hrefuse hstart
  obtain ⟨hparam, hdata⟩ := not_or.mp hrefuse
  cases hrequest
  obtain ⟨hversion, hname⟩ := not_info_of_signs hsign
  rw [apdu_dispatcher, if_neg hcla, if_neg hversion, if_neg hname, if_neg hpubkey, if_pos hsign, if_neg hparam,
    if_neg hdata, decide_more (by tauto)]
  exact ⟨hstart, rfl⟩

/-- Every step is one of the possible ones. -/
theorem step_does (sdk : Sdk) (s : AppState) (i : Input) : Does sdk s i (step sdk s i).1 (step sdk s i).2 := by
  cases i with
  | apdu cmd out => exact apdu_dispatcher_does sdk s cmd out
  | badLength => exact .badLength
  | choice confirm out => exact .choice (review_choice_step sdk s confirm out)

end hardmail
