import HardMail.App.Steps

open memory codec machine

namespace hardmail

/-- The commands that reset the context. -/
def Request.resets : Request → Bool
  | .pubkey _ _ => true
  | .start _ _ => true
  | .chunk _ _ _ => false
  | .other => false

def Input.request : Input → Request
  | .apdu cmd _ => cmd.request
  | .badLength => .other
  | .choice _ _ => .other

/-- The command that reset the context last, with its data. -/
inductive Session where
  | none
  | pubkey (data : List UInt8)
  | signing (is_token_tx : Bool) (data : List UInt8)
  deriving DecidableEq, Repr

def Session.next (session : Session) : Request → Session
  | .pubkey data _ => .pubkey data
  | .start is_token_tx data => .signing is_token_tx data
  | .chunk _ _ _ => session
  | .other => session

def Session.data : Session → Option (List UInt8)
  | .none => Option.none
  | .pubkey data => some data
  | .signing _ data => some data

/-- The derivation path received in a session, if it received a well-formed one. -/
def Session.path (session : Session) : Option (List UInt32) := session.data.bind pathOf

/-- The event is a response that reports success. -/
def Event.success : Event → Bool
  | .io_send_sw sw => sw = SWO_SUCCESS
  | .helper_send_response_pubkey _ sw => sw = SWO_SUCCESS
  | .helper_send_response_sig _ sw => sw = SWO_SUCCESS
  | .send_info _ sw => sw = SWO_SUCCESS
  | _ => false

def Event.opens : Event → Bool
  | .review _ => true
  | _ => false

def Event.opensEmail : Event → Bool
  | .review (.email _) => true
  | _ => false

/-- A command that resets the context, carries a well-formed path, and causes no call
that fails. -/
def Input.accepted : Input → Bool
  | .apdu cmd out =>
    match cmd.request with
    | .pubkey data display =>
      (pathOf data).isSome && out.derive.isNone && out.compress.isNone && (!display || out.keccak.isNone)
    | .start _ data => (pathOf data).isSome
    | _ => false
  | _ => false

/-- What an observer of the inputs and events records: the current session, whether
the command that began it was accepted and whether it was answered with success, the
session that opened the review on the screen, and whether the context has been reset
since. -/
structure Monitor where
  session : Session
  accepted : Bool
  answered : Bool
  opened : Session
  overtaken : Bool
  deriving DecidableEq

def monitor : Observer Input Event Monitor where
  init := ⟨.none, false, false, .none, false⟩
  next m i events :=
    let session := m.session.next i.request
    { session
      accepted := if i.request.resets then i.accepted else m.accepted
      answered := if i.request.resets then events.any Event.success else m.answered
      opened := if events.any Event.opens then session else m.opened
      overtaken := !events.any Event.opens && (m.overtaken || i.request.resets) }

/-- A command that does not reset the context leaves the session as it is. -/
theorem Session.next_of_keeps (session : Session) {request : Request} (hkeeps : request.resets = false) :
    session.next request = session := by
  cases request with
  | pubkey data display => cases hkeeps
  | start is_token_tx data => cases hkeeps
  | chunk is_token_tx more data => rfl
  | other => rfl

/-- A command that resets the context begins a session of its own. -/
theorem Session.next_of_resets (session : Session) {request : Request} (hresets : request.resets = true) :
    session.next request = Session.none.next request := by
  cases request with
  | pubkey data display => rfl
  | start is_token_tx data => rfl
  | chunk is_token_tx more data => cases hresets
  | other => cases hresets

/-- The payload is as long as its stored length says. -/
theorem GlobalCtx.payload_length {G : GlobalCtx} (hroom : G.tx_info.raw_tx_len ≤ MAX_TRANSACTION_LEN) :
    G.payload.length = G.tx_info.raw_tx_len := by
  rw [GlobalCtx.payload, List.length_take, CArray.length_toList, Nat.min_eq_left hroom]

/-- The data a request adds to the payload: that of a chunk which passes the checks
of the request type and of the size. -/
def acceptedData (G : GlobalCtx) : Request → List UInt8
  | .chunk is_token_tx _ chunk =>
    if (accumulate_transaction_data G (.ofBytes chunk) (requestType is_token_tx)).2 = SWO_SUCCESS then chunk
    else []
  | _ => []

/-- A chunk is accepted exactly when it is of the session's type and fits. -/
theorem accumulate_transaction_data_success_iff (G : GlobalCtx) (chunk : List UInt8) (req_type : RequestType) :
    (accumulate_transaction_data G (.ofBytes chunk) req_type).2 = SWO_SUCCESS ↔
      G.req_type = req_type ∧ G.tx_info.raw_tx_len + chunk.length ≤ MAX_TRANSACTION_LEN := by
  obtain ⟨hreq, G', happends, hresult⟩ | ⟨hrefuse, sw, hsw, hresult⟩ :=
    accumulate_transaction_data_cases G chunk req_type
  · rw [hresult]
    exact iff_of_true rfl ⟨hreq, happends.room⟩
  · rw [hresult]
    exact iff_of_false hsw hrefuse

/-- What becomes of a context in a step that does not reset it and adds the given data
to the payload. The hash changes only when that completes the payload of an email. -/
structure Continues (G : GlobalCtx) (data : List UInt8) (G' : GlobalCtx) : Prop where
  req_type_eq : G'.req_type = G.req_type
  bip32_path_eq : G'.bip32_path = G.bip32_path
  bip32_path_len_eq : G'.bip32_path_len = G.bip32_path_len
  payload_eq : G'.payload = G.payload ++ data
  room : G.tx_info.raw_tx_len ≤ MAX_TRANSACTION_LEN → G'.tx_info.raw_tx_len ≤ MAX_TRANSACTION_LEN
  raw_tx_eq : data = [] → G'.tx_info.raw_tx = G.tx_info.raw_tx
  m_hash_eq : (data ≠ [] → ∀ e : Email, G.payload ++ data ≠ e.wire) → G'.tx_info.m_hash = G.tx_info.m_hash

variable {sdk : Sdk} {s s' : AppState} {i : Input} {events : List Event} {session : Session}
  {G G' : GlobalCtx} {words : List UInt32}

/-- A step that leaves the session's fields alone goes on with the session. -/
theorem Continues.of_same (hreq : G'.req_type = G.req_type) (hpath : G'.bip32_path = G.bip32_path)
    (hpathLen : G'.bip32_path_len = G.bip32_path_len) (hraw : G'.tx_info.raw_tx = G.tx_info.raw_tx)
    (hlen : G'.tx_info.raw_tx_len = G.tx_info.raw_tx_len) (hhash : G'.tx_info.m_hash = G.tx_info.m_hash) :
    Continues G [] G' := by
  refine ⟨hreq, hpath, hpathLen, ?_, fun hroom => hlen ▸ hroom, fun _ => hraw, fun _ => hhash⟩
  rw [GlobalCtx.payload, GlobalCtx.payload, hraw, hlen, List.append_nil]

/-- A chunk that is appended is accepted as a whole. -/
theorem Appends.acceptedData_eq {is_token_tx : Bool} (more : Bool) {chunk : List UInt8}
    (h : Appends G chunk G') (hreq : G.req_type = requestType is_token_tx) :
    acceptedData G (.chunk is_token_tx more chunk) = chunk :=
  if_pos ((accumulate_transaction_data_success_iff G chunk _).mpr ⟨hreq, h.room⟩)

/-- The context appends a chunk, and then changes nothing of what it has received,
nor the hash unless the payload is complete. -/
theorem Appends.continues {chunk : List UInt8} {H : GlobalCtx} (h : Appends G chunk H) (hchunk : chunk ≠ [])
    (hreq : G'.req_type = H.req_type) (hpath : G'.bip32_path = H.bip32_path)
    (hpathLen : G'.bip32_path_len = H.bip32_path_len) (hraw : G'.tx_info.raw_tx = H.tx_info.raw_tx)
    (hlen : G'.tx_info.raw_tx_len = H.tx_info.raw_tx_len)
    (hhash : (∀ e : Email, H.payload ≠ e.wire) → G'.tx_info.m_hash = H.tx_info.m_hash) :
    Continues G chunk G' := by
  refine ⟨hreq.trans h.req_type_eq, hpath.trans h.bip32_path_eq, hpathLen.trans h.bip32_path_len_eq, ?_,
    fun _ => hlen ▸ h.room_after, fun hnil => absurd hnil hchunk, ?_⟩
  · rw [GlobalCtx.payload, hraw, hlen, ← GlobalCtx.payload, h.payload_eq]
  · intro hincomplete
    rw [hhash (h.payload_eq ▸ hincomplete hchunk), h.m_hash_eq]

/-- A data chunk goes on with its session, whatever its outcome. -/
theorem ChunkStep.continues {out : Outcomes} {is_token_tx more : Bool} {chunk : List UInt8}
    (h : ChunkStep sdk out s is_token_tx more chunk s' events) (hchunk : chunk ≠ []) :
    Continues s.G_context (acceptedData s.G_context (.chunk is_token_tx more chunk)) s'.G_context := by
  cases h with
  | refused hrefuse hsw =>
    have hrejected : acceptedData s.G_context (.chunk is_token_tx more chunk) = [] :=
      if_neg ((accumulate_transaction_data_success_iff s.G_context chunk _).not.mpr hrefuse)
    rw [hrejected]
    exact .of_same rfl rfl rfl rfl rfl rfl
  | stored hreq happends hmore =>
    rw [happends.acceptedData_eq more hreq]
    exact happends.continues hchunk rfl rfl rfl rfl rfl fun _ => rfl
  | malformed tx hreq happends hmore hbad =>
    rw [happends.acceptedData_eq more hreq]
    exact happends.continues hchunk rfl rfl rfl rfl rfl fun _ => rfl
  | unhashed residue hreq happends hmore hwire hhash =>
    rw [happends.acceptedData_eq more hreq]
    exact happends.continues hchunk rfl rfl rfl rfl rfl fun hnot => absurd hwire (hnot _)
  | notShown hreq happends hmore hwire hhash htoken =>
    rw [happends.acceptedData_eq more hreq]
    exact happends.continues hchunk rfl rfl rfl rfl rfl fun hnot => absurd hwire (hnot _)
  | shown display hreq happends hmore hwire hhash htoken =>
    rw [happends.acceptedData_eq more hreq]
    exact happends.continues hchunk rfl rfl rfl rfl rfl fun hnot => absurd hwire (hnot _)

/-- An answer of the user leaves the received payload and the path alone. -/
theorem ChoiceStep.continues {out : Outcomes} {confirm : Bool} (h : ChoiceStep sdk out s confirm s' events) :
    Continues s.G_context [] s'.G_context := by
  cases h with
  | idle hscreen => exact .of_same rfl rfl rfl rfl rfl rfl
  | rejected hscreen hconfirm => exact .of_same rfl rfl rfl rfl rfl rfl
  | unsigned signature hscreen hconfirm hsign => exact .of_same rfl rfl rfl rfl rfl rfl
  | signed hscreen hconfirm hsign hraw hlen htx hhash => exact .of_same rfl rfl rfl hraw hlen hhash
  | verified hscreen hconfirm => exact .of_same rfl rfl rfl rfl rfl rfl
  | unverified hscreen hconfirm => exact .of_same rfl rfl rfl rfl rfl rfl

/-- A step that does not reset the context appends the data that are accepted to the
payload, and leaves the path and the request type as they are. -/
theorem Does.continues (h : Does sdk s i s' events) (hkeeps : i.request.resets = false) :
    Continues s.G_context (acceptedData s.G_context i.request) s'.G_context := by
  cases h with
  | start hrequest hstart =>
    rw [Input.request, hrequest] at hkeeps
    cases hkeeps
  | pubkey hrequest hpubkey =>
    rw [Input.request, hrequest] at hkeeps
    cases hkeeps
  | chunk hrequest hdata hchunk =>
    rw [Input.request, hrequest]
    exact hchunk.continues hdata
  | other hrequest hcontext hscreen hevent =>
    rw [Input.request, hrequest, hcontext]
    exact .of_same rfl rfl rfl rfl rfl rfl
  | badLength => exact .of_same rfl rfl rfl rfl rfl rfl
  | choice hchoice => exact hchoice.continues

/-- The request type a session leaves in the context. -/
def Session.req_type : Session → RequestType
  | .none => .CONFIRM_ADDRESS
  | .pubkey _ => .CONFIRM_ADDRESS
  | .signing is_token_tx _ => requestType is_token_tx

/-- A context that waits for an email belongs to a SIGN_TX session. -/
theorem Session.eq_signing (h : session.req_type = .CONFIRM_TRANSACTION) :
    ∃ data, session = .signing false data := by
  cases session with
  | none => cases h
  | pubkey data => cases h
  | signing is_token_tx data =>
    cases is_token_tx with
    | false => exact ⟨data, rfl⟩
    | true => cases h

/-- A session is begun by its chunk 0 only. -/
theorem Session.request_eq_start {request : Request} {is_token_tx : Bool} {data : List UInt8}
    (h : Session.none.next request = .signing is_token_tx data) : request = .start is_token_tx data := by
  cases request with
  | pubkey data display => cases h
  | start is_token_tx data =>
    cases h
    rfl
  | chunk is_token_tx more data => cases h
  | other => cases h

/-- Nothing has been received after a reset. -/
theorem Reset.payload_eq {req_type : RequestType} (h : Reset req_type G) : G.payload = [] := by
  rw [GlobalCtx.payload, h.raw_tx_len_eq, List.take_zero]

/-- The context is that of a session, whose path it holds. -/
structure Tracks (session : Session) (G : GlobalCtx) : Prop where
  req_type_eq : G.req_type = session.req_type
  room : G.tx_info.raw_tx_len ≤ MAX_TRANSACTION_LEN
  holds_path : ∀ words, session.path = some words → HoldsPath words G

/-- Before the first command there is no session. -/
theorem tracks_init : Tracks .none AppState.init.G_context :=
  ⟨rfl, Nat.zero_le _, fun _ h => by cases h⟩

/-- A session that goes on keeps its path. -/
theorem HoldsPath.continues {data : List UInt8} (h : HoldsPath words G) (hcontinues : Continues G data G') :
    HoldsPath words G' :=
  ⟨by rw [hcontinues.bip32_path_eq, hcontinues.bip32_path_len_eq]; exact h.words_eq,
    by rw [hcontinues.bip32_path_len_eq]; exact h.path_len_eq⟩

/-- The record of the session stays right while the session goes on. -/
theorem Tracks.continues {data : List UInt8} (h : Tracks session G) (hcontinues : Continues G data G') :
    Tracks session G' :=
  ⟨hcontinues.req_type_eq.trans h.req_type_eq, hcontinues.room h.room,
    fun words hwords => (h.holds_path words hwords).continues hcontinues⟩

/-- Chunk 0 resets the context, and leaves its path there when it is well formed. -/
theorem StartStep.reset {is_token_tx : Bool} {data : List UInt8}
    (h : StartStep s is_token_tx data s' events) :
    Reset (requestType is_token_tx) s'.G_context ∧
      ∀ words, pathOf data = some words → HoldsPath words s'.G_context := by
  cases h with
  | malformed hpath hreset => exact ⟨hreset, fun words hwords => by rw [hpath] at hwords; cases hwords⟩
  | accepted hpath hreset hholds =>
    exact ⟨hreset, fun words hwords => by rw [hpath] at hwords; cases hwords; exact hholds⟩

/-- GET_PUBLIC_KEY resets the context, and leaves its path there when it is well formed. -/
theorem PubkeyStep.reset {out : Outcomes} {data : List UInt8} {display : Bool}
    (h : PubkeyStep sdk out s data display s' events) :
    Reset .CONFIRM_ADDRESS s'.G_context ∧ ∀ words, pathOf data = some words → HoldsPath words s'.G_context := by
  cases h with
  | malformed hpath hreset => exact ⟨hreset, fun words hwords => by rw [hpath] at hwords; cases hwords⟩
  | failed g_address sw hpath hreset hholds hfail =>
    exact ⟨hreset, fun words hwords => by rw [hpath] at hwords; cases hwords; exact hholds⟩
  | answered hpath hreset hholds hkey hdisplay =>
    exact ⟨hreset, fun words hwords => by rw [hpath] at hwords; cases hwords; exact hholds⟩
  | shown g_address hpath hreset hholds hkey hdisplay =>
    exact ⟨hreset, fun words hwords => by rw [hpath] at hwords; cases hwords; exact hholds⟩

/-- A step that resets the context leaves nothing in it but the path of its command. -/
theorem Does.resets (h : Does sdk s i s' events) (hresets : i.request.resets = true) (session : Session) :
    Reset (session.next i.request).req_type s'.G_context ∧
      ∀ words, (session.next i.request).path = some words → HoldsPath words s'.G_context := by
  cases h with
  | start hrequest hstart =>
    rw [Input.request, hrequest]
    exact hstart.reset
  | pubkey hrequest hpubkey =>
    rw [Input.request, hrequest]
    exact hpubkey.reset
  | chunk hrequest hdata hchunk =>
    rw [Input.request, hrequest] at hresets
    cases hresets
  | other hrequest hcontext hscreen hevent =>
    rw [Input.request, hrequest] at hresets
    cases hresets
  | badLength => cases hresets
  | choice hchoice => cases hresets

/-- A step that resets the context leaves it as that of a session that begins. -/
theorem Does.tracks (h : Does sdk s i s' events) (hresets : i.request.resets = true) (session : Session) :
    Tracks (session.next i.request) s'.G_context := by
  obtain ⟨hreset, hpath⟩ := h.resets hresets session
  refine ⟨hreset.req_type_eq, ?_, hpath⟩
  rw [hreset.raw_tx_len_eq]
  exact Nat.zero_le _

/-- Every step keeps the context that of the session. -/
theorem Tracks.step (h : Tracks session s.G_context) (hdoes : Does sdk s i s' events) :
    Tracks (session.next i.request) s'.G_context := by
  cases hresets : i.request.resets with
  | true => exact hdoes.tracks hresets session
  | false =>
    rw [session.next_of_keeps hresets]
    exact h.continues (hdoes.continues hresets)

/-- In every reachable state the context is that of the session. -/
theorem run_tracks (sdk : Sdk) (h : List Input) :
    Tracks ((app sdk).observe monitor h).session ((app sdk).run h).G_context :=
  Machine.observed_invariant (M := app sdk) (O := monitor) (P := fun m s => Tracks m.session s.G_context)
    tracks_init (fun _ s i htracks => htracks.step (step_does sdk s i)) h

end hardmail
