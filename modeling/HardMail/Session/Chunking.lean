import HardMail.Session.Answers

open memory codec machine

namespace hardmail

variable {sdk : Sdk} {s s' : AppState} {i : Input} {events : List Event} {out : Outcomes} {words : List UInt32}
  {received payload chunk : List UInt8} {k : List Input}

/-- The inputs that send a payload behind a chunk 0, in one way of splitting it into
chunks. The user may answer reviews of earlier sessions in between. The last chunk is
the one whose calls turn out as `out`. -/
inductive Sends (out : Outcomes) : List UInt8 → List Input → Prop where
  | last {p1 : UInt8} {chunk : List UInt8} (hp1 : 1 ≤ p1 ∧ p1 ≤ P1_MAX) (hchunk : chunk ≠ [])
    (hlen : chunk.length < 256) : Sends out chunk [.apdu ⟨CLA, SIGN_TX, p1, P2_LAST, chunk, hlen⟩ out]
  | more {p1 : UInt8} {chunk payload : List UInt8} {k : List Input} (hp1 : 1 ≤ p1 ∧ p1 ≤ P1_MAX)
    (hchunk : chunk ≠ []) (hlen : chunk.length < 256) (any : Outcomes) (h : Sends out payload k) :
    Sends out (chunk ++ payload) (.apdu ⟨CLA, SIGN_TX, p1, P2_MORE, chunk, hlen⟩ any :: k)
  | answer {payload : List UInt8} {k : List Input} (confirm : Bool) (any : Outcomes) (h : Sends out payload k) :
    Sends out payload (.choice confirm any :: k)

/-- At least one command sends the payload. -/
theorem Sends.ne_nil (h : Sends out payload k) : k ≠ [] := by
  cases h <;> simp

/-- Every payload can be sent, if only a byte at a time. -/
theorem exists_sends (out : Outcomes) (hne : payload ≠ []) : ∃ k, Sends out payload k := by
  have hp1 : (1 : UInt8) ≤ 1 ∧ 1 ≤ P1_MAX := by decide
  induction payload with
  | nil => exact absurd rfl hne
  | cons b rest ih =>
    by_cases hrest : rest = []
    · subst hrest
      exact ⟨_, .last hp1 hne (by simp)⟩
    · obtain ⟨k, hk⟩ := ih hrest
      exact ⟨_, .more hp1 (List.cons_ne_nil b []) (by simp) out hk⟩

/-- A SIGN_TX command behind chunk 0 is a data chunk of its session. -/
theorem chunk_request {p1 : UInt8} (p2 : UInt8) (hp1 : 1 ≤ p1 ∧ p1 ≤ P1_MAX) (hp2 : p2 = P2_LAST ∨ p2 = P2_MORE)
    (hchunk : chunk ≠ []) (hlen : chunk.length < 256) :
    (⟨CLA, SIGN_TX, p1, p2, chunk, hlen⟩ : Command).request = .chunk false (p2 = P2_MORE) chunk := by
  have hstart : p1 ≠ P1_START := by
    rintro rfl
    exact absurd hp1.1 (by decide)
  have hmax : ¬ p1 > P1_MAX := UInt8.not_lt.mpr hp1.2
  have hpubkey : SIGN_TX ≠ GET_PUBLIC_KEY := by decide
  have hp2' : ¬ (p2 ≠ P2_LAST ∧ p2 ≠ P2_MORE) := by tauto
  simp [Command.request, hstart, hmax, hpubkey, hp2', hchunk]
  decide

/-- Nothing in a session resets the context behind its chunk 0. -/
theorem Sends.keeps (h : Sends out payload k) : ∀ j ∈ k, j.request.resets = false := by
  induction h with
  | last hp1 hchunk hlen =>
    intro j hj
    rw [List.mem_singleton.mp hj, Input.request, chunk_request P2_LAST hp1 (Or.inl rfl) hchunk hlen, Request.resets]
  | more hp1 hchunk hlen any h ih =>
    intro j hj
    obtain rfl | hj := List.mem_cons.mp hj
    · rw [Input.request, chunk_request P2_MORE hp1 (Or.inr rfl) hchunk hlen, Request.resets]
    · exact ih j hj
  | answer confirm any h ih =>
    intro j hj
    obtain rfl | hj := List.mem_cons.mp hj
    · rfl
    · exact ih j hj

/-- The context is that of a SIGN_TX session that has received the given bytes. -/
structure Receives (data received : List UInt8) (G : GlobalCtx) : Prop extends
    Tracks (.signing false data) G where
  payload_eq : G.payload = received

/-- Chunk 0 begins a session that has received nothing. -/
theorem Receives.start {data : List UInt8} (h : Does sdk s i s' events) (hrequest : i.request = .start false data) :
    Receives data [] s'.G_context := by
  have hresets : i.request.resets = true := by rw [hrequest, Request.resets]
  have htracks := h.tracks hresets .none
  have hreset := (h.resets hresets .none).1
  rw [hrequest] at htracks
  exact ⟨htracks, hreset.payload_eq⟩

/-- A session receives what it accepts of every command that does not reset it. -/
theorem Receives.step {data : List UInt8} (h : Receives data received s.G_context) (hdoes : Does sdk s i s' events)
    (hkeeps : i.request.resets = false) :
    Receives data (received ++ acceptedData s.G_context i.request) s'.G_context := by
  have hcontinues := hdoes.continues hkeeps
  exact ⟨h.toTracks.continues hcontinues, by rw [hcontinues.payload_eq, h.payload_eq]⟩

/-- A session accepts every chunk that fits. -/
theorem Receives.acceptedData_eq {data : List UInt8} {G : GlobalCtx} (h : Receives data received G)
    (hroom : received.length + chunk.length ≤ MAX_TRANSACTION_LEN) (more : Bool) :
    acceptedData G (.chunk false more chunk) = chunk := by
  have hlen := GlobalCtx.payload_length h.room
  rw [h.payload_eq] at hlen
  exact if_pos ((accumulate_transaction_data_success_iff G chunk _).mpr ⟨h.req_type_eq, hlen ▸ hroom⟩)

/-- How a session goes on from its last chunk. -/
structure Completes (sdk : Sdk) (data : List UInt8) (e : Email) (s : AppState) (events : List Event) : Prop where
  receives : Receives data e.wire s.G_context
  events_eq : events = [.review (.email e.pairs)]
  screen_eq : s.screen = some (.email e.pairs)
  m_hash_eq : s.G_context.tx_info.m_hash = sdk.cx_hash_sha256 e.wire

/-- The last chunk opens the review of the email whose payload it completes, or is
refused. -/
theorem Receives.last {data : List UInt8} {cmd : Command} (h : Receives data received s.G_context)
    (hroom : received.length + chunk.length ≤ MAX_TRANSACTION_LEN)
    (hdoes : Does sdk s (.apdu cmd out) s' events) (hrequest : cmd.request = .chunk false false chunk) :
    (out.hash = none ∧ ∃ e, received ++ chunk = e.wire ∧ Completes sdk data e s' events) ∨
      (¬ (out.hash = none ∧ ∃ e : Email, received ++ chunk = e.wire) ∧
        events = [.io_send_sw SWO_INCORRECT_DATA]) := by
  have hreceives := h.step hdoes (by rw [Input.request, hrequest, Request.resets])
  rw [Input.request, hrequest, h.acceptedData_eq hroom] at hreceives
  cases hdoes.chunkStep hrequest with
  | refused hrefuse hsw =>
    have hlen := GlobalCtx.payload_length h.room
    rw [h.payload_eq] at hlen
    exact absurd ⟨h.req_type_eq, hlen ▸ hroom⟩ hrefuse
  | stored hreq happends hmore => cases hmore
  | malformed tx hreq happends hmore hbad =>
    rw [happends.payload_eq, h.payload_eq] at hbad
    exact Or.inr ⟨fun hok => hok.2.elim hbad, rfl⟩
  | unhashed residue hreq happends hmore hwire hhash =>
    refine Or.inr ⟨?_, rfl⟩
    rintro ⟨hnone, -⟩
    rw [hnone] at hhash
    cases hhash
  | notShown hreq happends hmore hwire hhash htoken => cases htoken
  | @shown G e display hreq happends hmore hwire hhash htoken =>
    rw [happends.payload_eq, h.payload_eq] at hwire
    exact Or.inl ⟨hhash, e, hwire, hwire ▸ hreceives, rfl, rfl, rfl⟩

/-- However a payload is split into chunks, the session ends with the review of the
email it encodes, or is refused. -/
theorem Receives.finish (sdk : Sdk) {data : List UInt8} (h : Receives data received s.G_context)
    (hsends : Sends out payload k)
    (hroom : received.length + payload.length ≤ MAX_TRANSACTION_LEN) :
    (out.hash = none ∧ ∃ e, received ++ payload = e.wire ∧
      Completes sdk data e ((app sdk).finish s k).1 ((app sdk).finish s k).2) ∨
      (¬ (out.hash = none ∧ ∃ e : Email, received ++ payload = e.wire) ∧
        ((app sdk).finish s k).2 = [.io_send_sw SWO_INCORRECT_DATA]) := by
  induction hsends generalizing s received with
  | last hp1 hchunk hlen =>
    exact h.last hroom (step_does sdk s _) (chunk_request P2_LAST hp1 (Or.inl rfl) hchunk hlen)
  | @more p1 chunk payload k hp1 hchunk hlen any hsends ih =>
    have hrequest := chunk_request P2_MORE hp1 (Or.inr rfl) hchunk hlen
    rw [List.length_append] at hroom
    have hnext := h.step (step_does sdk s (.apdu ⟨CLA, SIGN_TX, p1, P2_MORE, chunk, hlen⟩ any))
      (by rw [Input.request, hrequest, Request.resets])
    rw [Input.request, hrequest, h.acceptedData_eq (by omega)] at hnext
    rw [Machine.finish_cons _ _ _ hsends.ne_nil, ← List.append_assoc]
    exact ih hnext (by rw [List.length_append]; omega)
  | answer confirm any hsends ih =>
    have hnext := h.step (step_does sdk s (.choice confirm any)) rfl
    change Receives data (received ++ []) _ at hnext
    rw [List.append_nil] at hnext
    rw [Machine.finish_cons _ _ _ hsends.ne_nil]
    exact ih hnext hroom

/-- What the user's answer to the review of a session is answered with. -/
def Sdk.answer (sdk : Sdk) (path : DerivationPath) (m_hash : CArray UInt8 32) (confirm : Bool) (out : Outcomes) :
    List (UInt16 × List UInt8) :=
  if !confirm then [(SWO_CONDITIONS_NOT_SATISFIED, [])]
  else if out.sign.isNone then [(SWO_SUCCESS, signatureText (sdk.sign out path m_hash))]
  else [(SWO_SECURITY_ISSUE, [])]

/-- How a session ends: refused, with a response, or reviewed, with the pairs shown, the
hash and the path at review, and the responses to the user's answer. -/
inductive Outcome where
  | refused (responses : List (UInt16 × List UInt8))
  | reviewed (pairs : List (String × List UInt8)) (m_hash : CArray UInt8 32) (path : DerivationPath)
      (responses : List (UInt16 × List UInt8))
  deriving DecidableEq

/-- How the code ends a session that is sent as `k` from the state `s`, when the user
then answers `confirm`. -/
def outcome (sdk : Sdk) (s : AppState) (k : List Input) (confirm : Bool) (out : Outcomes) : Outcome :=
  match (app sdk).finish s k with
  | (s', [.review (.email pairs)]) =>
    .reviewed pairs s'.G_context.tx_info.m_hash s'.G_context.derivationPath
      (responses (step sdk s' (.choice confirm out)).2)
  | (_, events) => .refused (responses events)

/-- What a session is for: a function of the path and the payload, and of nothing that
has happened before. -/
def Sdk.session (sdk : Sdk) (words : List UInt32) (payload : List UInt8) (last : Outcomes) (confirm : Bool)
    (out : Outcomes) : Outcome :=
  match last.hash, emailCodec.decode payload with
  | none, some (e, []) =>
    .reviewed e.pairs (sdk.cx_hash_sha256 payload) (.of words)
      (sdk.answer (.of words) (sdk.cx_hash_sha256 payload) confirm out)
  | _, _ => .refused [(SWO_INCORRECT_DATA, [])]

/-- The response to the answer of an email review depends on the path, the digest and the
call only. -/
theorem ChoiceStep.answer {confirm : Bool} {pairs : List (String × List UInt8)}
    (h : ChoiceStep sdk out s confirm s' events) (hscreen : s.screen = some (.email pairs)) :
    responses events = sdk.answer s.G_context.derivationPath s.G_context.tx_info.m_hash confirm out := by
  cases h with
  | idle hidle =>
    rw [hidle] at hscreen
    cases hscreen
  | rejected hemail hconfirm =>
    subst hconfirm
    rfl
  | unsigned signature hemail hconfirm hsign =>
    subst hconfirm
    have hfail : out.sign.isNone = false := by simpa [Option.isSome_iff_ne_none] using hsign
    simp only [Sdk.answer, hfail]
    rfl
  | signed hemail hconfirm hsign hraw hlen htx hhash =>
    subst hconfirm
    simp only [Sdk.answer, hsign]
    rfl
  | verified haddress hconfirm =>
    rw [haddress] at hscreen
    cases hscreen
  | unverified haddress hconfirm =>
    rw [haddress] at hscreen
    cases hscreen

/-- A session that has received an email's payload reviews that email. -/
theorem Sdk.session_wire (sdk : Sdk) (words : List UInt32) (e : Email) {last : Outcomes} (hhash : last.hash = none)
    (confirm : Bool) (out : Outcomes) : sdk.session words e.wire last confirm out =
      .reviewed e.pairs (sdk.cx_hash_sha256 e.wire) (.of words)
        (sdk.answer (.of words) (sdk.cx_hash_sha256 e.wire) confirm out) := by
  have hdecode := emailCodec.decode_encode e []
  rw [emailCodec_encode, List.append_nil] at hdecode
  simp only [Sdk.session, hhash, hdecode]

/-- Any other session is refused, and nothing is reviewed or signed. -/
theorem Sdk.session_refused (sdk : Sdk) (words : List UInt32) {last : Outcomes}
    (hno : ¬ (last.hash = none ∧ ∃ e : Email, payload = e.wire)) (confirm : Bool) (out : Outcomes) :
    sdk.session words payload last confirm out = .refused [(SWO_INCORRECT_DATA, [])] := by
  unfold Sdk.session
  split
  · rename_i e hhash hdecode
    have hwire := emailCodec.encode_of_decode payload e [] hdecode
    rw [emailCodec_encode, List.append_nil] at hwire
    exact absurd ⟨hhash, e, hwire⟩ hno
  · rfl

/-- From every state, and however the payload is split, a session ends as what it is
for says. -/
theorem outcome_eq_session (sdk : Sdk) (s : AppState) {data : List UInt8} (hdata : data.length < 256)
    (hpath : pathOf data = some words) (any : Outcomes) {last : Outcomes} (hsends : Sends last payload k)
    (hroom : payload.length ≤ MAX_TRANSACTION_LEN) (confirm : Bool) (out : Outcomes) :
    outcome sdk s (.apdu ⟨CLA, SIGN_TX, P1_START, P2_MORE, data, hdata⟩ any :: k) confirm out =
      sdk.session words payload last confirm out := by
  have hne : data ≠ [] := by
    rintro rfl
    cases hpath
  have hrequest : (Input.apdu ⟨CLA, SIGN_TX, P1_START, P2_MORE, data, hdata⟩ any).request = .start false data := by
    simp only [Input.request, Command.request, hne, or_false]
    rfl
  have hstart : Receives data [] ((app sdk).step s
      (.apdu ⟨CLA, SIGN_TX, P1_START, P2_MORE, data, hdata⟩ any)).1.G_context :=
    Receives.start (step_does sdk s _) hrequest
  have hfinish := hstart.finish sdk hsends (by simpa using hroom)
  rw [List.nil_append] at hfinish
  rw [outcome, Machine.finish_cons _ _ _ hsends.ne_nil]
  generalize (app sdk).finish _ k = result at hfinish
  obtain ⟨s', events⟩ := result
  obtain ⟨hhash, e, rfl, hcompletes⟩ | ⟨hno, hevents⟩ := hfinish
  · obtain ⟨hreceives, hevents, hscreen, hm_hash⟩ := hcompletes
    dsimp only at hreceives hevents hscreen hm_hash
    subst hevents
    have hwords := (hreceives.holds_path words hpath).path_eq
    rw [sdk.session_wire words e hhash, ← hm_hash, ← hwords, ← (review_choice_step sdk s' confirm out).answer hscreen]
    rfl
  · dsimp only at hevents
    subst hevents
    rw [sdk.session_refused words hno]
    rfl

/-- Sessions are isolated and independent of chunking. From any two states, and with any
two ways of splitting the payload, a session ends in the same way. -/
theorem session_independent (sdk : Sdk) (s t : AppState) {data payload : List UInt8} {words : List UInt32}
    (hdata : data.length < 256) (hpath : pathOf data = some words) (hroom : payload.length ≤ MAX_TRANSACTION_LEN)
    (any any' : Outcomes) {last : Outcomes} {k k' : List Input} (hsends : Sends last payload k)
    (hsends' : Sends last payload k') (confirm : Bool) (out : Outcomes) :
    outcome sdk s (.apdu ⟨CLA, SIGN_TX, P1_START, P2_MORE, data, hdata⟩ any :: k) confirm out =
      outcome sdk t (.apdu ⟨CLA, SIGN_TX, P1_START, P2_MORE, data, hdata⟩ any' :: k') confirm out := by
  rw [outcome_eq_session sdk s hdata hpath any hsends hroom, outcome_eq_session sdk t hdata hpath any' hsends' hroom]

/-- The smallest email, sent whole from the start, and in two chunks, with an answer in
between, while an address review waits. -/
theorem smallest_session_independent :
    outcome .sample .init [.send SIGN_TX 0 P2_MORE [1, 0, 0, 0, 7], .send SIGN_TX 16 P2_LAST Email.smallest.wire]
        true .success =
      outcome .sample ((app .sample).run [.send GET_PUBLIC_KEY 1 0 [1, 0, 0, 0, 3]])
        [.send SIGN_TX 0 P2_MORE [1, 0, 0, 0, 7], .send SIGN_TX 3 P2_MORE (Email.smallest.wire.take 17),
          .choice true .success, .send SIGN_TX 2 P2_LAST (Email.smallest.wire.drop 17)] true .success := by
  have hwhole : Sends .success Email.smallest.wire [.send SIGN_TX 16 P2_LAST Email.smallest.wire] :=
    .last (by decide) (by decide) (by decide)
  have hsplit : Sends .success (Email.smallest.wire.take 17 ++ Email.smallest.wire.drop 17)
      [.send SIGN_TX 3 P2_MORE (Email.smallest.wire.take 17), .choice true .success,
        .send SIGN_TX 2 P2_LAST (Email.smallest.wire.drop 17)] :=
    .more (by decide) (by decide) (by decide) _ (.answer _ _ (.last (by decide) (by decide) (by decide)))
  rw [List.take_append_drop] at hsplit
  have hpath : pathOf [1, 0, 0, 0, 7] = some [7] := by decide
  exact session_independent .sample .init _ (by decide) hpath (by decide) .success .success hwhole hsplit true .success

end hardmail
