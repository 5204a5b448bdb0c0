import HardMail.Session.Chunking

open memory codec machine

namespace hardmail

open deserialize

variable {sdk : Sdk} {s s' : AppState} {i : Input} {events : List Event} {k : List Input}

/-- A data chunk of a SIGN_TX session is refused, because it overflows the buffer, or
because the payload it ends does not parse. -/
inductive Refuses (sdk : Sdk) (s : AppState) (i : Input) : Prop where
  | overflow {more : Bool} {chunk : List UInt8} (hrequest : i.request = .chunk false more chunk)
    (hreq : s.G_context.req_type = .CONFIRM_TRANSACTION)
    (hanswer : (step sdk s i).2 = [.io_send_sw SWO_WRONG_DATA_LENGTH])
  | unparsed {more : Bool} {chunk : List UInt8} (hrequest : i.request = .chunk false more chunk)
    (hreq : s.G_context.req_type = .CONFIRM_TRANSACTION)
    (hanswer : (step sdk s i).2 = [.io_send_sw SWO_INCORRECT_DATA])
    (hparse : (transaction_deserialize (step sdk s i).1.G_context.payloadBuffer
      s.G_context.tx_info.transaction).1 ≠ .PARSING_OK)

/-- A data chunk of a SIGN_TX session overflows the buffer, or is the last one of a
payload that is not that of an email. -/
inductive Malformed (s : AppState) (i : Input) : Prop where
  | overflow {more : Bool} {chunk : List UInt8} (hrequest : i.request = .chunk false more chunk)
    (hreq : s.G_context.req_type = .CONFIRM_TRANSACTION)
    (hroom : MAX_TRANSACTION_LEN < s.G_context.tx_info.raw_tx_len + chunk.length)
  | unparsed {chunk : List UInt8} (hrequest : i.request = .chunk false false chunk)
    (hreq : s.G_context.req_type = .CONFIRM_TRANSACTION)
    (hroom : s.G_context.tx_info.raw_tx_len + chunk.length ≤ MAX_TRANSACTION_LEN)
    (hbad : ∀ e : Email, s.G_context.payload ++ chunk ≠ e.wire)

/-- A malformed input is a data chunk of a SIGN_TX session. -/
theorem Malformed.chunk (h : Malformed s i) :
    ∃ more chunk, i.request = .chunk false more chunk ∧ s.G_context.req_type = .CONFIRM_TRANSACTION := by
  cases h with
  | overflow hrequest hreq hroom => exact ⟨_, _, hrequest, hreq⟩
  | unparsed hrequest hreq hroom hbad => exact ⟨_, _, hrequest, hreq⟩

/-- A data chunk does what its handler does. -/
theorem Does.exists_chunkStep {is_token_tx more : Bool} {chunk : List UInt8} (h : Does sdk s i s' events)
    (hrequest : i.request = .chunk is_token_tx more chunk) :
    ∃ out, ChunkStep sdk out s is_token_tx more chunk s' events := by
  cases i with
  | apdu cmd out => exact ⟨out, h.chunkStep hrequest⟩
  | badLength => cases hrequest
  | choice confirm out => cases hrequest

/-- A chunk that overflows the buffer is answered so, and changes nothing. -/
theorem step_overflow (sdk : Sdk) {is_token_tx more : Bool} {chunk : List UInt8}
    (hrequest : i.request = .chunk is_token_tx more chunk) (hreq : s.G_context.req_type = requestType is_token_tx)
    (hroom : MAX_TRANSACTION_LEN < s.G_context.tx_info.raw_tx_len + chunk.length) :
    step sdk s i = (s, [.io_send_sw SWO_WRONG_DATA_LENGTH]) := by
  have hsize : s.G_context.tx_info.raw_tx_len + (Buffer.ofBytes chunk).size > MAX_TRANSACTION_LEN := hroom
  have htype : (if is_token_tx then RequestType.CONFIRM_TOKEN_TRANSACTION else .CONFIRM_TRANSACTION) =
      requestType is_token_tx := rfl
  have haccum : accumulate_transaction_data s.G_context (.ofBytes chunk) (requestType is_token_tx) =
      (s.G_context, SWO_WRONG_DATA_LENGTH) := by
    rw [accumulate_transaction_data, if_neg (not_not_intro hreq), dif_pos hsize]
  have hsw : SWO_WRONG_DATA_LENGTH ≠ SWO_SUCCESS := by decide
  cases i with
  | apdu cmd out =>
    obtain ⟨hp1, hdispatch⟩ := apdu_dispatcher_chunk sdk s out hrequest
    simp only [step, hdispatch, handler_sign_tx, if_neg hp1, htype, haccum, if_pos hsw]
    rfl
  | badLength => cases hrequest
  | choice confirm out => cases hrequest

/-- A chunk that is answered so overflows the buffer. -/
theorem ChunkStep.overflows {out : Outcomes} {more : Bool} {chunk : List UInt8}
    (h : ChunkStep sdk out s false more chunk s' events) (hreq : s.G_context.req_type = .CONFIRM_TRANSACTION)
    (hanswer : events = [.io_send_sw SWO_WRONG_DATA_LENGTH]) :
    MAX_TRANSACTION_LEN < s.G_context.tx_info.raw_tx_len + chunk.length := by
  cases h with
  | refused hrefuse hsw => exact Nat.not_le.mp fun hroom => hrefuse ⟨hreq, hroom⟩
  | shown display hreq happends hmore hwire hhash htoken => cases hanswer
  | _ => exact absurd hanswer (by decide)

/-- The parser refuses what is not the payload of an email. -/
theorem ChunkStep.unparsed_iff {out : Outcomes} {more : Bool} {chunk : List UInt8}
    (h : ChunkStep sdk out s false more chunk s' events) (hreq : s.G_context.req_type = .CONFIRM_TRANSACTION)
    (hroom : s.G_context.tx_info.raw_tx_len + chunk.length ≤ MAX_TRANSACTION_LEN) (old : Transaction) :
    (events = [.io_send_sw SWO_INCORRECT_DATA] ∧
      (transaction_deserialize s'.G_context.payloadBuffer old).1 ≠ .PARSING_OK) ↔
      more = false ∧ ∀ e : Email, s.G_context.payload ++ chunk ≠ e.wire := by
  cases h with
  | refused hrefuse hsw => exact absurd ⟨hreq, hroom⟩ hrefuse
  | stored hreq happends hmore =>
    refine iff_of_false ?_ (fun h => absurd (hmore.symm.trans h.1) (by decide))
    rintro ⟨hanswer, -⟩
    revert hanswer
    decide
  | @malformed G tx hreq happends hmore hbad =>
    rw [happends.payload_eq] at hbad
    refine iff_of_true ⟨rfl, ?_⟩ ⟨hmore, hbad⟩
    obtain ⟨e, st, hwire, -⟩ | ⟨-, hfail⟩ := GlobalCtx.transaction_deserialize_payload
      { G with tx_info := { G.tx_info with is_token_tx := false, transaction := tx } } old
    · exact absurd (happends.payload_eq.symm.trans hwire) (hbad e)
    · exact hfail
  | @unhashed G e residue hreq happends hmore hwire hhash =>
    refine iff_of_false ?_ (fun h => h.2 e (happends.payload_eq.symm.trans hwire))
    rintro ⟨-, hfail⟩
    exact hfail (GlobalCtx.transaction_deserialize_payload_ok _ happends.room_after hwire old).1
  | notShown hreq happends hmore hwire hhash htoken => cases htoken
  | @shown G e display hreq happends hmore hwire hhash htoken =>
    refine iff_of_false ?_ (fun h => h.2 e (happends.payload_eq.symm.trans hwire))
    rintro ⟨hanswer, -⟩
    cases hanswer

/-- What is refused can be told from the state and the chunk. -/
theorem refuses_iff_malformed : Refuses sdk s i ↔ Malformed s i := by
  constructor
  · intro h
    cases h with
    | overflow hrequest hreq hanswer =>
      obtain ⟨out, hchunk⟩ := (step_does sdk s i).exists_chunkStep hrequest
      exact .overflow hrequest hreq (hchunk.overflows hreq hanswer)
    | @unparsed more chunk hrequest hreq hanswer hparse =>
      obtain ⟨out, hchunk⟩ := (step_does sdk s i).exists_chunkStep hrequest
      by_cases hroom : s.G_context.tx_info.raw_tx_len + chunk.length ≤ MAX_TRANSACTION_LEN
      · obtain ⟨rfl, hbad⟩ := (hchunk.unparsed_iff hreq hroom _).mp ⟨hanswer, hparse⟩
        exact .unparsed hrequest hreq hroom hbad
      · exact .overflow hrequest hreq (Nat.not_le.mp hroom)
  · intro h
    cases h with
    | overflow hrequest hreq hroom => exact .overflow hrequest hreq (by rw [step_overflow sdk hrequest hreq hroom])
    | unparsed hrequest hreq hroom hbad =>
      obtain ⟨out, hchunk⟩ := (step_does sdk s i).exists_chunkStep hrequest
      obtain ⟨hanswer, hparse⟩ := (hchunk.unparsed_iff hreq hroom _).mpr ⟨rfl, hbad⟩
      exact .unparsed hrequest hreq hanswer hparse

/-- The commands that begin a SIGN_TX session. -/
def Request.begins : Request → Bool
  | .start false _ => true
  | _ => false

/-- No email review opens, and no signature is released but for a review that was
already on the screen. -/
structure StaysRefused (sdk : Sdk) (s : AppState) (k : List Input) : Prop where
  no_review : ∀ pairs, .review (.email pairs) ∉ (app sdk).emits s k
  no_signature : (∀ pairs, s.screen ≠ some (.email pairs)) →
    ∀ resp sw, .helper_send_response_sig resp sw ∉ (app sdk).emits s k

/-- After a refused chunk nothing comes of the session: nothing but a new SIGN_TX
chunk 0 leads to a review or a signature. -/
def FailsClosed (sdk : Sdk) (h : List Input) : Prop :=
  ∀ before i k after, h = before ++ i :: k ++ after → Refuses sdk ((app sdk).run before) i →
    (∀ j ∈ k, j.request.begins = false) → StaysRefused sdk ((app sdk).run (before ++ [i])) k

/-- What a session has received after a chunk. A chunk that overflows is not stored. -/
def receivedAfter (G : GlobalCtx) (chunk : List UInt8) : List UInt8 :=
  if G.tx_info.raw_tx_len + chunk.length ≤ MAX_TRANSACTION_LEN then G.payload ++ chunk else G.payload

/-- No email that fits into the buffer has a payload that goes on from these bytes. -/
def DeadEnd (received : List UInt8) : Prop :=
  ∀ (e : Email) (rest : List UInt8), rest ≠ [] → e.wire.length ≤ MAX_TRANSACTION_LEN → received ++ rest ≠ e.wire

/-- After the chunk no further bytes can make up for what is wrong. -/
def EndsSession (s : AppState) (i : Input) : Prop :=
  ∀ more chunk, i.request = .chunk false more chunk → DeadEnd (receivedAfter s.G_context chunk)

/-- A malformed chunk brings its session to a dead end. -/
def MalformedEnds (_ : Monitor) (s : AppState) (i : Input) : Prop := Malformed s i → EndsSession s i

/-- More bytes do not lead out of a dead end. -/
theorem DeadEnd.append {received : List UInt8} (h : DeadEnd received) (bytes : List UInt8) :
    DeadEnd (received ++ bytes) := by
  intro e rest hrest hroom
  rw [List.append_assoc]
  exact h e (bytes ++ rest) (by simp [hrest]) hroom

/-- The context is not that of a SIGN_TX session, or of one that has come to a dead end. -/
def Closed (s : AppState) : Prop :=
  s.G_context.req_type = .CONFIRM_TRANSACTION → DeadEnd s.G_context.payload

/-- What is closed stays closed until a new SIGN_TX session begins. -/
theorem Closed.step (h : Closed s) (hdoes : Does sdk s i s' events) (hbegins : i.request.begins = false) :
    Closed s' := by
  intro hreq
  cases hresets : i.request.resets with
  | true =>
    have hreset := (hdoes.resets hresets .none).1.req_type_eq
    obtain ⟨data, hsession⟩ := Session.eq_signing (hreset.symm.trans hreq)
    rw [Session.request_eq_start hsession] at hbegins
    cases hbegins
  | false =>
    have hcontinues := hdoes.continues hresets
    rw [hcontinues.payload_eq]
    exact (h (hcontinues.req_type_eq.symm.trans hreq)).append _

/-- A session that has come to a dead end opens no review. -/
theorem Closed.not_opensEmail (h : Closed s) {e : Email} : ¬ OpensEmail sdk s i s' e := by
  intro hopens
  obtain ⟨chunk, hchunk, happend⟩ := hopens.completes
  have hwire := hopens.hashed.payload_eq
  have hlen := GlobalCtx.payload_length hopens.hashed.room
  refine h hopens.req_type_eq e chunk hchunk ?_ (happend.symm.trans hwire)
  rw [← hwire, hlen]
  exact hopens.hashed.room

/-- No email review opens where the session is closed. -/
theorem Closed.no_review (h : Closed s) (hdoes : Does sdk s i s' events) (pairs : List (String × List UInt8)) :
    .review (.email pairs) ∉ events := by
  intro hreview
  obtain ⟨e, -, -, hopens⟩ := hdoes.opens_email hreview
  exact h.not_opensEmail hopens

/-- From a closed state on nothing is reviewed or signed, but for a review that was open
before. -/
theorem Closed.staysRefused (h : Closed s) (hk : ∀ j ∈ k, j.request.begins = false) : StaysRefused sdk s k := by
  constructor
  · intro pairs hreview
    refine Machine.emits_forall (M := app sdk) (P := fun event => event ≠ .review (.email pairs)) ?_ h hk _ hreview rfl
    intro s j hj hclosed
    have hdoes := step_does sdk s j
    refine ⟨?_, hclosed.step hdoes hj⟩
    rintro event hevent rfl
    exact hclosed.no_review hdoes pairs hevent
  · intro hscreen resp sw hsig
    refine Machine.emits_forall (M := app sdk) (P := fun event => event ≠ .helper_send_response_sig resp sw)
      (D := fun s => Closed s ∧ ∀ pairs, s.screen ≠ some (.email pairs)) ?_ ⟨h, hscreen⟩ hk _ hsig rfl
    rintro s j hj ⟨hclosed, hscreen⟩
    have hdoes := step_does sdk s j
    refine ⟨?_, hclosed.step hdoes hj, ?_⟩
    · rintro event hevent rfl
      cases hdoes.causes hevent with
      | signature happroves =>
        obtain ⟨out, pairs, -, hemail⟩ := happroves
        exact hscreen pairs hemail
    · intro pairs hemail
      obtain hopens | ⟨-, hbefore⟩ := hdoes.screen hemail
      · exact hclosed.no_review hdoes pairs hopens
      · exact hscreen pairs hbefore

/-- A data chunk leaves in the context what the session has received after it. -/
theorem Does.payload_eq_receivedAfter {more : Bool} {chunk : List UInt8} (h : Does sdk s i s' events)
    (hrequest : i.request = .chunk false more chunk) (hreq : s.G_context.req_type = .CONFIRM_TRANSACTION) :
    s'.G_context.payload = receivedAfter s.G_context chunk := by
  rw [(h.continues (by rw [hrequest, Request.resets])).payload_eq, hrequest, receivedAfter]
  have haccepts := accumulate_transaction_data_success_iff s.G_context chunk (requestType false)
  by_cases hroom : s.G_context.tx_info.raw_tx_len + chunk.length ≤ MAX_TRANSACTION_LEN
  · rw [if_pos hroom, acceptedData, if_pos (haccepts.mpr ⟨hreq, hroom⟩)]
  · rw [if_neg hroom, acceptedData, if_neg fun hok => hroom (haccepts.mp hok).2, List.append_nil]

/-- A chunk by which the session comes to a dead end closes it. -/
theorem EndsSession.closed (h : EndsSession s i) (hmalformed : Malformed s i) : Closed (hardmail.step sdk s i).1 := by
  obtain ⟨more, chunk, hrequest, hreq⟩ := hmalformed.chunk
  intro _
  rw [(step_does sdk s i).payload_eq_receivedAfter hrequest hreq]
  exact h more chunk hrequest

/-- What resets nothing begins no session. -/
theorem begins_of_keeps {request : Request} (hkeeps : request.resets = false) : request.begins = false := by
  cases request with
  | start is_token_tx data => cases hkeeps
  | _ => rfl

/-- A session with a malformed chunk that has not come to a dead end can be completed:
some way of sending the missing bytes opens a review. -/
theorem exists_review_of_not_endsSession (sdk : Sdk) (h : List Input) {i : Input}
    (hmalformed : Malformed ((app sdk).run h) i) (hopen : ¬ EndsSession ((app sdk).run h) i) :
    ∃ k, (∀ j ∈ k, j.request.resets = false) ∧
      ∃ pairs, .review (.email pairs) ∈ (app sdk).emits ((app sdk).run (h ++ [i])) k := by
  obtain ⟨more, chunk, hrequest, hreq⟩ := hmalformed.chunk
  simp only [EndsSession, DeadEnd, ne_eq, not_forall, not_not] at hopen
  obtain ⟨more', chunk', hrequest', e, rest, hrest, hroom, hwire⟩ := hopen
  rw [hrequest] at hrequest'
  cases hrequest'
  have htracks := run_tracks sdk h
  obtain ⟨data, hsession⟩ := Session.eq_signing (htracks.req_type_eq.symm.trans hreq)
  rw [hsession] at htracks
  have hdoes := step_does sdk ((app sdk).run h) i
  have hreceives : Receives data (receivedAfter ((app sdk).run h).G_context chunk)
      ((app sdk).run (h ++ [i])).G_context := by
    rw [Machine.run_concat]
    exact ⟨htracks.continues (hdoes.continues (by rw [hrequest, Request.resets])),
      hdoes.payload_eq_receivedAfter hrequest hreq⟩
  obtain ⟨k, hsends⟩ := exists_sends .success hrest
  refine ⟨k, hsends.keeps, ?_⟩
  obtain ⟨-, e', -, hcompletes⟩ | ⟨hno, -⟩ :=
    hreceives.finish sdk hsends (by rw [← List.length_append, hwire]; exact hroom)
  · exact ⟨e'.pairs, Machine.mem_emits_of_mem_finish (by rw [hcompletes.events_eq]; simp)⟩
  · exact absurd ⟨rfl, e, hwire⟩ hno

/-- Sessions fail closed along every run in which each malformed chunk brings its session
to a dead end; and a run up to a malformed chunk that does not can be continued, with
nothing that resets the context, to one that does not fail closed. -/
theorem run_fails_closed (sdk : Sdk) (h : List Input) :
    ((app sdk).EveryStep monitor MalformedEnds h → FailsClosed sdk h) ∧
      ∀ i, ¬ MalformedEnds ((app sdk).observe monitor h) ((app sdk).run h) i →
        ∃ k, (∀ j ∈ k, j.request.resets = false) ∧ ¬ FailsClosed sdk (h ++ i :: k) := by
  constructor
  · rintro hsteps before i k after rfl hrefuses hk
    have hmalformed := refuses_iff_malformed.mp hrefuses
    have hends := hsteps before i (k ++ after) (by simp) hmalformed
    rw [Machine.run_concat]
    exact (hends.closed hmalformed).staysRefused hk
  · intro i hcond
    obtain ⟨hmalformed, hopen⟩ := Classical.not_imp.mp hcond
    obtain ⟨k, hkeeps, pairs, hreview⟩ := exists_review_of_not_endsSession sdk h hmalformed hopen
    refine ⟨k, hkeeps, ?_⟩
    intro hclosed
    have hstays := hclosed h i k [] (by simp) (refuses_iff_malformed.mpr hmalformed)
      fun j hj => begins_of_keeps (hkeeps j hj)
    exact hstays.no_review pairs hreview

/-- A chunk ends its session when what has been received then is a dead end. -/
theorem EndsSession.of_request {more : Bool} {chunk : List UInt8} (hrequest : i.request = .chunk false more chunk)
    (hdead : DeadEnd (receivedAfter s.G_context chunk)) : EndsSession s i := by
  intro more' chunk' hrequest'
  rw [hrequest] at hrequest'
  cases hrequest'
  exact hdead

/-- Trailing bytes bring a session to a dead end. -/
theorem deadEnd_wire (e : Email) (bytes : List UInt8) : DeadEnd (e.wire ++ bytes) := by
  have hwire : DeadEnd e.wire := by
    intro e' rest hrest _ heq
    exact hrest (Email.eq_of_wire_append heq).2
  exact hwire.append bytes

/-- A SIGN_TX session whose payload has a trailing byte. The refused chunk is sent once
more. -/
def trailingSession : List Input :=
  [.send SIGN_TX 0 P2_MORE [1, 0, 0, 0, 6], .send SIGN_TX 1 P2_LAST (Email.smallest.wire ++ [0x41]),
    .send SIGN_TX 2 P2_LAST (Email.smallest.wire ++ [0x41])]

/-- A payload with a trailing byte is refused, and nothing comes of its session. -/
theorem trailing_fails_closed :
    Refuses .sample ((app .sample).run (trailingSession.take 1))
        (.send SIGN_TX 1 P2_LAST (Email.smallest.wire ++ [0x41])) ∧
      FailsClosed .sample trailingSession := by
  refine ⟨.unparsed rfl (by decide +kernel) (by decide +kernel) (by decide +kernel),
    (run_fails_closed .sample trailingSession).1 ?_⟩
  have hstart : (app .sample).EveryStep monitor MalformedEnds (trailingSession.take 1) := by
    refine Machine.EveryStep.nil.concat fun hmalformed => ?_
    obtain ⟨more, chunk, hrequest, -⟩ := hmalformed.chunk
    cases hrequest
  refine (hstart.concat fun _ => .of_request rfl ?_).concat fun _ => .of_request rfl ?_
  · have hreceived : receivedAfter ((app .sample).run (trailingSession.take 1)).G_context
        (Email.smallest.wire ++ [0x41]) = Email.smallest.wire ++ [0x41] := by decide +kernel
    rw [hreceived]
    exact deadEnd_wire _ _
  · have hreceived : receivedAfter ((app .sample).run (trailingSession.take 2)).G_context
        (Email.smallest.wire ++ [0x41]) =
        Email.smallest.wire ++ ([0x41] ++ (Email.smallest.wire ++ [0x41])) := by decide +kernel
    change DeadEnd (receivedAfter ((app .sample).run (trailingSession.take 2)).G_context _)
    rw [hreceived]
    exact deadEnd_wire _ _

/-- The smallest email, cut in two by a chunk marked as the last one. -/
def truncatedSession : List Input :=
  [.send SIGN_TX 0 P2_MORE [1, 0, 0, 0, 8], .send SIGN_TX 1 P2_LAST (Email.smallest.wire.take 19),
    .send SIGN_TX 2 P2_LAST (Email.smallest.wire.drop 19), .choice true .success]

/-- The rest of a truncated payload completes the session that was refused: the email is
shown, and signed when the user approves. -/
theorem truncated_not_fails_closed :
    (step .sample ((app .sample).run (truncatedSession.take 3)) (.choice true .success)).2.any Event.success = true ∧
      ¬ FailsClosed .sample truncatedSession := by
  refine ⟨by decide +kernel, fun hclosed => ?_⟩
  have hstays := hclosed (truncatedSession.take 1) (.send SIGN_TX 1 P2_LAST (Email.smallest.wire.take 19))
    (truncatedSession.drop 2) [] rfl ?_ (by decide +kernel)
  · exact hstays.no_review Email.smallest.pairs (by decide +kernel)
  · exact .unparsed rfl (by decide +kernel) (by decide +kernel) (by decide +kernel)

end hardmail
