import HardMail.Session.History
import HardMail.Transaction.RoundTrip

open memory codec machine

namespace hardmail

open deserialize

variable {sdk : Sdk} {s s' : AppState} {i : Input} {events : List Event} {pairs : List (String × List UInt8)}

/-- An email review is opened by the last chunk of its payload, and shows the email that the
context then holds parsed and hashed. -/
theorem Does.opens_email (h : Does sdk s i s' events) (hreview : .review (.email pairs) ∈ events) :
    ∃ e : Email, pairs = e.pairs ∧ events = [.review (.email e.pairs)] ∧ OpensEmail sdk s i s' e := by
  cases h.causes hreview with
  | email_review hevents hopens => exact ⟨_, rfl, hevents, hopens⟩

/-- The data of a SIGN_TX chunk that passes the checks of `accumulate_transaction_data`. -/
def acceptedChunk (G : GlobalCtx) : Request → Option (List UInt8)
  | .chunk false _ chunk =>
    if (accumulate_transaction_data G (.ofBytes chunk) .CONFIRM_TRANSACTION).2 = SWO_SUCCESS then some chunk
    else none
  | _ => none

/-- The accepted SIGN_TX chunks of a run, in order. -/
def acceptedChunks (sdk : Sdk) (s : AppState) : List Input → List (List UInt8)
  | [] => []
  | i :: rest => (acceptedChunk s.G_context i.request).toList ++ acceptedChunks sdk (step sdk s i).1 rest

/-- A SIGN_TX session accepts nothing but SIGN_TX chunks. -/
theorem acceptedData_eq {G : GlobalCtx} (hreq : G.req_type = .CONFIRM_TRANSACTION) (request : Request) :
    acceptedData G request = (acceptedChunk G request).toList.flatten := by
  cases request with
  | pubkey data display => rfl
  | start is_token_tx data => rfl
  | other => rfl
  | chunk is_token_tx more chunk =>
    cases is_token_tx with
    | false =>
      simp only [acceptedData, acceptedChunk, requestType, Bool.false_eq_true, if_false]
      split
      · simp
      · rfl
    | true =>
      have hother : G.req_type ≠ requestType true := by
        rw [hreq]
        decide
      have hrefused := (accumulate_transaction_data_success_iff G chunk (requestType true)).not.mpr
        fun hok => hother hok.1
      exact if_neg hrefused

/-- The payload grows by the accepted chunks, as long as nothing resets the context. -/
theorem payload_runFrom (sdk : Sdk) {k : List Input} (hkeeps : ∀ j ∈ k, j.request.resets = false) {s : AppState}
    (hreq : s.G_context.req_type = .CONFIRM_TRANSACTION) :
    ((app sdk).runFrom s k).G_context.payload = s.G_context.payload ++ (acceptedChunks sdk s k).flatten := by
  induction k generalizing s with
  | nil => simp [Machine.runFrom, acceptedChunks]
  | cons i k ih =>
    have hcontinues := (step_does sdk s i).continues (hkeeps i (by simp))
    have hnext := ih (fun j hj => hkeeps j (by simp [hj])) (hcontinues.req_type_eq.trans hreq)
    rw [Machine.runFrom, acceptedChunks, List.flatten_append, ← acceptedData_eq hreq, ← List.append_assoc,
      ← hcontinues.payload_eq]
    exact hnext

/-- Faithful reassembly. Whenever an email review opens, the last command that reset
the context was a SIGN_TX chunk 0, and the context holds the concatenation of exactly
the SIGN_TX chunks that were accepted since, parsed, hashed and shown. -/
theorem review_reassembles (sdk : Sdk) (h : List Input) (i : Input) {pairs : List (String × List UInt8)}
    (hreview : .review (.email pairs) ∈ (step sdk ((app sdk).run h) i).2) :
    ∃ before start after data, h ++ [i] = before ++ start :: after ∧ start.request = .start false data ∧
      (∀ j ∈ after, j.request.resets = false) ∧
      ((app sdk).run (h ++ [i])).G_context.payload =
        (acceptedChunks sdk ((app sdk).run (before ++ [start])) after).flatten ∧
      ∃ e, ((app sdk).run (h ++ [i])).G_context.Hashed sdk e ∧ pairs = e.pairs := by
  obtain ⟨e, rfl, -, hopens⟩ := (step_does sdk _ i).opens_email hreview
  obtain ⟨data, hsession⟩ := Session.eq_signing ((run_tracks sdk h).req_type_eq.symm.trans hopens.req_type_eq)
  obtain ⟨before, start, after, hhistory, hresets, hafter, hnext, -⟩ := session_history sdk h (by simp [hsession])
  have hstart := Session.request_eq_start (hnext.symm.trans hsession)
  have hkeeps : ∀ j ∈ after ++ [i], j.request.resets = false := keeps_concat hafter hopens.keeps
  have hsplit : h ++ [i] = (before ++ [start]) ++ (after ++ [i]) := by simp [hhistory]
  have happend : (app sdk).run (h ++ [i]) = (app sdk).runFrom ((app sdk).run (before ++ [start])) (after ++ [i]) := by
    rw [hsplit, Machine.run_append]
  have hbegins : Reset .CONFIRM_TRANSACTION ((app sdk).run (before ++ [start])).G_context := by
    have hreset := ((step_does sdk ((app sdk).run before) start).resets hresets .none).1
    rw [hstart] at hreset
    rw [Machine.run_concat]
    exact hreset
  refine ⟨before, start, after ++ [i], data, by simp [hhistory], hstart, hkeeps, ?_, ?_⟩
  · rw [happend, payload_runFrom sdk hkeeps hbegins.req_type_eq, hbegins.payload_eq, List.nil_append]
  · rw [Machine.run_concat]
    exact ⟨e, hopens.hashed, rfl⟩

/-- One SIGN_TX session for the smallest email, sent in two chunks. -/
def smallestSession : List Input :=
  [.send SIGN_TX 0 P2_MORE [1, 0, 0, 0, 5], .send SIGN_TX 1 P2_MORE (Email.smallest.wire.take 20),
    .send SIGN_TX 2 P2_LAST (Email.smallest.wire.drop 20)]

theorem choice_not_mem_smallestSession {confirm : Bool} {out : Outcomes} :
    .choice confirm out ∉ smallestSession := by
  simp [smallestSession, Input.send]

/-- The review of the smallest email shows what its two chunks carry together. -/
theorem smallest_review_reassembles :
    ∃ before start after data, smallestSession = before ++ start :: after ∧ start.request = .start false data ∧
      (∀ j ∈ after, j.request.resets = false) ∧
      ((app .sample).run smallestSession).G_context.payload =
        (acceptedChunks .sample ((app .sample).run (before ++ [start])) after).flatten ∧
      ∃ e, ((app .sample).run smallestSession).G_context.Hashed .sample e ∧ Email.smallest.pairs = e.pairs :=
  review_reassembles .sample (smallestSession.take 2) (.send SIGN_TX 2 P2_LAST (Email.smallest.wire.drop 20))
    (by decide +kernel)

/-- The payload received since the context was reset begins with that of an email. -/
def Completed (s : AppState) : Prop := ∃ (e : Email) (rest : List UInt8), s.G_context.payload = e.wire ++ rest

/-- The session that opens an email review has received the payload of that email. -/
theorem OpensEmail.completed {e : Email} (h : OpensEmail sdk s i s' e) : Completed s' :=
  ⟨e, [], by rw [h.hashed.payload_eq, List.append_nil]⟩

/-- A completed session stays completed until the context is reset. -/
theorem Completed.step (h : Completed s) (hdoes : Does sdk s i s' events) (hkeeps : i.request.resets = false) :
    Completed s' := by
  obtain ⟨e, rest, hpayload⟩ := h
  refine ⟨e, rest ++ acceptedData s.G_context i.request, ?_⟩
  rw [(hdoes.continues hkeeps).payload_eq, hpayload, List.append_assoc]

/-- No payload of an email goes on to be that of another one, so a completed session
completes no more. -/
theorem Completed.append_ne_wire (h : Completed s) {chunk : List UInt8} (hchunk : chunk ≠ []) (e : Email) :
    s.G_context.payload ++ chunk ≠ e.wire := by
  intro hwire
  obtain ⟨e', rest, hpayload⟩ := h
  rw [hpayload, List.append_assoc] at hwire
  obtain ⟨-, hnothing⟩ := Email.eq_of_wire_append hwire
  exact hchunk (List.append_eq_nil_iff.mp hnothing).2

/-- A completed session opens no further review. -/
theorem Completed.not_opensEmail (h : Completed s) {e : Email} : ¬ OpensEmail sdk s i s' e := by
  intro hopens
  obtain ⟨chunk, hchunk, happend⟩ := hopens.completes
  exact h.append_ne_wire hchunk e (happend.symm.trans hopens.hashed.payload_eq)

/-- Where no email review is among the events, none is counted. -/
theorem countP_opensEmail_eq_zero (hnone : ∀ pairs, .review (.email pairs) ∉ events) :
    events.countP Event.opensEmail = 0 := by
  rw [List.countP_eq_zero]
  intro event hevent
  cases event with
  | review review =>
    cases review with
    | email pairs => exact absurd hevent (hnone pairs)
    | address address => exact Bool.false_ne_true
  | _ => exact Bool.false_ne_true

/-- One review per session. As long as nothing resets the context, at most one email
review opens. -/
theorem one_review_per_session (sdk : Sdk) (h k : List Input) (hkeeps : ∀ j ∈ k, j.request.resets = false) :
    ((app sdk).emits ((app sdk).run h) k).countP Event.opensEmail ≤ 1 := by
  apply Machine.emits_countP_le_one (A := fun i => i.request.resets = false) (D := Completed)
  · intro s i _
    by_cases hreview : ∃ pairs, .review (.email pairs) ∈ (step sdk s i).2
    · obtain ⟨pairs, hreview⟩ := hreview
      obtain ⟨e, -, hevents, hopens⟩ := (step_does sdk s i).opens_email hreview
      refine ⟨?_, fun _ => hopens.completed⟩
      change (step sdk s i).2.countP Event.opensEmail ≤ 1
      rw [hevents]
      exact Nat.le_refl 1
    · have hzero := countP_opensEmail_eq_zero (not_exists.mp hreview)
      exact ⟨Nat.le_trans (Nat.le_of_eq hzero) (Nat.zero_le 1), fun hne => absurd hzero hne⟩
  · intro s i hi hdone
    refine ⟨countP_opensEmail_eq_zero fun pairs hreview => ?_, hdone.step (step_does sdk s i) hi⟩
    obtain ⟨e, -, -, hopens⟩ := (step_does sdk s i).opens_email hreview
    exact hdone.not_opensEmail hopens
  · exact hkeeps

/-- The chunks of `smallestSession` open its review, and the chunk that repeats the
payload does not open another one. -/
theorem smallest_one_review :
    ((app .sample).emits ((app .sample).run (smallestSession.take 1))
      (smallestSession.drop 1 ++ [.send SIGN_TX 1 P2_LAST Email.smallest.wire])).countP Event.opensEmail ≤ 1 :=
  one_review_per_session .sample _ _ (by decide +kernel)

end hardmail
