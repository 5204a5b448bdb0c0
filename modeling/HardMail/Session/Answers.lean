import HardMail.Session.Review

open memory codec machine

namespace hardmail

variable {sdk : Sdk} {s s' : AppState} {i : Input} {events : List Event}

/-- The status word and the data of an event that is a response. -/
def Event.response : Event → Option (UInt16 × List UInt8)
  | .io_send_sw sw => some (sw, [])
  | .helper_send_response_pubkey resp sw => some (sw, resp)
  | .helper_send_response_sig resp sw => some (sw, resp)
  | .send_info resp sw => some (sw, resp)
  | .review _ => none
  | .bip32_derive_get_pubkey_256 _ _ => none
  | .bip32_derive_eddsa_sign_hash_256 _ _ _ => none

def Event.opened : Event → Option Review
  | .review shown => some shown
  | _ => none

def responses (events : List Event) : List (UInt16 × List UInt8) := events.filterMap Event.response

def reviews (events : List Event) : List Review := events.filterMap Event.opened

def Input.isApdu : Input → Bool
  | .apdu _ _ => true
  | .badLength => true
  | .choice _ _ => false

/-- What host and user can see of their exchange with the device: whether an APDU waits
for its response, and whether a review waits for its answer. -/
structure Exchange where
  awaiting : Bool
  reviewing : Bool
  deriving DecidableEq

def exchange : Observer Input Event Exchange where
  init := ⟨false, false⟩
  next m i events :=
    { awaiting := (m.awaiting || i.isApdu) && (responses events).isEmpty
      reviewing := !(reviews events).isEmpty || (m.reviewing && i.isApdu) }

/-- The host sends an APDU only after the one before has been answered, and the user
answers only a review that is open. -/
def Lockstep (m : Exchange) (_ : AppState) (i : Input) : Prop :=
  (if i.isApdu then !m.awaiting else m.reviewing) = true

instance (m : Exchange) (s : AppState) (i : Input) : Decidable (Lockstep m s i) :=
  inferInstanceAs (Decidable (_ = true))

/-- How a step answers the APDU it belongs to: with one response, or by opening one
review that is to be answered first. -/
inductive AnswerStep (s' : AppState) (screen : Option Review) (events : List Event) : Prop where
  | atOnce (response : UInt16 × List UInt8) (hresponses : responses events = [response])
    (hreviews : reviews events = []) (hscreen : s'.screen = screen)
  | deferred (review : Review) (hresponses : responses events = []) (hreviews : reviews events = [review])
    (hscreen : s'.screen = some review)

/-- Every APDU is answered by its step, or by the answer to the review it opens. -/
theorem Does.answers_apdu (h : Does sdk s i s' events) (hapdu : i.isApdu = true) :
    AnswerStep s' s.screen events := by
  cases h with
  | start hrequest hstart =>
    cases hstart with
    | malformed hpath hreset => exact .atOnce _ rfl rfl rfl
    | accepted hpath hreset hholds => exact .atOnce _ rfl rfl rfl
  | pubkey hrequest hpubkey =>
    cases hpubkey with
    | malformed hpath hreset => exact .atOnce _ rfl rfl rfl
    | failed g_address sw hpath hreset hholds hfail => exact .atOnce _ rfl rfl rfl
    | answered hpath hreset hholds hkey hdisplay => exact .atOnce _ rfl rfl rfl
    | shown g_address hpath hreset hholds hkey hdisplay => exact .deferred _ rfl rfl rfl
  | chunk hrequest hdata hchunk =>
    cases hchunk with
    | shown display hreq happends hmore hwire hhash htoken => exact .deferred _ rfl rfl rfl
    | _ => exact .atOnce _ rfl rfl rfl
  | other hrequest hcontext hscreen hevent =>
    obtain ⟨sw, rfl⟩ | ⟨resp, rfl⟩ := hevent
    · exact .atOnce _ rfl rfl hscreen
    · exact .atOnce _ rfl rfl hscreen
  | badLength => exact .atOnce _ rfl rfl rfl
  | choice hchoice => cases hapdu

/-- The answer to a review sends one response. -/
theorem Does.answers_choice (h : Does sdk s i s' events) (hchoice : i.isApdu = false) (hscreen : s.screen ≠ none) :
    ∃ response, responses events = [response] ∧ reviews events = [] ∧ s'.screen = none := by
  cases h with
  | choice hanswer =>
    cases hanswer with
    | idle hidle => exact absurd hidle hscreen
    | _ => exact ⟨_, rfl, rfl, rfl⟩
  | _ => cases hchoice

/-- A step that responds with data hands over the status of success with them. -/
theorem Does.data_eq_nil (h : Does sdk s i s' events) :
    ∀ response ∈ responses events, response.1 ≠ SWO_SUCCESS → response.2 = [] := by
  intro response hresponse hfail
  obtain ⟨event, hmem, hevent⟩ := List.mem_filterMap.mp hresponse
  cases h.causes hmem with
  | io_send_sw sw =>
    cases hevent
    rfl
  | send_info resp =>
    cases hevent
    exact absurd rfl hfail
  | pubkey hrequest hpath hkey =>
    cases hevent
    exact absurd rfl hfail
  | verified happroves =>
    cases hevent
    exact absurd rfl hfail
  | signature happroves =>
    cases hevent
    exact absurd rfl hfail
  | email_review hevents hopens => cases hevent
  | address_review hrequest hpath hkey => cases hevent
  | derivation hrequest hpath hholds => cases hevent
  | signing happroves => cases hevent

/-- The answer to a rejected review is a status word without data. -/
theorem ChoiceStep.rejects {out : Outcomes} (h : ChoiceStep sdk out s false s' events) :
    ∀ response ∈ responses events, response.2 = [] := by
  cases h with
  | idle hscreen => simp [responses]
  | rejected hscreen hconfirm => simp [responses, Event.response]
  | unsigned signature hscreen hconfirm hsign => cases hconfirm
  | signed hscreen hconfirm hsign hraw hlen htx hhash => cases hconfirm
  | verified hscreen hconfirm => cases hconfirm
  | unverified hscreen hconfirm => simp [responses, Event.response]

/-- While an APDU waits for its response the host sends no other. -/
theorem Lockstep.not_apdu {m : Exchange} {j : Input} (hlock : Lockstep (exchange.next m i events) s j)
    (hapdu : i.isApdu = true) (hresponses : responses events = []) : j.isApdu = false := by
  cases hj : j.isApdu with
  | false => rfl
  | true =>
    simp only [Lockstep, hj, if_true, Bool.not_eq_true'] at hlock
    change ((m.awaiting || i.isApdu) && (responses events).isEmpty) = false at hlock
    rw [hresponses, hapdu, Bool.or_true] at hlock
    cases hlock

/-- In lockstep an APDU waits for its response exactly while a review is open. -/
def Waits (m : Exchange) (s : AppState) : Prop := m = ⟨s.screen.isSome, s.screen.isSome⟩

/-- In lockstep a command is awaited exactly as long as its review is on the screen. -/
theorem Waits.step {m : Exchange} (h : Waits m s) (hlock : Lockstep m s i) (hdoes : Does sdk s i s' events) :
    Waits (exchange.next m i events) s' := by
  subst h
  cases hapdu : i.isApdu with
  | true =>
    simp only [Lockstep, hapdu, if_true, Bool.not_eq_true', Option.isSome_eq_false_iff,
      Option.isNone_iff_eq_none] at hlock
    cases hdoes.answers_apdu hapdu with
    | atOnce response hresponses hreviews hscreen =>
      simp [Waits, exchange, hresponses, hreviews, hscreen, hlock]
    | deferred review hresponses hreviews hscreen =>
      simp [Waits, exchange, hresponses, hreviews, hscreen, hapdu]
  | false =>
    simp only [Lockstep, hapdu, Bool.false_eq_true, if_false, Option.isSome_iff_ne_none] at hlock
    obtain ⟨response, hresponses, hreviews, hscreen⟩ := hdoes.answers_choice hapdu hlock
    simp [Waits, exchange, hresponses, hreviews, hscreen, hapdu]

/-- Along every lockstep run, what is awaited is the answer to the review on the screen. -/
theorem run_waits (sdk : Sdk) {h : List Input} (hsteps : (app sdk).EveryStep exchange Lockstep h) :
    Waits ((app sdk).observe exchange h) ((app sdk).run h) :=
  hsteps.invariant rfl fun _ s i hwaits hlock => hwaits.step hlock (step_does sdk s i)

/-- What a step of the device does, and how it goes on: an APDU gets one response and
opens no review, or gets none and opens one review, whose answer is the next input and
sends one response. Only success carries data, only the approval of an email review
releases a signature, and a rejection carries no data at all. -/
structure AnsweredOnce (sdk : Sdk) (s : AppState) (i : Input) (next : Option Input) : Prop where
  apdu : i.isApdu = true →
    (responses (step sdk s i).2).length = 1 ∧ reviews (step sdk s i).2 = [] ∨
      responses (step sdk s i).2 = [] ∧ (reviews (step sdk s i).2).length = 1 ∧
        (∀ j, next = some j → j.isApdu = false) ∧
        ∀ confirm out, (responses (step sdk (step sdk s i).1 (.choice confirm out)).2).length = 1
  choice : i.isApdu = false → (responses (step sdk s i).2).length = 1 ∧ reviews (step sdk s i).2 = []
  no_data : ∀ response ∈ responses (step sdk s i).2, response.1 ≠ SWO_SUCCESS → response.2 = []
  signature : ∀ resp sw, .helper_send_response_sig resp sw ∈ (step sdk s i).2 → ApprovesEmail s i
  rejected : ∀ out, i = .choice false out → ∀ response ∈ responses (step sdk s i).2, response.2 = []

/-- Exactly one answer per command, along every run in lockstep. -/
theorem run_answers_once (sdk : Sdk) {h : List Input} (hsteps : (app sdk).EveryStep exchange Lockstep h)
    (before : List Input) (i : Input) (after : List Input) (heq : h = before ++ i :: after) :
    AnsweredOnce sdk ((app sdk).run before) i after.head? := by
  have hdoes := step_does sdk ((app sdk).run before) i
  have hbefore : (app sdk).EveryStep exchange Lockstep before := (heq ▸ hsteps).of_append
  have hwaits := run_waits sdk hbefore
  refine ⟨?_, ?_, ?_, ?_, ?_⟩
  · intro hapdu
    cases hdoes.answers_apdu hapdu with
    | atOnce response hresponses hreviews hscreen =>
      left
      exact ⟨by rw [hresponses, List.length_singleton], hreviews⟩
    | deferred review hresponses hreviews hscreen =>
      right
      refine ⟨hresponses, by rw [hreviews, List.length_singleton], ?_, ?_⟩
      · intro j hnext
        obtain ⟨rest, rfl⟩ := List.head?_eq_some_iff.mp hnext
        have hlock := hsteps (before ++ [i]) j rest (by rw [heq, List.append_assoc, List.singleton_append])
        rw [Machine.observe_concat] at hlock
        exact hlock.not_apdu hapdu hresponses
      · intro confirm out
        obtain ⟨response, hone, -⟩ := (step_does sdk (step sdk ((app sdk).run before) i).1
          (.choice confirm out)).answers_choice rfl (by simp [hscreen])
        rw [hone, List.length_singleton]
  · intro hchoice
    have hlock := hsteps before i after heq
    rw [hwaits] at hlock
    simp only [Lockstep, hchoice, Bool.false_eq_true, if_false, Option.isSome_iff_ne_none] at hlock
    obtain ⟨response, hone, hnone, -⟩ := hdoes.answers_choice hchoice hlock
    exact ⟨by rw [hone, List.length_singleton], hnone⟩
  · exact hdoes.data_eq_nil
  · intro resp sw hsig
    cases hdoes.causes hsig with
    | signature happroves => exact happroves
  · rintro out rfl
    exact (review_choice_step sdk _ false out).rejects

/-- The session of the smallest email, approved, is in lockstep. -/
theorem smallest_answers_once :
    AnsweredOnce .sample ((app .sample).run (smallestSession.take 2))
      (.send SIGN_TX 2 P2_LAST (Email.smallest.wire.drop 20)) (some (.choice true .success)) := by
  refine run_answers_once .sample (h := smallestSession ++ [.choice true .success]) ?_ (smallestSession.take 2)
    (.send SIGN_TX 2 P2_LAST (Email.smallest.wire.drop 20)) [.choice true .success] rfl
  have hsession : (app .sample).EveryStep exchange Lockstep smallestSession :=
    ((Machine.EveryStep.nil.concat (by decide +kernel)).concat (by decide +kernel)).concat (by decide +kernel)
  exact hsession.concat (by decide +kernel)

end hardmail
