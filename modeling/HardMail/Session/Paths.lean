import HardMail.Session.Answers
import HardMail.Session.Signing

open memory codec machine

namespace hardmail

variable {sdk : Sdk} {s s' : AppState} {i : Input} {events : List Event} {m : Monitor} {session : Session}
  {path : CArray UInt32 MAX_BIP32_PATH} {path_len : UInt8}

/-- A path, as handed to the key derivation, of a valid length and with the words the
data of a command carried. -/
structure UsesPath (data : List UInt8) (path : CArray UInt32 MAX_BIP32_PATH) (path_len : UInt8) : Prop where
  pos : 1 ≤ path_len.toNat
  bounded : path_len.toNat ≤ MAX_BIP32_PATH
  words_eq : pathOf data = some (path.toList.take path_len.toNat)

/-- A context that holds a well-formed path hands that path to the calls. -/
theorem HoldsPath.usesPath {G : GlobalCtx} {data : List UInt8} {words : List UInt32} (h : HoldsPath words G)
    (hpath : pathOf data = some words) : UsesPath data G.bip32_path G.bip32_path_len := by
  obtain ⟨hpos, hbounded⟩ := pathOf_length hpath
  refine ⟨?_, ?_, ?_⟩
  · rw [h.path_len_eq]
    exact hpos
  · rw [h.path_len_eq]
    exact hbounded
  · rw [hpath, h.words_eq]

/-- A key is derived for a GET_PUBLIC_KEY only, with the path of that command. -/
theorem Does.derives (h : Does sdk s i s' events)
    (hderive : .bip32_derive_get_pubkey_256 path path_len ∈ events) :
    ∃ data display, i.request = .pubkey data display ∧ UsesPath data path path_len := by
  cases h.causes hderive with
  | derivation hrequest hpath hholds => exact ⟨_, _, hrequest, hholds.usesPath hpath⟩

/-- A GET_PUBLIC_KEY that carries a well-formed path is answered at once, or opens an
address review. -/
theorem Does.answers_pubkey (h : Does sdk s i s' events) {data : List UInt8} {display : Bool}
    (hrequest : i.request = .pubkey data display) (haccepted : i.accepted = true) :
    events.any Event.success = true ∨ ∃ text, .review (.address text) ∈ events ∧ s'.screen = some (.address text) := by
  cases h with
  | pubkey hpubkey hstep =>
    obtain ⟨hpath, hcalls⟩ := Input.accepted_pubkey hpubkey haccepted
    cases hstep with
    | malformed hbad hreset => exact absurd hbad hpath
    | failed g_address sw hwords hreset hholds hfail => exact absurd hfail hcalls
    | answered hwords hreset hholds hkey hdisplay => exact Or.inl rfl
    | shown g_address hwords hreset hholds hkey hdisplay => exact Or.inr ⟨_, by simp, rfl⟩
  | start hstart hstep =>
    rw [Input.request, hstart] at hrequest
    cases hrequest
  | chunk hchunk hdata hstep =>
    rw [Input.request, hchunk] at hrequest
    cases hrequest
  | other hother hcontext hscreen hevent =>
    rw [Input.request, hother] at hrequest
    cases hrequest
  | badLength => cases hrequest
  | choice hchoice => cases hrequest

/-- An accepted command carries a well-formed path, and is answered with success
unless it opens an address review. -/
theorem Does.accepts (h : Does sdk s i s' events) (haccepted : i.accepted = true) (session : Session) :
    (session.next i.request).path ≠ none ∧
      (events.any Event.success = true ∨
        (∃ data display, i.request = .pubkey data display) ∧ ∀ pairs, s'.screen ≠ some (.email pairs)) := by
  cases h with
  | start hrequest hstart =>
    have hpath := Input.accepted_start hrequest haccepted
    rw [Input.request, hrequest]
    refine ⟨hpath, Or.inl ?_⟩
    cases hstart with
    | malformed hbad hreset => exact absurd hbad hpath
    | accepted hwords hreset hholds => rfl
  | @pubkey cmd out data display s' events hrequest hpubkey =>
    have hanswers := (Does.pubkey hrequest hpubkey).answers_pubkey hrequest haccepted
    rw [Input.request, hrequest]
    refine ⟨(Input.accepted_pubkey hrequest haccepted).1, ?_⟩
    obtain hsuccess | ⟨text, -, hscreen⟩ := hanswers
    · exact Or.inl hsuccess
    · exact Or.inr ⟨⟨data, display, rfl⟩, by simp [hscreen]⟩
  | chunk hrequest hdata hchunk => simp [Input.accepted, hrequest] at haccepted
  | other hrequest hcontext hscreen hevent => simp [Input.accepted, hrequest] at haccepted
  | badLength => cases haccepted
  | choice hchoice => cases haccepted

/-- An accepted command that began the session of an email review was answered with
success. -/
structure Answers (m : Monitor) (s : AppState) : Prop where
  path_ne : m.accepted = true → m.session.path ≠ none
  signing : ∀ is_token_tx data, m.session = .signing is_token_tx data → m.accepted = true → m.answered = true
  email : ∀ pairs, s.screen = some (.email pairs) → m.accepted = true → m.answered = true

/-- No step lets an email review be open for an accepted command that was not answered with
success. -/
theorem Answers.step (h : Answers m s) (htracks : Tracks m.session s.G_context)
    (hdoes : Does sdk s i s' events) : Answers (monitor.next m i events) s' := by
  cases hresets : i.request.resets with
  | true =>
    have haccepts : (monitor.next m i events).accepted = true → _ := fun haccepted =>
      hdoes.accepts ((if_pos hresets).symm.trans haccepted) m.session
    refine ⟨fun haccepted => (haccepts haccepted).1, ?_, ?_⟩
    · intro is_token_tx data hsession haccepted
      obtain hsuccess | ⟨⟨data', display, hrequest⟩, -⟩ := (haccepts haccepted).2
      · exact (if_pos hresets).trans hsuccess
      · change m.session.next i.request = _ at hsession
        rw [hrequest] at hsession
        cases hsession
    · intro pairs hscreen haccepted
      obtain hsuccess | ⟨-, hnot⟩ := (haccepts haccepted).2
      · exact (if_pos hresets).trans hsuccess
      · exact absurd hscreen (hnot pairs)
  | false =>
    have hsame : (monitor.next m i events).session = m.session := Session.next_of_keeps _ hresets
    have haccepted : (monitor.next m i events).accepted = m.accepted := if_neg (Bool.eq_false_iff.mp hresets)
    have hanswered : (monitor.next m i events).answered = m.answered := if_neg (Bool.eq_false_iff.mp hresets)
    constructor
    · rw [hsame, haccepted]
      exact h.path_ne
    · rw [hsame, haccepted, hanswered]
      exact h.signing
    · rw [haccepted, hanswered]
      intro pairs hscreen
      obtain hopens | ⟨-, hscreen⟩ := hdoes.screen hscreen
      · -- an email review opens in a SIGN_TX session only
        obtain ⟨e, -, -, hemail⟩ := hdoes.opens_email hopens
        obtain ⟨data, hsession⟩ := Session.eq_signing (htracks.req_type_eq.symm.trans hemail.req_type_eq)
        exact h.signing false data hsession
      · exact h.email pairs hscreen

/-- Along every run, the accepted command that began the session of an email review was
answered with success. -/
theorem run_answers (sdk : Sdk) (h : List Input) : Answers ((app sdk).observe monitor h) ((app sdk).run h) := by
  have hinit : Answers monitor.init (app sdk).init := by
    refine ⟨?_, ?_, ?_⟩
    · rintro ⟨⟩
    · rintro _ _ ⟨⟩
    · rintro _ ⟨⟩
  have hrun := Machine.observed_invariant (M := app sdk) (O := monitor)
    (P := fun m s => Tracks m.session s.G_context ∧ Answers m s) ⟨tracks_init, hinit⟩
    (fun _ s i hinv => ⟨hinv.1.step (step_does sdk s i), hinv.2.step hinv.1 (step_does sdk s i)⟩) h
  exact hrun.2

/-- What becomes of the review that a command opens: no other review has opened since,
and it is still on the screen. -/
structure Pending (sdk : Sdk) (before : List Input) (i : Input) (between : List Input) (review : Review) : Prop where
  opened : .review review ∈ (step sdk ((app sdk).run before) i).2
  quiet : ((app sdk).emits ((app sdk).run (before ++ [i])) between).any Event.opens = false
  on_screen : ((app sdk).run (before ++ i :: between)).screen = some review

/-- How a command comes to be answered with success: at once, or by the approval of the
review it has opened, unless that review still waits at the end of the run. An approval
would then answer the command with success. -/
inductive AnsweredWithSuccess (sdk : Sdk) (before : List Input) (i : Input) (after : List Input) : Prop where
  | atOnce (hsuccess : (step sdk ((app sdk).run before) i).2.any Event.success = true)
  | approved {between later : List Input} {out : Outcomes} {review : Review}
    (hsplit : after = between ++ .choice true out :: later) (hpending : Pending sdk before i between review)
    (hsuccess : (step sdk ((app sdk).run (before ++ i :: between)) (.choice true out)).2.any Event.success = true)
  | waiting {review : Review} (hpending : Pending sdk before i after review)
    (hsuccess : ∀ out,
      (step sdk ((app sdk).run (before ++ i :: after)) (.choice true out)).2.any Event.success = true)

/-- Every path an input hands to the key derivation is valid, and was carried by a command
that is answered with success. For a public key that is the command itself. -/
structure DerivesValidPaths (sdk : Sdk) (before : List Input) (i : Input) (after : List Input) : Prop where
  pubkey : ∀ path path_len,
    .bip32_derive_get_pubkey_256 path path_len ∈ (step sdk ((app sdk).run before) i).2 →
    ∃ data display, i.request = .pubkey data display ∧ UsesPath data path path_len ∧
      AnsweredWithSuccess sdk before i after
  sign : ∀ path path_len hash,
    .bip32_derive_eddsa_sign_hash_256 path path_len hash ∈ (step sdk ((app sdk).run before) i).2 →
    ∃ earlier start later data, before = earlier ++ start :: later ∧
      ((∃ is_token_tx, start.request = .start is_token_tx data) ∨ ∃ display, start.request = .pubkey data display) ∧
      (step sdk ((app sdk).run earlier) start).2.any Event.success = true ∧ UsesPath data path path_len

/-- What an input must not do for the paths of a run to be valid. -/
structure KeepsPaths (m : Monitor) (s : AppState) (i : Input) : Prop where
  /-- an email review is approved only when the last command that reset the context was accepted -/
  approval : ApprovesEmail s i → m.accepted = true
  /-- no call fails for a GET_PUBLIC_KEY whose path is well formed -/
  calls_ok : ∀ data display, i.request = .pubkey data display → pathOf data ≠ none → i.accepted = true
  /-- no other address review takes the place of one that waits for its answer -/
  no_address : ∀ text data, s.screen = some (.address text) → i.request = .pubkey data true → pathOf data = none
  /-- no email review takes the place of an address review that waits for its answer -/
  no_email : ∀ text cmd out chunk (e : Email), s.screen = some (.address text) → i = .apdu cmd out →
    cmd.request = .chunk false false chunk → s.G_context.req_type = .CONFIRM_TRANSACTION →
    s.G_context.tx_info.raw_tx_len + chunk.length ≤ MAX_TRANSACTION_LEN →
    s.G_context.payload ++ chunk = e.wire → out.hash ≠ none
  /-- no address review is rejected -/
  no_rejection : ∀ text out, s.screen = some (.address text) → i ≠ .choice false out

/-- An address review that waits is not replaced. -/
theorem Does.not_opens (h : Does sdk s i s' events) (hkeeps : KeepsPaths m s i) {text : List UInt8}
    (hscreen : s.screen = some (.address text)) (review : Review) : .review review ∉ events := by
  intro hreview
  cases h with
  | start hrequest hstart =>
    cases hstart with
    | malformed hpath hreset => simp at hreview
    | accepted hpath hreset hholds => simp at hreview
  | pubkey hrequest hpubkey =>
    cases hpubkey with
    | malformed hpath hreset => simp at hreview
    | failed g_address sw hpath hreset hholds hfail => simp [hardmail.derivation] at hreview
    | answered hpath hreset hholds hkey hdisplay => simp [hardmail.derivation] at hreview
    | shown g_address hpath hreset hholds hkey hdisplay =>
      subst hdisplay
      have hnone := hkeeps.no_address text _ hscreen hrequest
      rw [hpath] at hnone
      cases hnone
  | chunk hrequest hdata hchunk =>
    cases hchunk with
    | shown display hreq happends hmore hwire hhash htoken =>
      subst hmore htoken
      exact hkeeps.no_email text _ _ _ _ hscreen rfl hrequest hreq happends.room
        (happends.payload_eq.symm.trans hwire) hhash
    | _ => simp at hreview
  | other hrequest hcontext hsame hevent =>
    obtain ⟨sw, rfl⟩ | ⟨resp, rfl⟩ := hevent
    · simp at hreview
    · simp at hreview
  | badLength => simp at hreview
  | choice hchoice =>
    cases hchoice with
    | idle hidle => cases hreview
    | _ => simp [hardmail.signing] at hreview

/-- An address review that waits is approved, or waits on. -/
theorem Does.waits (h : Does sdk s i s' events) (hkeeps : KeepsPaths m s i) {text : List UInt8}
    (hscreen : s.screen = some (.address text)) :
    (∃ out, i = .choice true out) ∨ (s'.screen = some (.address text) ∧ events.any Event.opens = false) := by
  have hquiet : events.any Event.opens = false := by
    rw [List.any_eq_false]
    intro event hevent
    cases event with
    | review review => exact absurd hevent (h.not_opens hkeeps hscreen review)
    | _ => exact Bool.false_ne_true
  cases i with
  | choice confirm out =>
    cases confirm with
    | true => exact Or.inl ⟨out, rfl⟩
    | false => exact absurd rfl (hkeeps.no_rejection text out hscreen)
  | _ =>
    right
    refine ⟨?_, hquiet⟩
    cases h.answers_apdu rfl with
    | atOnce response hresponses hreviews hsame => rw [hsame, hscreen]
    | deferred review hresponses hreviews hshown =>
      obtain ⟨event, hmem, hopened⟩ := List.mem_filterMap.mp (hreviews ▸ List.mem_singleton_self review)
      cases event with
      | review shown => exact absurd hmem (h.not_opens hkeeps hscreen shown)
      | _ => cases hopened

/-- The approval of an address review is answered with success. -/
theorem approval_succeeds (sdk : Sdk) {text : List UInt8} (hscreen : s.screen = some (.address text))
    (out : Outcomes) : (step sdk s (.choice true out)).2.any Event.success = true := by
  simp only [step, review_choice, hscreen, validate_pubkey, if_true, helper_send_response_pubkey]
  rfl

/-- The review of a command waits on through every input of a run that keeps paths valid,
but for its approval. -/
theorem Pending.concat {before between : List Input} {j : Input} {text : List UInt8}
    (h : Pending sdk before i between (.address text))
    (hkeeps : KeepsPaths m ((app sdk).run (before ++ i :: between)) j) :
    (∃ out, j = .choice true out) ∨ Pending sdk before i (between ++ [j]) (.address text) := by
  have hsplit : before ++ i :: (between ++ [j]) = before ++ i :: between ++ [j] := by simp
  have hrun : (app sdk).runFrom ((app sdk).run (before ++ [i])) between = (app sdk).run (before ++ i :: between) := by
    rw [← Machine.run_append, List.append_assoc, List.singleton_append]
  obtain hends | ⟨hscreen, hquiet⟩ := (step_does sdk _ j).waits hkeeps h.on_screen
  · exact Or.inl hends
  · refine Or.inr ⟨h.opened, ?_, ?_⟩
    · rw [Machine.emits_append, List.any_append, h.quiet, hrun, Machine.emits, Machine.emits, List.append_nil,
        Bool.false_or]
      exact hquiet
    · rw [hsplit, Machine.run_concat]
      exact hscreen

/-- In a run that keeps paths valid, a GET_PUBLIC_KEY for which no call fails is answered
with success. -/
theorem answered_with_success (sdk : Sdk) {before after : List Input} {i : Input} {data : List UInt8} {display : Bool}
    (hsteps : (app sdk).EveryStep monitor KeepsPaths (before ++ i :: after))
    (hrequest : i.request = .pubkey data display) (haccepted : i.accepted = true) :
    AnsweredWithSuccess sdk before i after := by
  obtain hsuccess | ⟨text, hreview, hscreen⟩ :=
    (step_does sdk ((app sdk).run before) i).answers_pubkey hrequest haccepted
  · exact .atOnce hsuccess
  have hopened : Pending sdk before i [] (.address text) := by
    refine ⟨hreview, rfl, ?_⟩
    rw [Machine.run_concat]
    exact hscreen
  obtain ⟨between, j, later, hsplit, hpending, out, rfl⟩ | hpending :=
    Machine.kept_until (P := fun between => Pending sdk before i between (.address text))
      (E := fun _ j => ∃ out, j = Input.choice true out) (k := after) hopened
      fun between j later heq hpending => hpending.concat (hsteps (before ++ i :: between) j later (by simp [heq]))
  · exact .approved hsplit hpending (approval_succeeds sdk hpending.on_screen out)
  · exact .waiting hpending fun out => approval_succeeds sdk hpending.on_screen out

/-- What an approved email review signs with is the path of a command that was answered
with success, when the last command that reset the context was accepted. -/
theorem signs_with_valid_path (sdk : Sdk) (before : List Input) {hash : CArray UInt8 32}
    (hcond : ApprovesEmail ((app sdk).run before) i → ((app sdk).observe monitor before).accepted = true)
    (hsign : .bip32_derive_eddsa_sign_hash_256 path path_len hash ∈ (step sdk ((app sdk).run before) i).2) :
    ∃ earlier start later data, before = earlier ++ start :: later ∧
      ((∃ is_token_tx, start.request = .start is_token_tx data) ∨ ∃ display, start.request = .pubkey data display) ∧
      (step sdk ((app sdk).run earlier) start).2.any Event.success = true ∧ UsesPath data path path_len := by
  obtain ⟨happroves, rfl, rfl, -⟩ := (step_does sdk _ i).signs hsign
  have haccepted := hcond happroves
  have hanswers := run_answers sdk before
  obtain ⟨words, hwords⟩ := Option.ne_none_iff_exists'.mp (hanswers.path_ne haccepted)
  have hbegun : ((app sdk).observe monitor before).session ≠ .none := by
    intro hnone
    rw [hnone] at hwords
    cases hwords
  obtain ⟨earlier, start, later, hsplit, hresets, -, hnext, hanswered⟩ := session_history sdk before hbegun
  obtain ⟨out, pairs, -, hscreen⟩ := happroves
  have hsuccess := hanswered.symm.trans (hanswers.email pairs hscreen haccepted)
  have hholds := (run_tracks sdk before).holds_path words hwords
  rw [hnext] at hwords
  refine ⟨earlier, start, later, ?_⟩
  cases hrequest : start.request with
  | pubkey data display =>
    rw [hrequest] at hwords
    exact ⟨data, hsplit, Or.inr ⟨display, rfl⟩, hsuccess, hholds.usesPath hwords⟩
  | start is_token_tx data =>
    rw [hrequest] at hwords
    exact ⟨data, hsplit, Or.inl ⟨is_token_tx, rfl⟩, hsuccess, hholds.usesPath hwords⟩
  | chunk is_token_tx more data =>
    rw [hrequest] at hresets
    cases hresets
  | other =>
    rw [hrequest] at hresets
    cases hresets

/-- Derivation paths are valid, and those of commands that are answered with success,
along every run that keeps them so. -/
theorem run_derives_valid_paths (sdk : Sdk) {h : List Input} (hsteps : (app sdk).EveryStep monitor KeepsPaths h)
    (before : List Input) (i : Input) (after : List Input) (heq : h = before ++ i :: after) :
    DerivesValidPaths sdk before i after := by
  have hkeeps := hsteps before i after heq
  subst heq
  refine ⟨fun path path_len hderive => ?_, fun path path_len hash hsign => ?_⟩
  · obtain ⟨data, display, hrequest, huses⟩ := (step_does sdk _ i).derives hderive
    have hpath : pathOf data ≠ none := by
      rw [huses.words_eq]
      exact Option.some_ne_none _
    have haccepted := hkeeps.calls_ok data display hrequest hpath
    exact ⟨data, display, hrequest, huses, answered_with_success sdk hsteps hrequest haccepted⟩
  · exact signs_with_valid_path sdk before hkeeps.approval hsign

/-- A command sent with nothing on the screen keeps paths valid, as all its calls succeed. -/
theorem KeepsPaths.send {ins p1 p2 : UInt8} {data : List UInt8} {lc_lt : data.length < 256}
    (hscreen : s.screen = none) : KeepsPaths m s (.send ins p1 p2 data lc_lt) := by
  have hnot : ∀ text, s.screen ≠ some (.address text) := by simp [hscreen]
  refine ⟨?_, ?_, fun text _ h => absurd h (hnot text), fun text _ _ _ _ h => absurd h (hnot text),
    fun text _ h => absurd h (hnot text)⟩
  · rintro ⟨out, pairs, happroves, -⟩
    cases happroves
  · intro data' display hrequest hpath
    simp only [Input.send, Input.request] at hrequest
    simp [Input.send, Input.accepted, hrequest, Outcomes.success, Option.isSome_iff_ne_none, hpath]

/-- An approval keeps paths valid, when the last command that reset the context was
accepted. -/
theorem KeepsPaths.approve {out : Outcomes} (haccepted : m.accepted = true) : KeepsPaths m s (.choice true out) := by
  refine ⟨fun _ => haccepted, ?_, ?_, ?_, ?_⟩
  · rintro _ _ ⟨⟩
  · rintro _ _ _ ⟨⟩
  · rintro _ _ _ _ _ _ ⟨⟩
  · rintro _ _ _ ⟨⟩

/-- A key is verified, and the smallest email signed under another path. -/
def verifiedAndSigned : List Input :=
  [.send GET_PUBLIC_KEY 1 0 [2, 0, 0, 0, 5, 0, 0, 0, 2], .choice true .success] ++ smallestSession ++
    [.choice true .success]

theorem verifiedAndSigned_keepsPaths : (app .sample).EveryStep monitor KeepsPaths verifiedAndSigned := by
  have hempty : (app .sample).EveryStep monitor KeepsPaths [] := .nil
  have hrequested := hempty.concat (i := .send GET_PUBLIC_KEY 1 0 [2, 0, 0, 0, 5, 0, 0, 0, 2]) (.send rfl)
  have hverified := hrequested.concat (i := .choice true .success) (.approve (by decide +kernel))
  exact (((hverified.concat (.send (by decide +kernel))).concat (.send (by decide +kernel))).concat
    (.send (by decide +kernel))).concat (.approve (by decide +kernel))

/-- The key and the signature of that run are made with the paths that were sent for them. -/
theorem verified_and_signed_derives_valid_paths :
    DerivesValidPaths .sample [] (.send GET_PUBLIC_KEY 1 0 [2, 0, 0, 0, 5, 0, 0, 0, 2]) (verifiedAndSigned.drop 1) ∧
      DerivesValidPaths .sample (verifiedAndSigned.take 5) (.choice true .success) [] :=
  ⟨run_derives_valid_paths .sample verifiedAndSigned_keepsPaths [] _ _ rfl,
    run_derives_valid_paths .sample verifiedAndSigned_keepsPaths (verifiedAndSigned.take 5) _ [] rfl⟩

/-- A session whose chunk 0 carries a path without words, and is refused. -/
def refusedSession : List Input :=
  [.send SIGN_TX 0 P2_MORE [0], .send SIGN_TX 1 P2_LAST Email.smallest.wire]

/-- The email of a refused session is shown, and its approval signs with an empty
path. -/
theorem refused_not_valid_path :
    (step .sample ((app .sample).run []) (.send SIGN_TX 0 P2_MORE [0])).2 = [.io_send_sw SWO_WRONG_DATA_LENGTH] ∧
      ¬ DerivesValidPaths .sample refusedSession (.choice true .success) [] := by
  refine ⟨by decide +kernel, fun hvalid => ?_⟩
  obtain ⟨_, _, _, _, -, -, -, hpath⟩ := hvalid.sign ((app .sample).run refusedSession).G_context.bip32_path
    ((app .sample).run refusedSession).G_context.bip32_path_len
    ((app .sample).run refusedSession).G_context.tx_info.m_hash (by decide +kernel)
  have hpos := hpath.pos
  revert hpos
  decide +kernel

end hardmail
