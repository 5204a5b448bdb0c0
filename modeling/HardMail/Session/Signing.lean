import HardMail.Session.Review

open memory codec machine

namespace hardmail

variable {sdk : Sdk} {s s' : AppState} {i : Input} {events : List Event} {m : Monitor}
  {pairs : List (String × List UInt8)}

/-- Nothing but an approved email review makes the signer sign, and what it signs is
the hash in the context. -/
theorem Does.signs {path : CArray UInt32 MAX_BIP32_PATH} {path_len : UInt8} {hash : CArray UInt8 32}
    (h : Does sdk s i s' events) (hsign : .bip32_derive_eddsa_sign_hash_256 path path_len hash ∈ events) :
    ApprovesEmail s i ∧ path = s.G_context.bip32_path ∧ path_len = s.G_context.bip32_path_len ∧
      hash = s.G_context.tx_info.m_hash := by
  cases h.causes hsign with
  | signing happroves => exact ⟨happroves, rfl, rfl, rfl⟩

/-- Nothing but a reset changes the hash of a completed payload. -/
theorem Completed.m_hash_eq (h : Completed s) (hdoes : Does sdk s i s' events)
    (hkeeps : i.request.resets = false) : s'.G_context.tx_info.m_hash = s.G_context.tx_info.m_hash :=
  (hdoes.continues hkeeps).m_hash_eq h.append_ne_wire

/-- The context still belongs to the session that opened the review of an email, and
holds the hash of that email. -/
structure Shows (sdk : Sdk) (m : Monitor) (s : AppState) (e : Email) : Prop where
  opened_eq : m.opened = m.session
  payload_eq : ∃ rest, s.G_context.payload = e.wire ++ rest
  m_hash_eq : s.G_context.tx_info.m_hash = sdk.cx_hash_sha256 e.wire

/-- An email review that has not been overtaken shows the email of the context. -/
def Binds (sdk : Sdk) (m : Monitor) (s : AppState) : Prop :=
  ∀ pairs, s.screen = some (.email pairs) → m.overtaken = false → ∃ e : Email, pairs = e.pairs ∧ Shows sdk m s e

/-- No step makes a review that is not overtaken show another email than that of the context. -/
theorem Binds.step (h : Binds sdk m s) (hdoes : Does sdk s i s' events) :
    Binds sdk (monitor.next m i events) s' := by
  intro pairs hscreen hfresh
  obtain hopens | ⟨hquiet, hscreen⟩ := hdoes.screen hscreen
  · obtain ⟨e, rfl, -, hemail⟩ := hdoes.opens_email hopens
    refine ⟨e, rfl, if_pos (any_opens hopens), ⟨[], ?_⟩, ?_⟩
    · rw [hemail.hashed.payload_eq, List.append_nil]
    · rw [hemail.hashed.m_hash_eq, hemail.hashed.payload_eq]
  · obtain ⟨hbefore, hkeeps⟩ := overtaken_eq_false hquiet hfresh
    obtain ⟨e, rfl, hopened, ⟨rest, hpayload⟩, hhash⟩ := h pairs hscreen hbefore
    refine ⟨e, rfl, ?_, ⟨rest ++ acceptedData s.G_context i.request, ?_⟩, ?_⟩
    · simp only [monitor, hquiet, Bool.false_eq_true, if_false, Session.next_of_keeps _ hkeeps, hopened]
    · rw [(hdoes.continues hkeeps).payload_eq, hpayload, List.append_assoc]
    · rw [Completed.m_hash_eq ⟨e, rest, hpayload⟩ hdoes hkeeps, hhash]

/-- Along every run, an email review that is not overtaken shows the email of the context. -/
theorem run_binds (sdk : Sdk) (h : List Input) : Binds sdk ((app sdk).observe monitor h) ((app sdk).run h) :=
  Machine.observed_invariant (M := app sdk) (O := monitor) (P := Binds sdk) (fun _ hscreen => by cases hscreen)
    (fun _ s i hbinds => hbinds.step (step_does sdk s i)) h

/-- A signature released by an input is one over the hash of the email shown in the
review on the screen, made with the path of the session that opened that review. -/
def SignedAsShown (sdk : Sdk) (h : List Input) (i : Input) : Prop :=
  ∀ resp sw, .helper_send_response_sig resp sw ∈ (step sdk ((app sdk).run h) i).2 →
    ∃ (e : Email) (before after : List Input) (opening : Input) (words : List UInt32),
      ((app sdk).run h).screen = some (.email e.pairs) ∧ h = before ++ opening :: after ∧
      .review (.email e.pairs) ∈ (step sdk ((app sdk).run before) opening).2 ∧
      ((app sdk).emits ((app sdk).run (before ++ [opening])) after).any Event.opens = false ∧
      ((app sdk).observe monitor (before ++ [opening])).session.path = some words ∧
      (∀ path path_len hash,
        .bip32_derive_eddsa_sign_hash_256 path path_len hash ∈ (step sdk ((app sdk).run h) i).2 →
        path.toList.take path_len.toNat = words ∧ path_len.toNat = words.length ∧
          hash = sdk.cx_hash_sha256 e.wire) ∧
      resp = signatureText (sdk.bip32_derive_eddsa_sign_hash_256 words (sdk.cx_hash_sha256 e.wire))

/-- The approval finds the context as the review left it: nothing has reset it since,
and the session of the review came with a well-formed path. -/
def ApprovesInTime (m : Monitor) (s : AppState) (i : Input) : Prop :=
  ApprovesEmail s i → m.overtaken = false ∧ m.opened.path ≠ none

/-- An approval in time signs the email that is shown, under the path of its session. -/
theorem signed_as_shown (sdk : Sdk) (h : List Input) (i : Input)
    (htime : ApprovesInTime ((app sdk).observe monitor h) ((app sdk).run h) i) : SignedAsShown sdk h i := by
  intro resp sw hsig
  cases (step_does sdk ((app sdk).run h) i).causes hsig with
  | signature happroves =>
    obtain ⟨hfresh, hpath⟩ := htime happroves
    obtain ⟨words, hwords⟩ := Option.ne_none_iff_exists'.mp hpath
    obtain ⟨out, pairs, -, hscreen⟩ := happroves
    obtain ⟨e, rfl, hopened, -, hhash⟩ := run_binds sdk h pairs hscreen hfresh
    obtain ⟨before, opening, after, hsplit, hreview, hquiet, hsession⟩ := opened_history sdk h hscreen
    have hholds := (run_tracks sdk h).holds_path words (hopened ▸ hwords)
    refine ⟨e, before, after, opening, words, hscreen, hsplit, hreview, hquiet, hsession ▸ hwords, ?_, ?_⟩
    · intro path path_len hash hsign
      obtain ⟨-, rfl, rfl, rfl⟩ := (step_does sdk _ i).signs hsign
      exact ⟨hholds.words_eq, hholds.path_len_eq, hhash⟩
    · rw [hholds.sign_eq, hhash]

/-- What is signed is what was shown, along every run in which approvals come in
time. -/
theorem run_signs_as_shown (sdk : Sdk) {h : List Input} (hsteps : (app sdk).EveryStep monitor ApprovesInTime h)
    (before : List Input) (i : Input) (after : List Input) (heq : h = before ++ i :: after) :
    SignedAsShown sdk before i :=
  signed_as_shown sdk before i (hsteps before i after heq)

theorem not_approvesEmail_of_mem (hi : i ∈ smallestSession) : ¬ ApprovesEmail s i := by
  rintro ⟨out, pairs, rfl, -⟩
  exact choice_not_mem_smallestSession hi

/-- The smallest email is signed as it is shown. -/
theorem smallest_signed_as_shown :
    (step .sample ((app .sample).run smallestSession) (.choice true .success)).2.any Event.success = true ∧
      SignedAsShown .sample smallestSession (.choice true .success) := by
  refine ⟨by decide +kernel, run_signs_as_shown .sample (h := smallestSession ++ [.choice true .success]) ?_
    smallestSession (.choice true .success) [] rfl⟩
  have hsends : (app .sample).EveryStep monitor ApprovesInTime smallestSession :=
    .of_forall fun _ _ _ hi happroves => absurd happroves (not_approvesEmail_of_mem hi)
  exact hsends.concat fun _ => ⟨by decide +kernel, by decide +kernel⟩

/-- A SIGN_TOKEN_TX session with another path and another email, sent while the review
of `smallestSession` waits for its answer. -/
def overtakenSession : List Input :=
  smallestSession ++ [.send SIGN_TOKEN_TX 0 P2_MORE [1, 0, 0, 0, 9],
    .send SIGN_TOKEN_TX 1 P2_LAST (List.replicate 16 0x22 ++ Email.smallest.wire.drop 16)]

/-- The approval of an overtaken review signs an email that was never shown. -/
theorem overtaken_not_signed_as_shown : ¬ SignedAsShown .sample overtakenSession (.choice true .success) := by
  intro hshown
  obtain ⟨e, before, after, opening, words, hscreen, -, -, -, -, hsigned, -⟩ := hshown
    (signatureText (Sdk.sample.bip32_derive_eddsa_sign_hash_256 [9]
      ((app .sample).run overtakenSession).G_context.tx_info.m_hash)) SWO_SUCCESS (by decide +kernel)
  have hsmallest : ((app .sample).run overtakenSession).screen = some (.email Email.smallest.pairs) := by
    decide +kernel
  have hemail : e = Email.smallest := by
    apply Email.pairs_injective
    rw [hscreen] at hsmallest
    simpa using hsmallest
  have hhash := (hsigned ((app .sample).run overtakenSession).G_context.bip32_path
    ((app .sample).run overtakenSession).G_context.bip32_path_len
    ((app .sample).run overtakenSession).G_context.tx_info.m_hash (by decide +kernel)).2.2
  rw [hemail] at hhash
  revert hhash
  decide +kernel

end hardmail
