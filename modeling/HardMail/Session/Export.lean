import HardMail.Session.History

open memory codec machine

namespace hardmail

variable {sdk : Sdk} {s s' : AppState} {i : Input} {events : List Event} {m : Monitor} {session : Session}
  {text resp : List UInt8}

/-- The response that exports the key of a derivation path. -/
def Sdk.exportText (sdk : Sdk) (words : List UInt32) : List UInt8 :=
  pubkeyResponse (sdk.derivedKey words) (sdk.derivedCode words)

/-- An address review opens for a GET_PUBLIC_KEY with display, and shows the address
of the key it has put into the context. -/
theorem Does.opens_address (h : Does sdk s i s' events) (hreview : .review (.address text) ∈ events) :
    ∃ data words, i.request = .pubkey data true ∧ pathOf data = some words ∧ HoldsKey sdk words s'.G_context ∧
      text = sdk.addressText (sdk.derivedKey words) := by
  cases h.causes hreview with
  | address_review hrequest hpath hkey => exact ⟨_, _, hrequest, hpath, hkey, by rw [hkey.raw_public_key_eq]⟩

/-- A GET_PUBLIC_KEY refuses every chunk that follows it. -/
theorem acceptedData_eq_nil {G : GlobalCtx} (hreq : G.req_type = .CONFIRM_ADDRESS) (request : Request) :
    acceptedData G request = [] := by
  cases request with
  | chunk is_token_tx more chunk =>
    have hother : G.req_type ≠ requestType is_token_tx := by
      rw [hreq]
      cases is_token_tx <;> decide
    exact if_neg fun hok => hother ((accumulate_transaction_data_success_iff G chunk _).mp hok).1
  | pubkey data display => rfl
  | start is_token_tx data => rfl
  | other => rfl

/-- Which key a context holds depends on the raw buffer only, as the key shares its memory. -/
theorem HoldsKey.congr {G G' : GlobalCtx} {words : List UInt32} (h : HoldsKey sdk words G)
    (hraw : G'.tx_info.raw_tx = G.tx_info.raw_tx) : HoldsKey sdk words G' := by
  constructor
  · rw [GlobalCtx.raw_public_key, hraw]
    exact h.raw_public_key_eq
  · rw [GlobalCtx.chain_code, hraw]
    exact h.chain_code_eq

/-- An address review that has not been overtaken shows the address of the key in the
context, which is that of the command that opened the review. -/
def Verifies (sdk : Sdk) (m : Monitor) (s : AppState) : Prop :=
  ∀ text, s.screen = some (.address text) → m.overtaken = false →
    ∃ data words, m.session = .pubkey data ∧ m.opened = .pubkey data ∧ pathOf data = some words ∧
      HoldsKey sdk words s.G_context ∧ text = sdk.addressText (sdk.derivedKey words)

/-- No step makes a review that is not overtaken show another address than that of the key
in the context. -/
theorem Verifies.step (h : Verifies sdk m s) (htracks : Tracks m.session s.G_context)
    (hdoes : Does sdk s i s' events) : Verifies sdk (monitor.next m i events) s' := by
  intro text hscreen hfresh
  obtain hopens | ⟨hquiet, hscreen⟩ := hdoes.screen hscreen
  · obtain ⟨data, words, hrequest, hpath, hkey, rfl⟩ := hdoes.opens_address hopens
    have hsession : m.session.next i.request = .pubkey data := by rw [hrequest]; rfl
    refine ⟨data, words, hsession, ?_, hpath, hkey, rfl⟩
    exact (if_pos (any_opens hopens)).trans hsession
  · obtain ⟨hbefore, hkeeps⟩ := overtaken_eq_false hquiet hfresh
    obtain ⟨data, words, hsession, hopened, hpath, hkey, rfl⟩ := h text hscreen hbefore
    have hreq : s.G_context.req_type = .CONFIRM_ADDRESS := by
      rw [htracks.req_type_eq, hsession]
      rfl
    have hraw := (hdoes.continues hkeeps).raw_tx_eq (acceptedData_eq_nil hreq i.request)
    refine ⟨data, words, (Session.next_of_keeps _ hkeeps).trans hsession, ?_, hpath, hkey.congr hraw, rfl⟩
    exact (if_neg (Bool.eq_false_iff.mp hquiet)).trans hopened

/-- Along every run, an address review that is not overtaken shows the address of the key in
the context. -/
theorem run_verifies (sdk : Sdk) (h : List Input) :
    Verifies sdk ((app sdk).observe monitor h) ((app sdk).run h) := by
  have hrun := Machine.observed_invariant (M := app sdk) (O := monitor)
    (P := fun m s => Tracks m.session s.G_context ∧ Verifies sdk m s)
    ⟨tracks_init, fun _ hscreen => by cases hscreen⟩
    (fun _ s i hinv => ⟨hinv.1.step (step_does sdk s i), hinv.2.step hinv.1 (step_does sdk s i)⟩) h
  exact hrun.2

/-- A key exported by an input is the one derived for the path of the GET_PUBLIC_KEY it
answers: the input itself, or the command that opened the address review on the
screen, which shows the address of that key. -/
def ExportedAsVerified (sdk : Sdk) (h : List Input) (i : Input) : Prop :=
  ∀ resp sw, .helper_send_response_pubkey resp sw ∈ (step sdk ((app sdk).run h) i).2 →
    ∃ data words, pathOf data = some words ∧ resp = sdk.exportText words ∧
      (i.request = .pubkey data false ∨
        ((app sdk).run h).screen = some (.address (sdk.addressText (sdk.derivedKey words))) ∧
          ∃ before opening after, h = before ++ opening :: after ∧ opening.request = .pubkey data true ∧
            .review (.address (sdk.addressText (sdk.derivedKey words))) ∈
              (step sdk ((app sdk).run before) opening).2 ∧
            ((app sdk).emits ((app sdk).run (before ++ [opening])) after).any Event.opens = false)

/-- An address review is approved only while nothing has reset the context since it
opened. -/
def ApprovesUnchanged (m : Monitor) (s : AppState) (i : Input) : Prop :=
  ApprovesAddress s i → m.overtaken = false

/-- An approval of an address review that is not overtaken exports the key whose address it
shows. -/
theorem exported_as_verified (sdk : Sdk) (h : List Input) (i : Input)
    (hcond : ApprovesUnchanged ((app sdk).observe monitor h) ((app sdk).run h) i) :
    ExportedAsVerified sdk h i := by
  intro resp sw hexport
  cases (step_does sdk ((app sdk).run h) i).causes hexport with
  | @pubkey data words hrequest hpath hkey =>
    exact ⟨data, words, hpath, by rw [hkey.raw_public_key_eq, hkey.chain_code_eq, Sdk.exportText], Or.inl hrequest⟩
  | verified happroves =>
    have hfresh := hcond happroves
    obtain ⟨out, text, -, hscreen⟩ := happroves
    obtain ⟨data, words, -, hopened, hpath, hkey, rfl⟩ := run_verifies sdk h text hscreen hfresh
    obtain ⟨before, opening, after, hsplit, hreview, hquiet, hsession⟩ := opened_history sdk h hscreen
    have hrequest : opening.request = .pubkey data true := by
      obtain ⟨data', -, hrequest, -⟩ := (step_does sdk _ opening).opens_address hreview
      rw [hopened, Machine.observe_concat] at hsession
      change _ = Session.next _ opening.request at hsession
      rw [hrequest] at hsession ⊢
      cases hsession
      rfl
    refine ⟨data, words, hpath, ?_, Or.inr ⟨hscreen, before, opening, after, hsplit, hrequest, hreview, hquiet⟩⟩
    rw [hkey.raw_public_key_eq, hkey.chain_code_eq, Sdk.exportText]

/-- The exported key is the verified key, along every run in which no approved address
review has been overtaken. -/
theorem run_exports_as_verified (sdk : Sdk) {h : List Input}
    (hsteps : (app sdk).EveryStep monitor ApprovesUnchanged h) (before : List Input) (i : Input)
    (after : List Input) (heq : h = before ++ i :: after) : ExportedAsVerified sdk before i :=
  exported_as_verified sdk before i (hsteps before i after heq)

/-- A GET_PUBLIC_KEY with display, which waits for its answer. -/
def verification : List Input := [.send GET_PUBLIC_KEY 1 0 [2, 0, 0, 0, 5, 0, 0, 0, 1]]

/-- A key that is asked for and approved is exported as it was shown. -/
theorem verification_exports_as_verified :
    (step .sample ((app .sample).run verification) (.choice true .success)).2.any Event.success = true ∧
      ExportedAsVerified .sample verification (.choice true .success) := by
  refine ⟨by decide +kernel, run_exports_as_verified .sample (h := verification ++ [.choice true .success]) ?_
    verification (.choice true .success) [] rfl⟩
  have hsend : (app .sample).EveryStep monitor ApprovesUnchanged verification :=
    Machine.EveryStep.nil.concat fun happroves => by obtain ⟨_, _, ⟨⟩, _⟩ := happroves
  exact hsend.concat fun _ => by decide +kernel

/-- The approval of an overtaken address review exports the key of the later command,
whose address was never shown. -/
theorem overtaken_not_exported_as_verified :
    ¬ ExportedAsVerified .sample (verification ++ [.send GET_PUBLIC_KEY 0 0 [2, 0, 0, 0, 9, 0, 0, 0, 1]])
      (.choice true .success) := by
  intro hverified
  obtain ⟨data, words, -, hresp, hrequest | ⟨hscreen, -⟩⟩ := hverified
    (pubkeyResponse (.fill PUBKEY_LEN 9) (.fill CHAINCODE_LEN 7)) SWO_SUCCESS (by decide +kernel)
  · cases hrequest
  · rw [← (pubkeyResponse_injective hresp).1] at hscreen
    revert hscreen
    decide +kernel

end hardmail
