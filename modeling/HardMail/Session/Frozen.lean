import HardMail.Session.Review

open memory codec machine

namespace hardmail

open deserialize

variable {sdk : Sdk} {s s' : AppState} {i : Input} {events : List Event}

/-- A payload that counts as parsed or approved is parsed and hashed as it stands. -/
def Frozen (sdk : Sdk) (G : GlobalCtx) : Prop :=
  G.state = .STATE_PARSED ∨ G.state = .STATE_APPROVED → ∃ e, G.Hashed sdk e

/-- A context in the state none is frozen, as it holds no parsed payload. -/
theorem Frozen.of_none {G : GlobalCtx} (h : G.state = .STATE_NONE) : Frozen sdk G := by
  rintro (hstate | hstate)
  · rw [h] at hstate
    cases hstate
  · rw [h] at hstate
    cases hstate

/-- In any other state the payload is parsed and hashed. -/
theorem Frozen.hashed {G : GlobalCtx} (h : Frozen sdk G) (hstate : G.state ≠ .STATE_NONE) :
    ∃ e, G.Hashed sdk e := by
  cases hcases : G.state with
  | STATE_NONE => exact absurd hcases hstate
  | STATE_PARSED => exact h (Or.inl hcases)
  | STATE_APPROVED => exact h (Or.inr hcases)

/-- What an input must not do for a parsed payload to stay frozen. -/
structure KeepsFrozen (s : AppState) (i : Input) : Prop where
  /-- no chunk that passes the checks comes on top of a parsed payload -/
  no_chunk : ∀ is_token_tx more chunk, i.request = .chunk is_token_tx more chunk →
    s.G_context.req_type = requestType is_token_tx →
    s.G_context.tx_info.raw_tx_len + chunk.length ≤ MAX_TRANSACTION_LEN → s.G_context.state = .STATE_NONE
  /-- the hash of a payload does not fail, when a last chunk that passes the checks completes it -/
  hash_ok : ∀ cmd out is_token_tx chunk (e : Email), i = .apdu cmd out →
    cmd.request = .chunk is_token_tx false chunk → s.G_context.req_type = requestType is_token_tx →
    s.G_context.tx_info.raw_tx_len + chunk.length ≤ MAX_TRANSACTION_LEN →
    s.G_context.payload ++ chunk = e.wire → out.hash = none
  /-- no email is signed after the state has gone back to none -/
  approval : ∀ out pairs, i = .choice true out → s.screen = some (.email pairs) → out.sign = none →
    s.G_context.state ≠ .STATE_NONE

/-- A step that does nothing of this keeps a parsed payload frozen. -/
theorem Frozen.step (h : Frozen sdk s.G_context) (hdoes : Does sdk s i s' events) (hkeeps : KeepsFrozen s i) :
    Frozen sdk s'.G_context := by
  cases hdoes with
  | start hrequest hstart => exact .of_none hstart.reset.1.state_eq
  | pubkey hrequest hpubkey => exact .of_none hpubkey.reset.1.state_eq
  | @chunk cmd out is_token_tx more chunk s' events hrequest hdata hchunk =>
    have hidle : ∀ G, s.G_context.req_type = requestType is_token_tx → Appends s.G_context chunk G →
        s.G_context.state = .STATE_NONE :=
      fun G hreq happends => hkeeps.no_chunk is_token_tx more chunk hrequest hreq happends.room
    cases hchunk with
    | refused hrefuse hsw => exact h
    | stored hreq happends hmore => exact .of_none (happends.state_eq.trans (hidle _ hreq happends))
    | malformed tx hreq happends hmore hbad => exact .of_none (happends.state_eq.trans (hidle _ hreq happends))
    | @unhashed G e residue hreq happends hmore hwire hhash =>
      subst hmore
      have hok := hkeeps.hash_ok cmd out is_token_tx chunk e rfl hrequest hreq happends.room
        (happends.payload_eq.symm.trans hwire)
      rw [hok] at hhash
      cases hhash
    | notShown hreq happends hmore hwire hhash htoken => exact .of_none rfl
    | shown display hreq happends hmore hwire hhash htoken =>
      exact fun _ => ⟨_, .of_layout happends.room_after hwire rfl rfl⟩
  | other hrequest hcontext hscreen hevent => rwa [hcontext]
  | badLength => exact h
  | choice hchoice =>
    cases hchoice with
    | idle hscreen => exact h
    | rejected hscreen hconfirm => exact .of_none rfl
    | unsigned signature hscreen hconfirm hsign => exact .of_none rfl
    | signed hscreen hconfirm hsign hraw hlen htx hhash =>
      intro _
      subst hconfirm
      obtain ⟨e, hhashed⟩ := h.hashed (hkeeps.approval _ _ rfl hscreen hsign)
      exact ⟨e, hhashed.congr hraw hlen htx hhash⟩
    | verified hscreen hconfirm => exact h
    | unverified hscreen hconfirm => exact h

/-- Along every run whose inputs do none of this, a parsed payload is frozen. -/
theorem parsed_payload_frozen (sdk : Sdk) {h : List Input}
    (hsteps : (app sdk).EveryStep monitor (fun _ s i => KeepsFrozen s i) h) :
    Frozen sdk ((app sdk).run h).G_context := by
  apply Machine.EveryStep.invariant (P := fun _ s => Frozen sdk s.G_context) (.of_none rfl) ?_ hsteps
  intro _ s i hfrozen hkeeps
  exact hfrozen.step (step_does sdk s i) hkeeps

/-- Sending a command in state none keeps payloads frozen, as all its calls succeed. -/
theorem KeepsFrozen.send {ins p1 p2 : UInt8} {data : List UInt8} {lc_lt : data.length < 256}
    (hstate : s.G_context.state = .STATE_NONE) : KeepsFrozen s (.send ins p1 p2 data lc_lt) := by
  refine ⟨fun _ _ _ _ _ _ => hstate, ?_, ?_⟩
  · rintro _ _ _ _ _ ⟨⟩ _ _ _ _
    rfl
  · rintro _ _ ⟨⟩

/-- An answer of the user outside the state none keeps payloads frozen. -/
theorem KeepsFrozen.choice {confirm : Bool} {out : Outcomes} (hstate : s.G_context.state ≠ .STATE_NONE) :
    KeepsFrozen s (.choice confirm out) := by
  refine ⟨?_, ?_, fun _ _ _ _ _ => hstate⟩
  · rintro _ _ _ ⟨⟩
  · rintro _ _ _ _ _ ⟨⟩

/-- The smallest email stays frozen from its review to its signature. -/
theorem smallest_payload_frozen :
    Frozen .sample ((app .sample).run (smallestSession ++ [.choice true .success])).G_context :=
  parsed_payload_frozen .sample ((((Machine.EveryStep.nil.concat (.send (by decide +kernel))).concat
    (.send (by decide +kernel))).concat (.send (by decide +kernel))).concat (.choice (by decide +kernel)))

/-- A chunk that follows the last one goes behind the parsed payload, which still
counts as parsed. -/
theorem extended_payload_not_frozen :
    ¬ Frozen .sample ((app .sample).run (smallestSession ++ [.send SIGN_TX 3 P2_MORE [0]])).G_context := by
  intro hfrozen
  obtain ⟨e, hhashed⟩ := hfrozen (Or.inl (by decide +kernel))
  have haccepted := hhashed.accepted .zero
  revert haccepted
  decide +kernel

end hardmail
