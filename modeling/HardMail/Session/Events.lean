import HardMail.Session.Monitor

open memory codec machine

namespace hardmail

variable {sdk : Sdk} {s s' : AppState} {i : Input} {events : List Event}

/-- An accepted chunk 0 carries a well-formed path. -/
theorem Input.accepted_start {cmd : Command} {out : Outcomes} {is_token_tx : Bool} {data : List UInt8}
    (hrequest : cmd.request = .start is_token_tx data) (h : (Input.apdu cmd out).accepted = true) :
    pathOf data ≠ none := by
  simp only [Input.accepted, hrequest] at h
  exact Option.isSome_iff_ne_none.mp h

/-- An accepted GET_PUBLIC_KEY carries a well-formed path, and none of its calls fails. -/
theorem Input.accepted_pubkey {cmd : Command} {out : Outcomes} {data : List UInt8} {display : Bool}
    (hrequest : cmd.request = .pubkey data display) (h : (Input.apdu cmd out).accepted = true) :
    pathOf data ≠ none ∧ ¬ (out.derive ≠ none ∨ out.compress ≠ none ∨ display = true ∧ out.keccak ≠ none) := by
  simp only [Input.accepted, hrequest, Bool.and_eq_true, Bool.or_eq_true, Bool.not_eq_true',
    Option.isNone_iff_eq_none] at h
  obtain ⟨⟨⟨hpath, hderive⟩, hcompress⟩, hkeccak⟩ := h
  refine ⟨Option.isSome_iff_ne_none.mp hpath, ?_⟩
  rintro (hfail | hfail | ⟨rfl, hfail⟩)
  · exact hfail hderive
  · exact hfail hcompress
  · exact hkeccak.elim Bool.noConfusion hfail

/-- The user approves the email review on the screen. -/
def ApprovesEmail (s : AppState) (i : Input) : Prop :=
  ∃ out pairs, i = .choice true out ∧ s.screen = some (.email pairs)

/-- The user approves the address review on the screen. -/
def ApprovesAddress (s : AppState) (i : Input) : Prop :=
  ∃ out text, i = .choice true out ∧ s.screen = some (.address text)

/-- The one way an email review opens: the last chunk of a SIGN_TX session completes
the payload of an email, which has been hashed and is shown. -/
structure OpensEmail (sdk : Sdk) (s : AppState) (i : Input) (s' : AppState) (e : Email) : Prop where
  keeps : i.request.resets = false
  req_type_eq : s.G_context.req_type = .CONFIRM_TRANSACTION
  completes : ∃ chunk, chunk ≠ [] ∧ s'.G_context.payload = s.G_context.payload ++ chunk
  hashed : s'.G_context.Hashed sdk e
  screen_eq : s'.screen = some (.email e.pairs)

/-- What a step that causes an event has done. -/
inductive Causes (sdk : Sdk) (s : AppState) (i : Input) (s' : AppState) (events : List Event) : Event → Prop where
  | io_send_sw (sw : UInt16) : Causes sdk s i s' events (.io_send_sw sw)
  | send_info (resp : List UInt8) : Causes sdk s i s' events (.send_info resp SWO_SUCCESS)
  | email_review {e : Email} (hevents : events = [.review (.email e.pairs)]) (hopens : OpensEmail sdk s i s' e) :
    Causes sdk s i s' events (.review (.email e.pairs))
  | address_review {data : List UInt8} {words : List UInt32} (hrequest : i.request = .pubkey data true)
    (hpath : pathOf data = some words) (hkey : HoldsKey sdk words s'.G_context) :
    Causes sdk s i s' events (.review (.address (sdk.addressText s'.G_context.raw_public_key)))
  | derivation {data : List UInt8} {display : Bool} {words : List UInt32}
    (hrequest : i.request = .pubkey data display) (hpath : pathOf data = some words)
    (hholds : HoldsPath words s'.G_context) :
    Causes sdk s i s' events (.bip32_derive_get_pubkey_256 s'.G_context.bip32_path s'.G_context.bip32_path_len)
  | pubkey {data : List UInt8} {words : List UInt32} (hrequest : i.request = .pubkey data false)
    (hpath : pathOf data = some words) (hkey : HoldsKey sdk words s'.G_context) :
    Causes sdk s i s' events
      (.helper_send_response_pubkey (pubkeyResponse s'.G_context.raw_public_key s'.G_context.chain_code) SWO_SUCCESS)
  | verified (happroves : ApprovesAddress s i) :
    Causes sdk s i s' events
      (.helper_send_response_pubkey (pubkeyResponse s.G_context.raw_public_key s.G_context.chain_code) SWO_SUCCESS)
  | signing (happroves : ApprovesEmail s i) :
    Causes sdk s i s' events (.bip32_derive_eddsa_sign_hash_256 s.G_context.bip32_path
      s.G_context.bip32_path_len s.G_context.tx_info.m_hash)
  | signature {out : Outcomes} (happroves : ApprovesEmail s i) :
    Causes sdk s i s' events (.helper_send_response_sig
      (signatureText (sdk.sign out s.G_context.derivationPath s.G_context.tx_info.m_hash)) SWO_SUCCESS)

/-- The events of a GET_PUBLIC_KEY have their causes in it. -/
theorem PubkeyStep.causes {cmd : Command} {out : Outcomes} {data : List UInt8} {display : Bool} {event : Event}
    (h : PubkeyStep sdk out s data display s' events) (hrequest : cmd.request = .pubkey data display)
    (hmem : event ∈ events) : Causes sdk s (.apdu cmd out) s' events event := by
  cases h with
  | malformed hpath hreset =>
    obtain rfl := List.mem_singleton.mp hmem
    exact .io_send_sw _
  | failed g_address sw hpath hreset hholds hfail =>
    obtain rfl | hmem := List.mem_cons.mp hmem
    · exact .derivation hrequest hpath hholds
    · obtain rfl := List.mem_singleton.mp hmem
      exact .io_send_sw _
  | answered hpath hreset hholds hkey hdisplay =>
    subst hdisplay
    obtain rfl | hmem := List.mem_cons.mp hmem
    · exact .derivation hrequest hpath hholds
    · obtain rfl := List.mem_singleton.mp hmem
      exact .pubkey hrequest hpath hkey
  | shown g_address hpath hreset hholds hkey hdisplay =>
    subst hdisplay
    obtain rfl | hmem := List.mem_cons.mp hmem
    · exact .derivation hrequest hpath hholds
    · obtain rfl := List.mem_singleton.mp hmem
      exact .address_review hrequest hpath hkey

/-- The events of a data chunk have their causes in it. -/
theorem ChunkStep.causes {cmd : Command} {out : Outcomes} {is_token_tx more : Bool} {chunk : List UInt8}
    {event : Event} (h : ChunkStep sdk out s is_token_tx more chunk s' events)
    (hrequest : cmd.request = .chunk is_token_tx more chunk) (hchunk : chunk ≠ []) (hmem : event ∈ events) :
    Causes sdk s (.apdu cmd out) s' events event := by
  cases h with
  | shown display hreq happends hmore hwire hhash htoken =>
    subst htoken
    obtain rfl := List.mem_singleton.mp hmem
    have hkeeps : (Input.apdu cmd out).request.resets = false := by
      rw [Input.request, hrequest, Request.resets]
    exact .email_review rfl ⟨hkeeps, hreq, ⟨chunk, hchunk, happends.payload_eq⟩,
      .of_layout happends.room_after hwire rfl rfl, rfl⟩
  | _ =>
    obtain rfl := List.mem_singleton.mp hmem
    exact .io_send_sw _

/-- The events of an answer have their causes in the review on the screen. -/
theorem ChoiceStep.causes {out : Outcomes} {confirm : Bool} {event : Event}
    (h : ChoiceStep sdk out s confirm s' events) (hmem : event ∈ events) :
    Causes sdk s (.choice confirm out) s' events event := by
  cases h with
  | idle hscreen => cases hmem
  | rejected hscreen hconfirm =>
    obtain rfl := List.mem_singleton.mp hmem
    exact .io_send_sw _
  | unsigned signature hscreen hconfirm hsign =>
    subst hconfirm
    obtain rfl | hmem := List.mem_cons.mp hmem
    · exact .signing ⟨_, _, rfl, hscreen⟩
    · obtain rfl := List.mem_singleton.mp hmem
      exact .io_send_sw _
  | signed hscreen hconfirm hsign hraw hlen htx hhash =>
    subst hconfirm
    obtain rfl | hmem := List.mem_cons.mp hmem
    · exact .signing ⟨_, _, rfl, hscreen⟩
    · obtain rfl := List.mem_singleton.mp hmem
      exact .signature ⟨_, _, rfl, hscreen⟩
  | verified hscreen hconfirm =>
    subst hconfirm
    obtain rfl := List.mem_singleton.mp hmem
    exact .verified ⟨_, _, rfl, hscreen⟩
  | unverified hscreen hconfirm =>
    obtain rfl := List.mem_singleton.mp hmem
    exact .io_send_sw _

/-- Every event of a step is one of the possible ones. -/
theorem Does.causes (h : Does sdk s i s' events) {event : Event} (hmem : event ∈ events) :
    Causes sdk s i s' events event := by
  cases h with
  | start hrequest hstart =>
    cases hstart with
    | malformed hpath hreset =>
      obtain rfl := List.mem_singleton.mp hmem
      exact .io_send_sw _
    | accepted hpath hreset hholds =>
      obtain rfl := List.mem_singleton.mp hmem
      exact .io_send_sw _
  | chunk hrequest hdata hchunk => exact hchunk.causes hrequest hdata hmem
  | pubkey hrequest hpubkey => exact hpubkey.causes hrequest hmem
  | other hrequest hcontext hscreen hevent =>
    obtain rfl := List.mem_singleton.mp hmem
    obtain ⟨sw, rfl⟩ | ⟨resp, rfl⟩ := hevent
    · exact .io_send_sw sw
    · exact .send_info resp
  | badLength =>
    obtain rfl := List.mem_singleton.mp hmem
    exact .io_send_sw _
  | choice hchoice => exact hchoice.causes hmem

end hardmail
