import HardMail.Host.Signing

open memory codec machine

namespace hardmail.host

variable {sdk : Sdk} {calls : Nat → Outcomes} {d d' : Device} {n : Nat} {words : List UInt32}
  {backend : BackendInterface}

/-- A key that the host asks for, with or without the confirmation of the user. -/
def request_key (backend : BackendInterface) (user : Review → Bool) (confirm : Bool) (path : List UInt8) :
    Call (List UInt8) :=
  if confirm then get_public_key_with_confirmation backend user path else get_public_key backend path

/-- The key, and its unpacking, as the tests ask for it. -/
def public_key (backend : BackendInterface) (user : Review → Bool) (confirm : Bool) (path : List UInt8) :
    Call (Nat × List UInt8 × Nat × List UInt8) := do
  let response ← request_key backend user confirm path
  MonadExcept.ofExcept (unpack_get_public_key_response response)

/-- What a failure of the SDK reaches the host as. When the last two bytes of the error are
the status of success, it is an empty response, which the host cannot unpack. -/
def failed (error : CxError) : Except Raised KeyMaterial :=
  .error (if error.val.toUInt16 = SWO_SUCCESS then .IndexError else .ExceptionRAPDU error.val.toUInt16)

/-- What the host gets for a path whose key it asks for in the `n`-th turn. -/
def exported (sdk : Sdk) (calls : Nat → Outcomes) (n : Nat) (user : Review → Bool) (confirm : Bool)
    (path : List UInt8) : Except Raised KeyMaterial :=
  match pathOf path with
  | none => .error (.ExceptionRAPDU SWO_WRONG_DATA_LENGTH)
  | some words =>
    match (calls n).derive, (calls n).compress with
    | some failure, _ => failed failure.error
    | none, some failure => failed failure.error
    | none, none =>
      if !confirm then .ok (sdk.derivedKey words, sdk.derivedCode words)
      else if (calls n).keccak.isSome then .error (.ExceptionRAPDU SWO_INCORRECT_DATA)
      else if user (.address (sdk.addressText (sdk.derivedKey words))) then
        .ok (sdk.derivedKey words, sdk.derivedCode words)
      else .error (.ExceptionRAPDU SWO_CONDITIONS_NOT_SATISFIED)

/-- The host unpacks the key material the device has packed. -/
theorem unpack_pubkeyResponse (key : KeyMaterial) :
    unpack_get_public_key_response (pubkeyResponse key.1 key.2) = .ok (65, key.1.toList, 32, key.2.toList) := by
  have hkey : key.1.toList.length = (UInt8.ofNat PUBKEY_LEN).toNat := key.1.length_toList
  have hcode : key.2.toList.length = (UInt8.ofNat CHAINCODE_LEN).toNat := key.2.length_toList
  have hpop := pop_size_prefixed_append hcode []
  rw [List.append_nil] at hpop
  rw [unpack_get_public_key_response, pubkeyResponse, pop_size_prefixed_append hkey]
  simp only [bind, Except.bind, hpop]
  rfl

/-- The answer to the review of an address. -/
theorem answer_address_ends (sdk : Sdk) (calls : Nat → Outcomes) (n : Nat) {address : List UInt8}
    (hscreen : d.screen = some (.address address)) (confirm : Bool) :
    ∃ t, ∀ receive, Receives receive → Client.Ends (hostedDevice sdk calls) (d, n) (send (.answer confirm) >>= receive)
      (if confirm then .ok d.exported else .error (.ExceptionRAPDU SWO_CONDITIONS_NOT_SATISFIED)) t := by
  have hanswer : d.step sdk ((Move.answer confirm).input calls n) = d.answer sdk confirm (calls n) := rfl
  cases confirm with
  | false =>
    simp only [Device.answer, hscreen] at hanswer
    exact ⟨_, fun receive hreceive => (send_ends hanswer).bind_ok (hreceive.ends (.refusal rfl (by decide)))⟩
  | true =>
    simp only [Device.answer, hscreen] at hanswer
    exact ⟨_, fun receive hreceive => (send_ends hanswer).bind_ok (hreceive.ends (.success rfl))⟩

/-- The command that asks for a key. -/
abbrev keyCommand (confirm : Bool) {path : List UInt8} (hdata : path.length < 256) : Command :=
  ⟨CLA, GET_PUBLIC_KEY, UInt8.ofNat (if confirm then 1 else 0), 0, path, hdata⟩

/-- The command that asks for a key exports the key of its path, if it has one. -/
theorem pubkey_step (sdk : Sdk) (d : Device) (confirm : Bool) {path : List UInt8} (hdata : path.length < 256)
    (out : Outcomes) :
    d.step sdk (.apdu (keyCommand confirm hdata) out) =
      if path = [] then respond d SWO_WRONG_DATA_LENGTH else d.exportKey sdk path confirm out := by
  have hop : Opcode.ofIns GET_PUBLIC_KEY = some .pubkey := by decide
  have htakes : Opcode.pubkey.Takes (UInt8.ofNat (if confirm then 1 else 0)) 0 := by
    simp only [Opcode.Takes]
    cases confirm <;> decide
  have hconfirm : decide (UInt8.ofNat (if confirm then 1 else 0) ≠ 0) = confirm := by cases confirm <;> decide
  have hinstruction : (keyCommand confirm hdata).instruction =
      if path = [] then .error SWO_WRONG_DATA_LENGTH else .ok (.pubkey path confirm) := by
    simp only [Command.instruction, hop, htakes, not_true_eq_false, ne_eq, if_false, Opcode.carriesData, true_and,
      Opcode.instruction, hconfirm]
  rw [Device.step, hinstruction]
  by_cases hne : path = []
  · rw [if_pos hne, if_pos hne]
  · rw [if_neg hne, if_neg hne]
    rfl

/-- A request that opens no review. -/
theorem request_key_ends (hbackend : backend.Documented) (user : Review → Bool) (confirm : Bool) {path : List UInt8}
    (hdata : path.length < 256) {reports : List Report} {result : Except Raised (List UInt8)}
    (hstep : d.step sdk (.apdu (keyCommand confirm hdata) (calls n)) = (d', reports))
    (hshown : reports.findSome? shown = none) (hresponds : Responds reports result) :
    Client.Ends (hostedDevice sdk calls) (d, n) (request_key backend user confirm path) result (d', n + 1) := by
  cases confirm with
  | false => exact exchange_ends hbackend (by decide) hdata hstep hresponds
  | true => exact exchange_async_ends hbackend user (by decide) hdata hstep hshown hresponds

/-- A request that fails with a status word other than success. -/
theorem public_key_error (user : Review → Bool) (confirm : Bool) {path : List UInt8}
    {e : Raised} {t : Device × Nat}
    (hrequest : Client.Ends (hostedDevice sdk calls) (d, n) (request_key backend user confirm path) (.error e) t) :
    Client.Ends (hostedDevice sdk calls) (d, n) (public_key backend user confirm path) (.error e) t :=
  hrequest.bind_error _

/-- A request during which a call of the SDK fails. -/
theorem public_key_failed (hbackend : backend.Documented) (user : Review → Bool) (confirm : Bool) {path : List UInt8}
    (hdata : path.length < 256) {error : CxError}
    (hstep : d.step sdk (.apdu (keyCommand confirm hdata) (calls n)) =
      (d', [.derive (.of words), .respond error.val.toUInt16 []])) :
    Client.Ends (hostedDevice sdk calls) (d, n) (public_key backend user confirm path)
      ((failed error).map fun key => (65, key.1.toList, 32, key.2.toList)) (d', n + 1) := by
  by_cases hsw : error.val.toUInt16 = SWO_SUCCESS
  · rw [failed, if_pos hsw]
    rw [hsw] at hstep
    exact (request_key_ends hbackend user confirm hdata hstep rfl (.success rfl)).bind_ok (ofExcept_ends rfl)
  · rw [failed, if_neg hsw]
    exact public_key_error user confirm (request_key_ends hbackend user confirm hdata hstep rfl (.refusal rfl hsw))

/-- A request whose key has been derived. -/
theorem public_key_derived (hbackend : backend.Documented) (user : Review → Bool) (confirm : Bool) {path : List UInt8}
    (hdata : path.length < 256) {key : KeyMaterial} {text : List UInt8}
    (hstep : d.step sdk (.apdu (keyCommand confirm hdata) (calls n)) =
      if !confirm then
        (d'.keep key, [.derive (.of words), .respond SWO_SUCCESS (pubkeyResponse key.1 key.2)])
      else if (calls n).keccak.isSome then
        (d'.keep key, [.derive (.of words), .respond SWO_INCORRECT_DATA []])
      else
        ({ d'.keep key with screen := some (.address text) }, [.derive (.of words), .review (.address text)])) :
    ∃ t, Client.Ends (hostedDevice sdk calls) (d, n) (public_key backend user confirm path)
      (Except.map (fun key : KeyMaterial => (65, key.1.toList, 32, key.2.toList))
        (if !confirm then .ok key
        else if (calls n).keccak.isSome then .error (.ExceptionRAPDU SWO_INCORRECT_DATA)
        else if user (.address text) then .ok key
        else .error (.ExceptionRAPDU SWO_CONDITIONS_NOT_SATISFIED))) t := by
  have hunpack := unpack_pubkeyResponse key
  cases confirm with
  | false =>
    exact ⟨_, (request_key_ends hbackend user false hdata hstep rfl (.success rfl)).bind_ok (ofExcept_ends hunpack)⟩
  | true =>
    simp only [Bool.not_true, Bool.false_eq_true, if_false] at hstep ⊢
    cases hkeccak : (calls n).keccak with
    | some error =>
      rw [hkeccak] at hstep
      have hrequest := request_key_ends hbackend user true hdata hstep rfl (.refusal rfl (by decide))
      exact ⟨_, public_key_error user true hrequest⟩
    | none =>
      rw [hkeccak, Option.isSome_none, if_neg Bool.false_ne_true] at hstep
      rw [Option.isSome_none, if_neg Bool.false_ne_true]
      have hscreen : ({ d'.keep key with screen := some (.address text) } : Device).screen = some (.address text) := rfl
      obtain ⟨t, hanswer⟩ := answer_address_ends sdk calls (n + 1) hscreen (user (.address text))
      have hrequest := exchange_async_reviewed hbackend user (by decide) hdata hstep rfl hanswer
      cases huser : user (.address text) with
      | false =>
        rw [huser] at hrequest
        exact ⟨t, public_key_error user true hrequest⟩
      | true =>
        have hexported : ({ d'.keep key with screen := some (.address text) } : Device).exported =
            pubkeyResponse key.1 key.2 := d'.exported_keep key
        rw [huser, if_pos rfl, hexported] at hrequest
        exact ⟨t, hrequest.bind_ok (ofExcept_ends hunpack)⟩

/-- From every state of the device, a request of a key ends with the unpacked key material,
or with what `exported` says it raises. -/
theorem public_key_ends (hbackend : backend.Documented) (sdk : Sdk) (calls : Nat → Outcomes) (d : Device) (n : Nat)
    (user : Review → Bool) (confirm : Bool) {path : List UInt8} (hdata : path.length < 256) :
    ∃ t, Client.Ends (hostedDevice sdk calls) (d, n) (public_key backend user confirm path)
      ((exported sdk calls n user confirm path).map fun key => (65, key.1.toList, 32, key.2.toList)) t := by
  have hstep := pubkey_step sdk d confirm hdata (calls n)
  rw [exported]
  cases hwords : pathOf path with
  | none =>
    have hrefused : ∃ d', d.step sdk (.apdu (keyCommand confirm hdata) (calls n)) =
        respond d' SWO_WRONG_DATA_LENGTH := by
      rw [hstep]
      by_cases hne : path = []
      · rw [if_pos hne]
        exact ⟨_, rfl⟩
      · simp only [if_neg hne, Device.exportKey, hwords]
        exact ⟨_, rfl⟩
    obtain ⟨d', hrefused⟩ := hrefused
    exact ⟨_, public_key_error user confirm
      (request_key_ends hbackend user confirm hdata hrefused rfl (.refusal rfl (by decide)))⟩
  | some words =>
    have hne : path ≠ [] := by
      rintro rfl
      cases hwords
    simp only [if_neg hne, Device.exportKey, hwords] at hstep
    dsimp only
    cases hderive : (calls n).derive with
    | some failure =>
      simp only [hderive] at hstep
      exact ⟨_, public_key_failed hbackend user confirm hdata hstep⟩
    | none =>
      cases hcompress : (calls n).compress with
      | some failure =>
        simp only [hderive, hcompress] at hstep
        exact ⟨_, public_key_failed hbackend user confirm hdata hstep⟩
      | none =>
        simp only [hderive, hcompress] at hstep
        exact public_key_derived hbackend user confirm hdata hstep

/-- From every state of the application the host gets the key and the chain code of the path
it has asked for, once the user has approved the review of that key's address where
one is asked for, and otherwise the error that `exported` says. The backend does what it is
documented to do, and the path fits one command. -/
theorem public_key_eq (hbackend : backend.Documented) (sdk : Sdk) (calls : Nat → Outcomes) (h : List Input) (n : Nat)
    (user : Review → Bool) (confirm : Bool) {path : List UInt8} (hdata : path.length < 256) :
    ((public_key backend user confirm path).run.play (hostedApp sdk calls) ((app sdk).run h, n)).1 =
      (exported sdk calls n user confirm path).map fun key => (65, key.1.toList, 32, key.2.toList) := by
  rw [play_app_eq]
  obtain ⟨t, hends⟩ := public_key_ends hbackend sdk calls ((device sdk).run h) n user confirm hdata
  exact congrArg Prod.fst hends

/-- The key of a path, asked for over a direct connection and approved, while the user looks
at another address. -/
theorem reviewed_public_key :
    ((public_key direct (fun _ => true) true [1, 0, 0, 0, 7]).run.play (hostedApp .sample fun _ => .success)
      ((app .sample).run [.send GET_PUBLIC_KEY 1 0 [1, 0, 0, 0, 3]], 1)).1 =
      (exported .sample (fun _ => .success) 1 (fun _ => true) true [1, 0, 0, 0, 7]).map fun key =>
        (65, key.1.toList, 32, key.2.toList) :=
  public_key_eq direct_documented .sample (fun _ => .success) [.send GET_PUBLIC_KEY 1 0 [1, 0, 0, 0, 3]] 1
    (fun _ => true) true (by decide)

end hardmail.host
