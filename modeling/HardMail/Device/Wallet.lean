import HardMail.Device.Refinement

open memory codec machine

namespace hardmail

/-- The command is a chunk that goes on with a session. -/
def Command.continues (cmd : Command) : Bool :=
  match cmd.instruction with
  | .ok (.chunk _ _ _) => true
  | _ => false

/-- What the device is for: one request at a time, from the path to what the user
approves. Nothing of an earlier request is left in a state. -/
inductive Wallet where
  | idle
  | receiving (is_token_tx : Bool) (path : List UInt32) (payload : List UInt8)
  | reviewing (path : List UInt32) (e : Email)
  | verifying (path : List UInt32)
  deriving DecidableEq

namespace Wallet

def reply (w : Wallet) (sw : UInt16) : Wallet × List Report := (w, [.respond sw []])

/-- The user has been shown something and has not answered. -/
def asking : Wallet → Bool
  | reviewing _ _ => true
  | verifying _ => true
  | _ => false

/-- Chunks are still to come. -/
def opened : Wallet → Bool
  | receiving _ _ _ => true
  | _ => false

variable (sdk : Sdk)

def exportKey (data : List UInt8) (display : Bool) (out : Outcomes) : Wallet × List Report :=
  match pathOf data with
  | none => idle.reply SWO_WRONG_DATA_LENGTH
  | some path =>
    let derive := Report.derive (.of path)
    match out.derive, out.compress with
    | some failure, _ => (idle, [derive, .respond failure.error.val.toUInt16 []])
    | none, some failure => (idle, [derive, .respond failure.error.val.toUInt16 []])
    | none, none =>
      if !display then
        (idle, [derive, .respond SWO_SUCCESS (pubkeyResponse (sdk.derivedKey path) (sdk.derivedCode path))])
      else if out.keccak.isSome then (idle, [derive, .respond SWO_INCORRECT_DATA []])
      else (verifying path, [derive, .review (.address (sdk.addressText (sdk.derivedKey path)))])

def complete (is_token_tx : Bool) (path : List UInt32) (payload : List UInt8) (out : Outcomes) :
    Wallet × List Report :=
  match emailCodec.decode payload with
  | some (e, []) =>
    if out.hash.isSome then idle.reply SWO_INCORRECT_DATA
    else if is_token_tx then idle.reply SWO_CONDITIONS_NOT_SATISFIED
    else (reviewing path e, [.review (.email e.pairs)])
  | _ => idle.reply SWO_INCORRECT_DATA

/-- A chunk that is refused does not end the session. -/
def receive (is_token_tx more : Bool) (chunk : List UInt8) (out : Outcomes) : Wallet → Wallet × List Report
  | receiving opened path payload =>
    if opened ≠ is_token_tx then (receiving opened path payload).reply SWO_CONDITIONS_NOT_SATISFIED
    else if (payload ++ chunk).length ≤ MAX_TRANSACTION_LEN then
      if more then (receiving opened path (payload ++ chunk)).reply SWO_SUCCESS
      else complete is_token_tx path (payload ++ chunk) out
    else (receiving opened path payload).reply SWO_WRONG_DATA_LENGTH
  | w => w.reply SWO_CONDITIONS_NOT_SATISFIED

def obey (w : Wallet) (out : Outcomes) : Instruction → Wallet × List Report
  | .version => (w, [.respond SWO_SUCCESS [2, 3, 2]])
  | .name => (w, [.respond SWO_SUCCESS (ascii "HardMail".toList)])
  | .pubkey data display => exportKey sdk data display out
  | .start is_token_tx data =>
    match pathOf data with
    | none => idle.reply SWO_WRONG_DATA_LENGTH
    | some path => (receiving is_token_tx path []).reply SWO_SUCCESS
  | .chunk is_token_tx more data => w.receive is_token_tx more data out
  | .token =>
    w.reply (if (out.descriptor.bind TokenDescriptor.token).isSome then SWO_SUCCESS else SW_INVALID_DYNAMIC_TOKEN)

/-- An approval signs the email under review, or exports the key whose address is shown. -/
def answer (confirm : Bool) (out : Outcomes) : Wallet → Wallet × List Report
  | reviewing path e =>
    if !confirm then idle.reply SWO_CONDITIONS_NOT_SATISFIED
    else
      let digest := sdk.cx_hash_sha256 e.wire
      if out.sign.isSome then (idle, [.sign (.of path) digest, .respond SWO_SECURITY_ISSUE []])
      else
        (idle, [.sign (.of path) digest,
          .respond SWO_SUCCESS (signatureText (sdk.bip32_derive_eddsa_sign_hash_256 path digest))])
  | verifying path =>
    if !confirm then idle.reply SWO_CONDITIONS_NOT_SATISFIED
    else (idle, [.respond SWO_SUCCESS (pubkeyResponse (sdk.derivedKey path) (sdk.derivedCode path))])
  | w => (w, [])

def step (w : Wallet) : Input → Wallet × List Report
  | .apdu cmd out =>
    match cmd.instruction with
    | .error sw => w.reply sw
    | .ok instruction => w.obey sdk out instruction
  | .badLength => w.reply SWO_WRONG_DATA_LENGTH
  | .choice confirm out => w.answer sdk confirm out

/-- A host waits for the response to each of its messages, and sends later chunks only in
a session that is open. The user may answer at any time. -/
def Expects (w : Wallet) : Input → Prop
  | .apdu cmd _ => w.asking = false ∧ (cmd.continues = true → w.opened = true)
  | .badLength => w.asking = false
  | .choice _ _ => True

instance (w : Wallet) : DecidablePred w.Expects
  | .apdu _ _ => inferInstanceAs (Decidable (_ ∧ _))
  | .badLength => inferInstanceAs (Decidable (_ = _))
  | .choice _ _ => inferInstanceAs (Decidable True)

end Wallet

def wallet (sdk : Sdk) : Machine Wallet Input Report := ⟨.idle, Wallet.step sdk⟩

/-- The device remembers a well-formed path. -/
structure Device.HasPath (d : Device) (path : List UInt32) : Prop where
  path_eq : d.path = .of path
  length_le : path.length ≤ MAX_BIP32_PATH

/-- A device that serves the request the wallet is at. What else it remembers does not
matter to the wallet. -/
inductive Serves (sdk : Sdk) (d : Device) : Wallet → Prop where
  | idle (hscreen : d.screen = none) : Serves sdk d .idle
  | receiving {is_token_tx : Bool} {path : List UInt32} (hscreen : d.screen = none)
    (hpurpose : d.purpose = requestType is_token_tx) (hpath : d.HasPath path) :
    Serves sdk d (.receiving is_token_tx path d.stored)
  | reviewing {path : List UInt32} {e : Email} (hscreen : d.screen = some (.email e.pairs))
    (hdigest : d.digest = sdk.cx_hash_sha256 e.wire) (hpath : d.HasPath path) : Serves sdk d (.reviewing path e)
  | verifying {path : List UInt32} {address : List UInt8} (hscreen : d.screen = some (.address address))
    (hexported : d.exported = pubkeyResponse (sdk.derivedKey path) (sdk.derivedCode path)) :
    Serves sdk d (.verifying path)

variable {sdk : Sdk} {d : Device} {w : Wallet} {path : List UInt32}

/-- A command that resets the device with a well-formed path leaves it with that path. -/
theorem Device.hasPath_reset (purpose : RequestType) {data : List UInt8} (hpath : pathOf data = some path) :
    (d.reset purpose (.of path)).HasPath path :=
  ⟨rfl, (pathOf_length hpath).2⟩

/-- A reaction of the device that the wallet has too. -/
structure Follows (sdk : Sdk) (reaction : Reaction) (turn : Wallet × List Report) : Prop where
  serves : Serves sdk reaction.1 turn.1
  reports_eq : turn.2 = reaction.2

/-- While the wallet asks nothing, no review is on the screen. -/
theorem Serves.screen_eq_none (h : Serves sdk d w) (hasking : w.asking = false) : d.screen = none := by
  cases h with
  | idle hscreen => exact hscreen
  | receiving hscreen hpurpose hpath => exact hscreen
  | reviewing hscreen hdigest hpath => cases hasking
  | verifying hscreen hexported => cases hasking

/-- Whether a device serves a request depends on its purpose, path, stored bytes, digest and
screen. -/
theorem Serves.congr {d' : Device} (h : Serves sdk d w) (hpurpose : d'.purpose = d.purpose) (hpath : d'.path = d.path)
    (hstored : d'.stored = d.stored) (hdigest : d'.digest = d.digest) (hscreen : d'.screen = d.screen) :
    Serves sdk d' w := by
  cases h with
  | idle hnone => exact .idle (hscreen.trans hnone)
  | receiving hnone hreq hhas =>
    rw [← hstored]
    exact .receiving (hscreen.trans hnone) (hpurpose.trans hreq) ⟨hpath.trans hhas.path_eq, hhas.length_le⟩
  | reviewing hshown hhash hhas =>
    exact .reviewing (hscreen.trans hshown) (hdigest.trans hhash) ⟨hpath.trans hhas.path_eq, hhas.length_le⟩
  | verifying hshown hexported =>
    refine .verifying (hscreen.trans hshown) ?_
    rw [← hexported, Device.exported, Device.exported, Device.memory, Device.memory, hstored]

theorem Serves.reply (h : Serves sdk d w) (sw : UInt16) : Follows sdk (respond d sw) (w.reply sw) := ⟨h, rfl⟩

/-- The export of a key ends what went before, so the wallet follows it from any device
whose screen is empty. -/
theorem exportKey_follows (hscreen : d.screen = none) (data : List UInt8) (display : Bool) (out : Outcomes) :
    Follows sdk (d.exportKey sdk data display out) (Wallet.exportKey sdk data display out) := by
  unfold Device.exportKey Wallet.exportKey
  cases pathOf data with
  | none => exact ⟨.idle hscreen, rfl⟩
  | some path =>
    cases out.derive with
    | some failure => exact ⟨.idle hscreen, rfl⟩
    | none =>
      cases out.compress with
      | some failure => exact ⟨.idle hscreen, rfl⟩
      | none =>
        dsimp only
        split_ifs
        · exact ⟨.idle hscreen, rfl⟩
        · exact ⟨.idle hscreen, rfl⟩
        · exact ⟨.verifying rfl (Device.exported_keep (d.reset .CONFIRM_ADDRESS (.of path)) _), rfl⟩

/-- A new session ends what went before, so the wallet follows it from any device whose
screen is empty. -/
theorem start_follows (hscreen : d.screen = none) (is_token_tx : Bool) (data : List UInt8) (out : Outcomes) :
    Follows sdk (d.beginSession (requestType is_token_tx) data out)
      (match pathOf data with
        | none => Wallet.idle.reply SWO_WRONG_DATA_LENGTH
        | some path => (Wallet.receiving is_token_tx path []).reply SWO_SUCCESS) := by
  unfold Device.beginSession
  cases hpath : pathOf data with
  | none => exact ⟨.idle hscreen, rfl⟩
  | some path => exact ⟨.receiving hscreen rfl (Device.hasPath_reset _ hpath), rfl⟩

/-- The last chunk of a session opens the review of the email in both, or is refused in
both. -/
theorem complete_follows (hscreen : d.screen = none) (hpath : d.HasPath path) (is_token_tx : Bool) (out : Outcomes) :
    Follows sdk (d.complete sdk (requestType is_token_tx) out)
      (Wallet.complete is_token_tx path d.stored out) := by
  unfold Wallet.complete
  split
  · rename_i e hdecode
    rw [Device.complete, hdecode]
    cases out.hash with
    | some residue => exact ⟨.idle hscreen, rfl⟩
    | none =>
      cases is_token_tx with
      | true => exact ⟨.idle hscreen, rfl⟩
      | false =>
        have hdigest := congrArg sdk.cx_hash_sha256 (Email.eq_wire_of_decode hdecode)
        exact ⟨.reviewing rfl hdigest ⟨hpath.path_eq, hpath.length_le⟩, rfl⟩
  · rename_i hdecode
    have hbad : ∀ e : Email, d.stored ≠ e.wire := by
      intro e hwire
      exact hdecode e (hwire ▸ e.decode_wire)
    rw [Device.complete_malformed sdk hbad]
    exact ⟨.idle hscreen, rfl⟩

/-- The two instructions for signing have different request types. -/
theorem requestType_injective : Function.Injective requestType := by
  intro a b h
  cases a with
  | false =>
    cases b with
    | false => rfl
    | true => cases h
  | true =>
    cases b with
    | false => cases h
    | true => rfl

/-- A chunk goes on with the session in both, or is refused in both for the same reason. -/
theorem receive_follows {opened : Bool} (hscreen : d.screen = none) (hpurpose : d.purpose = requestType opened)
    (hpath : d.HasPath path) (is_token_tx more : Bool) (chunk : List UInt8) (out : Outcomes) :
    Follows sdk (d.receive sdk (requestType is_token_tx) more chunk out)
      ((Wallet.receiving opened path d.stored).receive is_token_tx more chunk out) := by
  have hserves : Serves sdk d (.receiving opened path d.stored) := .receiving hscreen hpurpose hpath
  rw [Device.receive, Wallet.receive]
  by_cases hopened : opened = is_token_tx
  · subst hopened
    rw [if_neg (not_not_intro hpurpose), if_neg (not_not_intro rfl)]
    by_cases hroom : (d.stored ++ chunk).length ≤ MAX_TRANSACTION_LEN
    · rw [dif_pos hroom, if_pos hroom]
      cases more with
      | true => exact ⟨.receiving hscreen hpurpose ⟨hpath.path_eq, hpath.length_le⟩, rfl⟩
      | false =>
        have hpath' : (d.append chunk hroom).HasPath path := ⟨hpath.path_eq, hpath.length_le⟩
        exact complete_follows (d := d.append chunk hroom) hscreen hpath' opened out
    · rw [dif_neg hroom, if_neg hroom]
      exact hserves.reply _
  · have hother : d.purpose ≠ requestType is_token_tx := by
      rw [hpurpose]
      exact requestType_injective.ne hopened
    rw [if_pos hother, if_pos hopened]
    exact hserves.reply _

/-- An instruction the wallet expects is followed by the wallet. -/
theorem obey_follows (h : Serves sdk d w) (out : Outcomes) {cmd : Command} {instruction : Instruction}
    (hinstruction : cmd.instruction = .ok instruction) (hexpects : w.Expects (.apdu cmd out)) :
    Follows sdk (d.obey sdk out instruction) (w.obey sdk out instruction) := by
  have hscreen := h.screen_eq_none hexpects.1
  cases instruction with
  | version => exact ⟨h, rfl⟩
  | name => exact ⟨h, rfl⟩
  | pubkey data display => exact exportKey_follows hscreen data display out
  | start is_token_tx data => exact start_follows hscreen is_token_tx data out
  | token => exact ⟨h.congr rfl rfl rfl rfl rfl, rfl⟩
  | chunk is_token_tx more chunk =>
    obtain ⟨hasking, hopen⟩ := hexpects
    cases h with
    | idle _ =>
      rw [Command.continues, hinstruction] at hopen
      cases hopen rfl
    | receiving _ hpurpose hpath => exact receive_follows hscreen hpurpose hpath is_token_tx more chunk out
    | reviewing _ _ _ => cases hasking
    | verifying _ _ => cases hasking

/-- An answer to the review on the screen is followed by the wallet: the device still holds
what the review showed. -/
theorem answer_follows (h : Serves sdk d w) (confirm : Bool) (out : Outcomes) :
    Follows sdk (d.answer sdk confirm out) (w.answer sdk confirm out) := by
  cases h with
  | idle hscreen =>
    simp only [Device.answer, hscreen]
    exact ⟨.idle hscreen, rfl⟩
  | receiving hscreen hpurpose hpath =>
    simp only [Device.answer, hscreen]
    exact ⟨.receiving hscreen hpurpose hpath, rfl⟩
  | @reviewing path e hscreen hdigest hpath =>
    cases confirm with
    | false =>
      simp only [Device.answer, hscreen]
      exact ⟨.idle rfl, rfl⟩
    | true =>
      simp only [Device.answer, hscreen, Wallet.answer, ← hdigest, hpath.path_eq,
        sdk.sign_of out hpath.length_le, Bool.not_true, Bool.false_eq_true, if_false]
      split_ifs
      · exact ⟨.idle rfl, rfl⟩
      · exact ⟨.idle rfl, rfl⟩
  | verifying hscreen hexported =>
    cases confirm with
    | false =>
      simp only [Device.answer, hscreen]
      exact ⟨.idle rfl, rfl⟩
    | true =>
      simp only [Device.answer, hscreen, Wallet.answer, ← hexported]
      exact ⟨.idle rfl, rfl⟩

/-- Every input the wallet expects is followed by the wallet. -/
theorem step_follows (h : Serves sdk d w) {i : Input} (hexpects : w.Expects i) :
    Follows sdk (d.step sdk i) (w.step sdk i) := by
  cases i with
  | badLength => exact h.reply _
  | choice confirm out => exact answer_follows h confirm out
  | apdu cmd out =>
    simp only [Device.step, Wallet.step]
    cases hinstruction : cmd.instruction with
    | error sw => exact h.reply sw
    | ok instruction => exact obey_follows h out hinstruction hexpects

/-- The application is at the request the wallet is at. -/
def Runs (sdk : Sdk) (s : AppState) (w : Wallet) : Prop := ∃ d, Realizes s d ∧ Serves sdk d w

/-- The application starts where the wallet is idle. -/
theorem runs_init (sdk : Sdk) : Runs sdk .init .idle := ⟨.init, realizes_init, .idle rfl⟩

/-- An input the wallet expects keeps the application and the wallet together, with the same
reports. -/
theorem Runs.step {s : AppState} (h : Runs sdk s w) {i : Input} (hexpects : w.Expects i) :
    Runs sdk (hardmail.step sdk s i).1 (w.step sdk i).1 ∧
      (w.step sdk i).2 = (hardmail.step sdk s i).2.map Event.report := by
  obtain ⟨d, hrealizes, hserves⟩ := h
  have heffects := step_effects sdk hrealizes i
  have hfollows := step_follows hserves hexpects
  exact ⟨⟨_, heffects.realizes, hfollows.serves⟩, hfollows.reports_eq.trans heffects.reports_eq⟩

/-- To a host that waits for the response to each of its messages, and sends later chunks
only in a session that is still open, the application is the wallet, whatever the user
answers and whichever of its calls fail. -/
theorem app_is_wallet (sdk : Sdk) {h : List Input} (hexpects : (wallet sdk).Admits Wallet.Expects .idle h) :
    ((app sdk).emits .init h).map Event.report = (wallet sdk).emits .idle h := by
  have hstep : ∀ s w i, Runs sdk s w → w.Expects i →
      Runs sdk ((app sdk).step s i).1 ((wallet sdk).step w i).1 ∧
        ((wallet sdk).step w i).2 = ((app sdk).step s i).2.map Event.report :=
    fun s w i hruns hi => hruns.step hi
  exact (Machine.runFrom_of_admits hstep (runs_init sdk) hexpects).2.symm

/-- A key is verified, and an email signed under its path, with a question in between. -/
def attendedSession : List Input :=
  [.send GET_PUBLIC_KEY 1 0 [1, 0, 0, 0, 11], .choice true .success, .send SIGN_TX 0 P2_MORE [1, 0, 0, 0, 11],
    .send SIGN_TX 1 P2_MORE (Email.smallest.wire.take 24), .send GET_VERSION 0 0 [],
    .send SIGN_TX 2 P2_LAST (Email.smallest.wire.drop 24), .choice true .success]

/-- A verified key and a signed email, with a question in between, are the wallet's. -/
theorem attended_session_is_wallet :
    ((app .sample).emits .init attendedSession).map Event.report = (wallet .sample).emits .idle attendedSession := by
  have hexpects : (wallet .sample).Admits Wallet.Expects .idle attendedSession := by decide +kernel
  exact app_is_wallet .sample hexpects

end hardmail
