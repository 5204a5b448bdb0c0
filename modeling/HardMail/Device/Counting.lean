import HardMail.Device.Refinement
import HardMail.Machine.Account

open memory codec machine

namespace hardmail

variable {sdk : Sdk} {d : Device}

def Report.signs : Report → Bool
  | .sign _ _ => true
  | _ => false

def Report.showsEmail : Report → Bool
  | .review (.email _) => true
  | _ => false

def Input.approves : Input → Bool
  | .choice true _ => true
  | _ => false

/-- A chunk 0 of SIGN_TX that reaches its handler, be its path accepted or not. -/
def Input.startsSigning : Input → Bool
  | .apdu cmd _ =>
    match cmd.instruction with
    | .ok (.start false _) => true
    | _ => false
  | _ => false

/-- The reviews of emails that can still be approved. -/
def Device.pending (d : Device) : Nat :=
  match d.screen with
  | some (.email _) => 1
  | _ => 0

/-- The reviews of emails that the session can still open. -/
def Device.openable (d : Device) : Nat :=
  if d.purpose = .CONFIRM_TRANSACTION ∧ emailCodec.decode d.stored = none then 1 else 0

/-- A later chunk that reaches its handler carries data. -/
theorem instruction_chunk_ne_nil {cmd : Command} {is_token_tx more : Bool} {data : List UInt8}
    (h : cmd.instruction = .ok (.chunk is_token_tx more data)) : data ≠ [] := by
  unfold Command.instruction at h
  split at h
  · cases h
  · split at h
    · cases h
    · rename_i op hop
      split_ifs at h with htakes hdata
      cases op with
      | sign is_token_tx' =>
        rw [Opcode.instruction] at h
        split_ifs at h with hstart
        · cases h
        · cases h
          exact fun hnil => hdata ⟨rfl, hnil⟩
      | _ => cases h

/-- What a later chunk leaves behind: a response, or the review of the email it completes. -/
inductive Received (d : Device) (chunk : List UInt8) : Reaction → Prop where
  | responded {d' : Device} (sw : UInt16) (hscreen : d'.screen = d.screen) (hpurpose : d'.purpose = d.purpose)
    (hstored : d'.stored = d.stored ∨ d'.stored = d.stored ++ chunk) : Received d chunk (respond d' sw)
  | reviewed {d' : Device} (e : Email) (hscreen : d'.screen = some (.email e.pairs)) (hpurpose : d'.purpose = d.purpose)
    (hsigns : d.purpose = .CONFIRM_TRANSACTION) (hstored : d'.stored = d.stored ++ chunk)
    (hdecode : emailCodec.decode (d.stored ++ chunk) = some (e, [])) :
    Received d chunk (d', [.review (.email e.pairs)])

/-- A chunk is stored once or not at all, and it opens a review only when it completes an
email. -/
theorem receive_received (sdk : Sdk) (d : Device) (purpose : RequestType) (more : Bool) (chunk : List UInt8)
    (out : Outcomes) : Received d chunk (d.receive sdk purpose more chunk out) := by
  unfold Device.receive
  by_cases hpurpose : d.purpose = purpose
  · rw [if_neg (not_not_intro hpurpose)]
    by_cases hroom : (d.stored ++ chunk).length ≤ MAX_TRANSACTION_LEN
    · rw [dif_pos hroom]
      cases more with
      | true => exact .responded _ rfl rfl (Or.inr rfl)
      | false =>
        simp only [Bool.false_eq_true, if_false]
        unfold Device.complete
        split
        · exact .responded _ rfl rfl (Or.inr rfl)
        · rename_i e hdecode hhash
          dsimp only
          split_ifs with hsigns
          · exact .reviewed e rfl rfl (hpurpose.trans hsigns) rfl hdecode
          · exact .responded _ rfl rfl (Or.inr rfl)
        · exact .responded _ rfl rfl (Or.inr rfl)
    · rw [dif_neg hroom]
      exact .responded _ rfl rfl (Or.inl rfl)
  · rw [if_pos hpurpose]
    exact .responded _ rfl rfl (Or.inl rfl)

/-- Chunk 0 begins a session under some path, and is answered with a status word. -/
theorem beginSession_eq (d : Device) (purpose : RequestType) (data : List UInt8) (out : Outcomes) :
    ∃ path sw, d.beginSession purpose data out = respond (d.reset purpose path) sw := by
  unfold Device.beginSession
  cases pathOf data with
  | none => exact ⟨_, _, rfl⟩
  | some words => exact ⟨_, _, rfl⟩

/-- Bytes behind an email leave the email as it is decoded, as the format is prefix-free. -/
theorem decode_append {payload : List UInt8} {e : Email} {rest : List UInt8}
    (h : emailCodec.decode payload = some (e, rest)) (chunk : List UInt8) :
    emailCodec.decode (payload ++ chunk) = some (e, rest ++ chunk) := by
  rw [emailCodec.encode_of_decode payload e rest h, List.append_assoc, emailCodec.decode_encode]

/-- A session can open at most one more review. -/
theorem openable_le_one (d : Device) : d.openable ≤ 1 := by
  unfold Device.openable
  split
  · exact Nat.le_refl 1
  · exact Nat.zero_le 1

/-- Only a session of SIGN_TX can open an email review. -/
theorem openable_of_purpose {d : Device} (h : d.purpose ≠ .CONFIRM_TRANSACTION) : d.openable = 0 :=
  if_neg fun hopen => h hopen.1

/-- A session that goes on can open no more reviews than before. -/
theorem openable_le {d d' : Device} {chunk : List UInt8} (hpurpose : d'.purpose = d.purpose)
    (hstored : d'.stored = d.stored ∨ d'.stored = d.stored ++ chunk) : d'.openable ≤ d.openable := by
  unfold Device.openable
  split_ifs with hopen hbefore
  · exact Nat.le_refl 1
  · exfalso
    apply hbefore
    refine ⟨hpurpose.symm.trans hopen.1, ?_⟩
    obtain hsame | happend := hstored
    · rw [← hsame]
      exact hopen.2
    · cases hdecode : emailCodec.decode d.stored with
      | none => rfl
      | some decoded =>
        have hlonger := hopen.2
        rw [happend, decode_append hdecode chunk] at hlonger
        cases hlonger
  · exact Nat.zero_le _
  · exact Nat.le_refl 0

/-- A session that opens a review could still open one, and can open no other: no payload
of an email is the beginning of another one. -/
theorem openable_spent {d d' : Device} {e : Email} {chunk : List UInt8} (hchunk : chunk ≠ [])
    (hsigns : d.purpose = .CONFIRM_TRANSACTION) (hstored : d'.stored = d.stored ++ chunk)
    (hdecode : emailCodec.decode (d.stored ++ chunk) = some (e, [])) : d'.openable = 0 ∧ d.openable = 1 := by
  constructor
  · rw [Device.openable, if_neg]
    rintro ⟨-, hnone⟩
    rw [hstored, hdecode] at hnone
    cases hnone
  · rw [Device.openable, if_pos]
    refine ⟨hsigns, ?_⟩
    cases hbefore : emailCodec.decode d.stored with
    | none => rfl
    | some decoded =>
      have hlonger := decode_append hbefore chunk
      rw [hdecode, Option.some.injEq, Prod.mk.injEq] at hlonger
      exact absurd (List.append_eq_nil_iff.mp hlonger.2.symm).2 hchunk

/-- What a step may count: signatures use up approvals and reviews, and reviews use up
sessions. -/
structure Counts (d : Device) (reaction : Reaction) (approvals sessions : Nat) : Prop where
  approved : reaction.2.countP Report.signs ≤ approvals
  reviewed : reaction.2.countP Report.signs + reaction.1.pending ≤ d.pending + reaction.2.countP Report.showsEmail
  started : reaction.2.countP Report.showsEmail + reaction.1.openable ≤ d.openable + sessions

/-- A step that neither signs nor reviews an email. -/
theorem Counts.quiet {reaction : Reaction} {approvals sessions : Nat} (hsigns : reaction.2.countP Report.signs = 0)
    (hreviews : reaction.2.countP Report.showsEmail = 0) (hpending : reaction.1.pending ≤ d.pending)
    (hopenable : reaction.1.openable ≤ d.openable + sessions) : Counts d reaction approvals sessions := by
  refine ⟨?_, ?_, ?_⟩
  · rw [hsigns]
    exact Nat.zero_le _
  · rw [hsigns, hreviews, Nat.zero_add]
    exact hpending
  · rw [hreviews, Nat.zero_add]
    exact hopenable

/-- A GET_PUBLIC_KEY neither signs nor opens an email review. -/
theorem exportKey_counts (sdk : Sdk) (d : Device) (data : List UInt8) (display : Bool) (out : Outcomes) :
    Counts d (d.exportKey sdk data display out) 0 0 := by
  have hclosed : ∀ d' : Device, d'.purpose = .CONFIRM_ADDRESS → d'.openable ≤ d.openable + 0 := by
    intro d' hpurpose
    rw [openable_of_purpose fun h => RequestType.noConfusion (hpurpose.symm.trans h)]
    exact Nat.zero_le _
  unfold Device.exportKey
  cases pathOf data with
  | none => exact .quiet rfl rfl (Nat.le_refl _) (hclosed _ rfl)
  | some words =>
    cases out.derive with
    | some failure => exact .quiet rfl rfl (Nat.le_refl _) (hclosed _ rfl)
    | none =>
      cases out.compress with
      | some failure => exact .quiet rfl rfl (Nat.le_refl _) (hclosed _ rfl)
      | none =>
        dsimp only
        split_ifs
        · exact .quiet rfl rfl (Nat.le_refl _) (hclosed _ rfl)
        · exact .quiet rfl rfl (Nat.le_refl _) (hclosed _ rfl)
        · exact .quiet rfl rfl (Nat.zero_le _) (hclosed _ rfl)

/-- Chunk 0 of SIGN_TX makes one email review possible, and that of SIGN_TOKEN_TX none. -/
theorem start_counts (d : Device) (is_token_tx : Bool) (data : List UInt8) (out : Outcomes) :
    Counts d (d.beginSession (requestType is_token_tx) data out) 0 (!is_token_tx).toNat := by
  obtain ⟨path, sw, heq⟩ := beginSession_eq d (requestType is_token_tx) data out
  rw [heq]
  refine .quiet rfl rfl (Nat.le_refl _) ?_
  cases is_token_tx with
  | false => exact (openable_le_one _).trans (Nat.le_add_left _ _)
  | true =>
    have hclosed : (d.reset (requestType true) path).openable = 0 := openable_of_purpose RequestType.noConfusion
    exact hclosed.le.trans (Nat.zero_le _)

/-- A chunk that opens an email review uses up the one its session could open. -/
theorem receive_counts (sdk : Sdk) (d : Device) (purpose : RequestType) (more : Bool) {chunk : List UInt8}
    (hchunk : chunk ≠ []) (out : Outcomes) : Counts d (d.receive sdk purpose more chunk out) 0 0 := by
  have hreceived := receive_received sdk d purpose more chunk out
  generalize d.receive sdk purpose more chunk out = reaction at hreceived
  cases hreceived with
  | @responded d' sw hscreen hpurpose hstored =>
    have hpending : d'.pending = d.pending := by rw [Device.pending, hscreen, Device.pending]
    exact .quiet rfl rfl hpending.le (openable_le hpurpose hstored)
  | @reviewed d' e hscreen hpurpose hsigns hstored hdecode =>
    obtain ⟨hspent, hbefore⟩ := openable_spent hchunk hsigns hstored hdecode
    have hpending : d'.pending = 1 := by rw [Device.pending, hscreen]
    refine ⟨Nat.le_refl 0, ?_, ?_⟩
    · exact (Nat.zero_add _).le.trans (hpending.le.trans (Nat.le_add_left _ _))
    · change 1 + d'.openable ≤ d.openable + 0
      rw [hspent, hbefore]

/-- An answer signs at most once, only as an approval, and only for a review on the screen. -/
theorem answer_counts (sdk : Sdk) (d : Device) (confirm : Bool) (out : Outcomes) :
    Counts d (d.answer sdk confirm out) confirm.toNat 0 := by
  unfold Device.answer
  cases hscreen : d.screen with
  | none => exact .quiet rfl rfl (Nat.le_refl _) (Nat.le_refl _)
  | some review =>
    cases confirm with
    | false => exact .quiet rfl rfl (Nat.zero_le _) (Nat.le_refl _)
    | true =>
      cases review with
      | address address => exact .quiet rfl rfl (Nat.zero_le _) (Nat.le_refl _)
      | email pairs =>
        have hpending : d.pending = 1 := by rw [Device.pending, hscreen]
        dsimp only
        split_ifs
        · exact ⟨Nat.le_refl 1, hpending.ge, (Nat.zero_add _).le⟩
        · exact ⟨Nat.le_refl 1, hpending.ge, (Nat.zero_add _).le⟩

/-- Every input keeps the account: approvals and opened reviews pay for signatures, and
sessions for reviews. -/
theorem step_counts (sdk : Sdk) (d : Device) (i : Input) :
    Counts d (d.step sdk i) i.approves.toNat i.startsSigning.toNat := by
  have hrespond : ∀ sw data approvals sessions, Counts d (d, [.respond sw data]) approvals sessions :=
    fun _ _ _ _ => .quiet rfl rfl (Nat.le_refl _) (Nat.le_add_right _ _)
  cases i with
  | badLength => exact hrespond _ _ _ _
  | choice confirm out =>
    have hanswer := answer_counts sdk d confirm out
    cases confirm with
    | false => exact hanswer
    | true => exact hanswer
  | apdu cmd out =>
    simp only [Device.step, Input.startsSigning]
    cases hinstruction : cmd.instruction with
    | error sw => exact hrespond _ _ _ _
    | ok instruction =>
      cases instruction with
      | version => exact hrespond _ _ _ _
      | name => exact hrespond _ _ _ _
      | pubkey data display => exact exportKey_counts sdk d data display out
      | start is_token_tx data =>
        have hstart := start_counts d is_token_tx data out
        cases is_token_tx with
        | false => exact hstart
        | true => exact hstart
      | chunk is_token_tx more data =>
        exact receive_counts sdk d (requestType is_token_tx) more (instruction_chunk_ne_nil hinstruction) out
      | token => exact .quiet rfl rfl (Nat.le_refl _) (Nat.le_refl _)

/-- Over every run the application signs no more often than its user has approved, and no
more often than it has shown an email; and it shows no more emails than signing
sessions have been started. -/
theorem signatures_le_sessions (sdk : Sdk) (h : List Input) :
    ((app sdk).emits .init h).countP (·.report.signs) ≤ h.countP Input.approves ∧
      ((app sdk).emits .init h).countP (·.report.signs) ≤ ((app sdk).emits .init h).countP (·.report.showsEmail) ∧
      ((app sdk).emits .init h).countP (·.report.showsEmail) ≤ h.countP Input.startsSigning := by
  have hcount : ∀ p : Report → Bool,
      ((app sdk).emits .init h).countP (p ·.report) = ((device sdk).emits .init h).countP p := by
    intro p
    have hreports : (device sdk).emits .init h = ((app sdk).emits .init h).map Event.report :=
      (app_simulates_device sdk).emits_eq h
    rw [hreports, List.countP_map]
    rfl
  rw [hcount, hcount]
  have happroved := (device sdk).countP_le_inputs Report.signs Input.approves (fun _ => 0)
    (fun d i => (Nat.add_zero _).le.trans ((step_counts sdk d i).approved.trans (Nat.le_add_left _ _))) .init h
  have hreviewed := (device sdk).countP_le_events Report.signs Report.showsEmail Device.pending
    (fun d i => (step_counts sdk d i).reviewed) .init h
  have hstarted := (device sdk).countP_le_inputs Report.showsEmail Input.startsSigning Device.openable
    (fun d i => (step_counts sdk d i).started) .init h
  have hpending : Device.init.pending = 0 := rfl
  have hopenable : Device.init.openable = 0 := openable_of_purpose RequestType.noConfusion
  omega

end hardmail
