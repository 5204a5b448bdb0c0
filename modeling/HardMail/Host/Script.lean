import HardMail.Host.Signing

open memory codec machine

namespace hardmail.host

/-- What one command can carry. -/
abbrev ApduData := { data : List UInt8 // data.length < 256 }

def get_version (backend : BackendInterface) : Call (List UInt8) :=
  backend.exchange CLA GET_VERSION P1_START.toNat P2_LAST []

def get_app_name (backend : BackendInterface) : Call (List UInt8) :=
  backend.exchange CLA GET_APP_NAME P1_START.toNat P2_LAST []

/-- The last command of `provide_dynamic_token`, which sends the descriptor it has built. -/
def provide_dynamic_token (backend : BackendInterface) (payload : List UInt8) : Call (List UInt8) :=
  backend.exchange CLA PROVIDE_TOKEN_INFO 0 0 payload

/-- A call of the client, with the user who answers the reviews it opens. -/
inductive Request where
  | get_version
  | get_app_name
  | get_public_key (path : ApduData)
  | get_public_key_with_confirmation (user : Review → Bool) (path : ApduData)
  | sign_tx (user : Review → Bool) (path : ApduData) (transaction : List UInt8)
  | sign_token_tx (user : Review → Bool) (path : ApduData) (transaction : List UInt8)
  | provide_dynamic_token (payload : ApduData)

/-- The function of the client that a call is of. -/
def Request.call (backend : BackendInterface) : Request → Call (List UInt8)
  | get_version => host.get_version backend
  | get_app_name => host.get_app_name backend
  | get_public_key path => host.get_public_key backend path.val
  | get_public_key_with_confirmation user path => host.get_public_key_with_confirmation backend user path.val
  | sign_tx user path transaction => host.sign_tx backend user path.val transaction
  | sign_token_tx user path transaction => host.sign_token_tx backend user path.val transaction
  | provide_dynamic_token payload => host.provide_dynamic_token backend payload.val

/-- A program that makes calls of the client, and goes on with what they return or raise. -/
abbrev Script (α : Type) := Strategy Request (Except Raised (List UInt8)) α

/-- The moves a script comes to, over a backend. -/
def carryOut {α : Type} (backend : BackendInterface) : Script α → Strategy Move Report α
  | .done a => .done a
  | .send request next => (request.call backend).run.bind fun result => carryOut backend (next [result])

variable {sdk : Sdk} {calls : Nat → Outcomes} {w : Wallet} {cmd : Command} {out : Outcomes} {backend : BackendInterface}

/-- The wallet, as the host and its user reach it. -/
abbrev hostedWallet (sdk : Sdk) (calls : Nat → Outcomes) : Machine (Wallet × Nat) Move Report :=
  (wallet sdk).within (Move.input calls)

/-- The moves that stay in the wallet's protocol. -/
def Allowed (calls : Nat → Outcomes) (s : Wallet × Nat) (move : Move) : Prop := s.1.Expects (move.input calls s.2)

/-- A call that never sends what the wallet does not expect. -/
abbrev Behaves (sdk : Sdk) (calls : Nat → Outcomes) {α : Type} (P : Wallet → Prop) (m : Call α)
    (Q : α → Wallet → Prop) : Prop :=
  Client.Keeps (hostedWallet sdk calls) (Allowed calls) (fun s => P s.1) m (fun a s => Q a s.1)
    fun s => s.1.asking = false

/-- A command of a known instruction is refused, or it asks for what the instruction does. -/
theorem instruction_cases (cmd : Command) {op : Opcode} (hop : Opcode.ofIns cmd.ins = some op) :
    (∃ sw, sw ≠ SWO_SUCCESS ∧ cmd.instruction = .error sw) ∨
      (op.Takes cmd.p1 cmd.p2 ∧ cmd.instruction = .ok (op.instruction cmd)) := by
  by_cases hcla : cmd.cla ≠ CLA
  · exact Or.inl ⟨SWO_INVALID_CLA, by decide, if_pos hcla⟩
  by_cases htakes : ¬ op.Takes cmd.p1 cmd.p2
  · refine Or.inl ⟨SWO_INCORRECT_P1_P2, by decide, ?_⟩
    simp only [Command.instruction, if_neg hcla, hop, if_pos htakes]
  by_cases hdata : op.carriesData = true ∧ cmd.data = []
  · refine Or.inl ⟨SWO_WRONG_DATA_LENGTH, by decide, ?_⟩
    simp only [Command.instruction, if_neg hcla, hop, if_neg htakes, if_pos hdata]
  · right
    refine ⟨not_not.mp htakes, ?_⟩
    simp only [Command.instruction, if_neg hcla, hop, if_neg htakes, if_neg hdata]

/-- While chunks are awaited the user is not asked anything. -/
theorem asking_of_opened (hopened : w.opened = true) : w.asking = false := by
  cases w with
  | receiving is_token_tx path payload => rfl
  | _ => cases hopened

/-- A turn either responds or asks the user something. -/
inductive Reacts (turn : Wallet × List Report) : Prop where
  | responds {sw : UInt16} {data : List UInt8} (hquiet : turn.1.asking = false)
    (hshown : turn.2.findSome? shown = none) (hresponse : turn.2.findSome? response = some (sw, data)) : Reacts turn
  | asks {review : Review} (hasking : turn.1.asking = true) (hshown : turn.2.findSome? shown = some review) :
    Reacts turn

/-- A status word alone leaves the user alone. -/
theorem reacts_reply (hquiet : w.asking = false) (sw : UInt16) : Reacts (w.reply sw) := .responds hquiet rfl rfl

/-- A request of a key is answered, or its address is shown. -/
theorem reacts_exportKey (sdk : Sdk) (data : List UInt8) (display : Bool) (out : Outcomes) :
    Reacts (Wallet.exportKey sdk data display out) := by
  unfold Wallet.exportKey
  cases pathOf data with
  | none => exact reacts_reply rfl _
  | some path =>
    cases out.derive with
    | some failure => exact .responds rfl rfl rfl
    | none =>
      cases out.compress with
      | some failure => exact .responds rfl rfl rfl
      | none =>
        dsimp only
        split_ifs
        · exact .responds rfl rfl rfl
        · exact .responds rfl rfl rfl
        · exact .asks rfl rfl

/-- The last chunk is answered, or its email is shown. -/
theorem reacts_complete (is_token_tx : Bool) (path : List UInt32) (payload : List UInt8) (out : Outcomes) :
    Reacts (Wallet.complete is_token_tx path payload out) := by
  unfold Wallet.complete
  split
  · split_ifs
    · exact reacts_reply rfl _
    · exact reacts_reply rfl _
    · exact .asks rfl rfl
  · exact reacts_reply rfl _

/-- A chunk is answered, or it is the last one and its email is shown. -/
theorem reacts_receive (hquiet : w.asking = false) (is_token_tx more : Bool) (chunk : List UInt8) (out : Outcomes) :
    Reacts (w.receive is_token_tx more chunk out) := by
  cases w with
  | idle => exact reacts_reply rfl _
  | reviewing path e => cases hquiet
  | verifying path => cases hquiet
  | receiving opened path payload =>
    rw [Wallet.receive]
    split_ifs
    · exact reacts_reply rfl _
    · exact reacts_reply rfl _
    · exact reacts_complete is_token_tx path _ out
    · exact reacts_reply rfl _

/-- A command that is sent while no review is open is answered, or it opens one. -/
theorem reacts_apdu (sdk : Sdk) (hquiet : w.asking = false) (cmd : Command) (out : Outcomes) :
    Reacts (w.step sdk (.apdu cmd out)) := by
  rw [Wallet.step]
  cases cmd.instruction with
  | error sw => exact reacts_reply hquiet sw
  | ok instruction =>
    cases instruction with
    | version => exact .responds hquiet rfl rfl
    | name => exact .responds hquiet rfl rfl
    | token => exact reacts_reply hquiet _
    | pubkey data display => exact reacts_exportKey sdk data display out
    | chunk is_token_tx more data => exact reacts_receive hquiet is_token_tx more data out
    | start is_token_tx data =>
      simp only [Wallet.obey]
      cases pathOf data with
      | none => exact reacts_reply rfl _
      | some path => exact reacts_reply rfl _

/-- The answer to a review is a response. -/
theorem responds_answer (sdk : Sdk) (hasking : w.asking = true) (confirm : Bool) (out : Outcomes) :
    ∃ sw data, (w.answer sdk confirm out).1.asking = false ∧
      (w.answer sdk confirm out).2.findSome? response = some (sw, data) := by
  cases w with
  | idle => cases hasking
  | receiving is_token_tx path payload => cases hasking
  | verifying path => cases confirm <;> exact ⟨_, _, rfl, rfl⟩
  | reviewing path e =>
    cases confirm with
    | false => exact ⟨_, _, rfl, rfl⟩
    | true =>
      simp only [Wallet.answer]
      split_ifs
      · contradiction
      · exact ⟨_, _, rfl, rfl⟩
      · exact ⟨_, _, rfl, rfl⟩

/-- A move of the protocol is a step of the wallet. -/
theorem send_behaves {P : Wallet → Prop} {move : Move}
    (hexpects : ∀ w n, P w → w.Expects (move.input calls n)) :
    Behaves sdk calls P (send move) fun reports w' =>
      ∃ w n, P w ∧ w.step sdk (move.input calls n) = (w', reports) :=
  fun s hs => ⟨⟨hexpects s.1 s.2 hs, trivial⟩, s.1, s.2, hs, rfl⟩

/-- The answer to a review is in the protocol, and it is responded to. -/
theorem answer_behaves (confirm : Bool) :
    Behaves sdk calls (·.asking = true) (send (.answer confirm)) fun reports w =>
      w.asking = false ∧ ∃ sw data, reports.findSome? response = some (sw, data) := by
  have hsend : Behaves sdk calls (·.asking = true) (send (.answer confirm)) _ := send_behaves fun _ _ _ => trivial
  refine hsend.conseq (fun _ h => h) ?_
  rintro reports s ⟨w, n, hasking, hturn⟩
  obtain ⟨sw, data, hquiet, hresponse⟩ := responds_answer sdk hasking confirm (calls n)
  change w.answer sdk confirm (calls n) = _ at hturn
  rw [hturn] at hquiet hresponse
  exact ⟨hquiet, sw, data, hresponse⟩

/-- A wait for a response that has come sends nothing. -/
theorem receive_behaves {P : Wallet → Prop} (hquiet : ∀ w, P w → w.asking = false)
    {receive : List Report → Call (List UInt8)} (hreceive : Receives receive) {reports : List Report}
    (hresponse : ∀ w, P w → ∃ sw data, reports.findSome? response = some (sw, data)) :
    Behaves sdk calls P (receive reports) fun _ w =>
      P w ∧ ∃ data, reports.findSome? response = some (SWO_SUCCESS, data) := by
  intro s hs
  obtain ⟨sw, data, hresponse⟩ := hresponse s.1 hs
  by_cases hsw : sw = SWO_SUCCESS
  · rw [hsw] at hresponse
    rw [hreceive reports _ (.success hresponse)]
    exact ⟨trivial, hs, data, hresponse⟩
  · rw [hreceive reports _ (.refusal hresponse hsw)]
    exact ⟨trivial, hquiet s.1 hs⟩

/-- A command that opens no review. -/
theorem exchange_behaves (hbackend : backend.Documented) {P Q : Wallet → Prop} (hquiet : ∀ w, P w → w.asking = false)
    {ins p2 : UInt8} {p1 : Nat} (hp1 : p1 < 256) {data : List UInt8} (hdata : data.length < 256)
    (hstep : ∀ w out, P w → w.Expects (.apdu ⟨CLA, ins, UInt8.ofNat p1, p2, data, hdata⟩ out) ∧
      ∀ w' reports, w.step sdk (.apdu ⟨CLA, ins, UInt8.ofNat p1, p2, data, hdata⟩ out) = (w', reports) →
        w'.asking = false ∧ ∀ result, reports.findSome? response = some (SWO_SUCCESS, result) → Q w') :
    Behaves sdk calls P (backend.exchange CLA ins p1 p2 data) fun _ w => Q w := by
  obtain ⟨receive, hreceive, heq⟩ := hbackend.exchange_eq CLA ins p2 p1 data hp1 hdata
  rw [heq]
  have hsend : Behaves sdk calls P (send (.command ⟨CLA, ins, UInt8.ofNat p1, p2, data, hdata⟩)) _ :=
    send_behaves fun w n hw => (hstep w (calls n) hw).1
  refine hsend.bind fun reports => ?_
  refine (receive_behaves (P := fun w' => ∃ w n, P w ∧ w.step sdk (.apdu ⟨CLA, ins, UInt8.ofNat p1, p2, data, hdata⟩
    (calls n)) = (w', reports)) ?_ hreceive ?_).conseq (fun s hs => hs) ?_
  · rintro w' ⟨w, n, hw, hturn⟩
    exact ((hstep w (calls n) hw).2 w' reports hturn).1
  · rintro w' ⟨w, n, hw, hturn⟩
    have hreacts := reacts_apdu sdk (hquiet w hw) ⟨CLA, ins, UInt8.ofNat p1, p2, data, hdata⟩ (calls n)
    have hasking := ((hstep w (calls n) hw).2 w' reports hturn).1
    rw [hturn] at hreacts
    cases hreacts with
    | responds _ _ hresponse => exact ⟨_, _, hresponse⟩
    | asks hasks => exact Bool.noConfusion (hasking.symm.trans hasks)
  · rintro _ s ⟨⟨w, n, hw, hturn⟩, result, hresponse⟩
    exact ((hstep w (calls n) hw).2 s.1 reports hturn).2 result hresponse

/-- A command whose review, if it opens one, the user answers. -/
theorem exchange_async_behaves (hbackend : backend.Documented) (user : Review → Bool) {P : Wallet → Prop}
    (hquiet : ∀ w, P w → w.asking = false) (ins p2 : UInt8) {p1 : Nat} (hp1 : p1 < 256) {data : List UInt8}
    (hdata : data.length < 256)
    (hcontinues : ∀ w (cmd : Command), P w → cmd.ins = ins → cmd.continues = true → w.opened = true) :
    Behaves sdk calls P (backend.exchange_async user CLA ins p1 p2 data) fun _ w => w.asking = false := by
  obtain ⟨receive, hreceive, heq⟩ := hbackend.exchange_async_eq user CLA ins p2 p1 data hp1 hdata
  rw [heq]
  have hsend : Behaves sdk calls P (send (.command ⟨CLA, ins, UInt8.ofNat p1, p2, data, hdata⟩)) _ :=
    send_behaves fun w n hw => ⟨hquiet w hw, hcontinues w _ hw rfl⟩
  refine hsend.bind fun reports => ?_
  have hreacts : ∀ w', (∃ w n, P w ∧ w.step sdk ((Move.command ⟨CLA, ins, UInt8.ofNat p1, p2, data, hdata⟩).input calls
      n) = (w', reports)) → Reacts (w', reports) := by
    rintro w' ⟨w, n, hw, hturn⟩
    rw [← hturn]
    exact reacts_apdu sdk (hquiet w hw) _ (calls n)
  cases hshown : reports.findSome? shown with
  | none =>
    refine (receive_behaves (P := fun w => Reacts (w, reports)) ?_ hreceive ?_).conseq (fun s hs => hreacts s.1 hs) ?_
    · rintro w (⟨hquiet, -, -⟩ | ⟨-, hsome⟩)
      · exact hquiet
      · rw [hshown] at hsome
        cases hsome
    · rintro w (⟨-, -, hresponse⟩ | ⟨-, hsome⟩)
      · exact ⟨_, _, hresponse⟩
      · rw [hshown] at hsome
        cases hsome
    · rintro _ s ⟨⟨hquiet, -, -⟩ | ⟨-, hsome⟩, -⟩
      · exact hquiet
      · rw [hshown] at hsome
        cases hsome
  | some review =>
    have hasking : ∀ w', Reacts (w', reports) → w'.asking = true := by
      rintro w' (⟨-, hnone, -⟩ | ⟨hasking, -⟩)
      · rw [hshown] at hnone
        cases hnone
      · exact hasking
    have hanswered : ∀ answered, Behaves sdk calls
        (fun w => w.asking = false ∧ ∃ sw data, answered.findSome? response = some (sw, data)) (receive answered)
        fun _ w => w.asking = false := by
      intro answered
      have hreceived : Behaves sdk calls
          (fun w => w.asking = false ∧ ∃ sw data, answered.findSome? response = some (sw, data)) (receive answered) _ :=
        receive_behaves (fun _ h => h.1) hreceive fun _ h => h.2
      exact hreceived.conseq (fun _ h => h) fun _ _ h => h.1.1
    have hreviewed := (answer_behaves (user review)).bind hanswered
    exact hreviewed.conseq (fun s hs => hasking s.1 (hreacts s.1 hs)) fun _ _ h => h

/-- A command that is refused for its form goes on with no session. -/
theorem not_continues_of_error {sw : UInt16} (h : cmd.instruction = .error sw) : cmd.continues = false := by
  rw [Command.continues, h]

/-- Only the commands of the signing instructions go on with a session. -/
theorem not_continues (cmd : Command) {op : Opcode} (hop : Opcode.ofIns cmd.ins = some op)
    (hsign : ∀ is_token_tx, op ≠ .sign is_token_tx) :
    cmd.continues = false := by
  obtain ⟨sw, -, herror⟩ | ⟨-, hok⟩ := instruction_cases cmd hop
  · exact not_continues_of_error herror
  · rw [Command.continues, hok]
    cases op with
    | sign is_token_tx => exact absurd rfl (hsign is_token_tx)
    | _ => rfl

/-- A command of an instruction that leaves the user alone. -/
theorem plain_behaves (hbackend : backend.Documented) {ins : UInt8} {op : Opcode} (hop : Opcode.ofIns ins = some op)
    (hsign : ∀ is_token_tx, op ≠ .sign is_token_tx) {p1 : Nat} (hp1 : p1 < 256) (p2 : UInt8) {data : List UInt8}
    (hdata : data.length < 256)
    (hobey : ∀ (w : Wallet) (cmd : Command) out, cmd.p1 = UInt8.ofNat p1 → w.asking = false →
      (w.obey sdk out (op.instruction cmd)).1.asking = false) :
    Behaves sdk calls (·.asking = false) (backend.exchange CLA ins p1 p2 data) fun _ w => w.asking = false := by
  refine exchange_behaves hbackend (fun _ h => h) hp1 hdata fun w out hquiet => ?_
  have hcontinues := not_continues ⟨CLA, ins, UInt8.ofNat p1, p2, data, hdata⟩ hop hsign
  refine ⟨⟨hquiet, fun h => Bool.noConfusion (hcontinues.symm.trans h)⟩, fun w' reports hturn => ?_⟩
  have hasking : w'.asking = false := by
    rw [Wallet.step] at hturn
    obtain ⟨sw, -, herror⟩ | ⟨-, hok⟩ := instruction_cases ⟨CLA, ins, UInt8.ofNat p1, p2, data, hdata⟩ hop
    · rw [herror] at hturn
      cases hturn
      exact hquiet
    · rw [hok] at hturn
      have hobeyed := hobey w ⟨CLA, ins, UInt8.ofNat p1, p2, data, hdata⟩ out rfl hquiet
      dsimp only at hturn
      rwa [hturn] at hobeyed
  exact ⟨hasking, fun _ _ => hasking⟩

/-- A key that is asked for without a confirmation opens no review. -/
theorem quiet_exportKey (sdk : Sdk) (data : List UInt8) (out : Outcomes) :
    (Wallet.exportKey sdk data false out).1.asking = false := by
  unfold Wallet.exportKey
  cases pathOf data with
  | none => rfl
  | some path =>
    cases out.derive with
    | some failure => rfl
    | none => cases out.compress <;> rfl

/-- What a session is left in by a chunk that is not its last. -/
theorem opened_receive (hopened : w.opened = true) (is_token_tx : Bool) (chunk : List UInt8) (out : Outcomes) :
    (w.receive is_token_tx true chunk out).1.opened = true := by
  cases w with
  | receiving opened path payload =>
    rw [Wallet.receive, if_pos rfl]
    split_ifs <;> rfl
  | _ => cases hopened

/-- The index of a session's command that is not refused is within the bound. -/
theorem idx_le_of_takes {is_token_tx : Bool} {p1 : Nat} {p2 : UInt8} (hp1 : p1 < 256)
    (htakes : (Opcode.sign is_token_tx).Takes (UInt8.ofNat p1) p2) : p1 ≤ 16 := by
  have hle := htakes.1
  rwa [UInt8.le_iff_toNat_le, UInt8.toNat_ofNat_of_lt' hp1] at hle

/-- The commands of a session before its last chunk. Chunk 0 opens the session if it
succeeds, and no command succeeds whose index is above the bound. -/
theorem sign_more_behaves (hbackend : backend.Documented) (is_token_tx : Bool) {P : Wallet → Prop} {p1 : Nat}
    (hp1 : p1 < 256) {data : List UInt8} (hdata : data.length < 256) (hquiet : ∀ w, P w → w.asking = false)
    (hopened : ∀ w, P w → UInt8.ofNat p1 ≠ P1_START → w.opened = true) :
    Behaves sdk calls P (backend.exchange CLA (signIns is_token_tx) p1 P2_MORE data) fun _ w =>
      w.opened = true ∧ p1 ≤ 16 := by
  refine exchange_behaves hbackend hquiet hp1 hdata fun w out hw => ?_
  have hcases := instruction_cases ⟨CLA, signIns is_token_tx, UInt8.ofNat p1, P2_MORE, data, hdata⟩
    (ofIns_signIns is_token_tx)
  simp only [Opcode.instruction, decide_true] at hcases
  rw [Wallet.step, Wallet.Expects, Command.continues]
  obtain ⟨sw, hsw, herror⟩ | ⟨htakes, hok⟩ := hcases
  · rw [herror]
    refine ⟨⟨hquiet w hw, fun h => Bool.noConfusion h⟩, fun w' reports hturn => ?_⟩
    cases hturn
    refine ⟨hquiet w hw, fun result hresponse => ?_⟩
    cases hresponse
    exact absurd rfl hsw
  · have hbound := idx_le_of_takes hp1 htakes
    rw [hok]
    by_cases hstart : UInt8.ofNat p1 = P1_START
    · rw [if_pos hstart]
      refine ⟨⟨hquiet w hw, fun h => Bool.noConfusion h⟩, fun w' reports hturn => ?_⟩
      simp only [Wallet.obey] at hturn
      cases hpath : pathOf data with
      | none =>
        rw [hpath] at hturn
        cases hturn
        refine ⟨rfl, fun result hresponse => ?_⟩
        cases hresponse
      | some path =>
        rw [hpath] at hturn
        cases hturn
        exact ⟨rfl, fun _ _ => ⟨rfl, hbound⟩⟩
    · rw [if_neg hstart]
      have hopen := hopened w hw hstart
      refine ⟨⟨hquiet w hw, fun _ => hopen⟩, fun w' reports hturn => ?_⟩
      have hreceive := opened_receive hopen is_token_tx data out
      change w.receive is_token_tx true data out = _ at hturn
      rw [hturn] at hreceive
      exact ⟨asking_of_opened hreceive, fun _ _ => ⟨hreceive, hbound⟩⟩

/-- The messages of a session. A message is sent only when the one before it has not been
refused, so that the indices stay bytes however many messages there are. -/
theorem sign_messages_behaves (hbackend : backend.Documented) (user : Review → Bool) (is_token_tx : Bool)
    {messages : List (List UInt8)} (hmessages : ∀ msg ∈ messages, msg.length < 256) {idx : Nat} (hidx : idx ≤ 17) :
    Behaves sdk calls (·.opened = true) (sign_messages backend user (signIns is_token_tx) messages idx)
      fun _ w => w.asking = false := by
  induction messages generalizing idx with
  | nil =>
    rw [sign_messages_nil]
    exact .throw fun s hs => asking_of_opened hs
  | cons msg messages ih =>
    have hmsg := hmessages msg List.mem_cons_self
    have hp1 : idx < 256 := Nat.lt_of_le_of_lt hidx (by decide)
    by_cases hlast : messages = []
    · rw [hlast, sign_messages_singleton]
      exact exchange_async_behaves hbackend user (fun _ h => asking_of_opened h) _ _ hp1 hmsg fun _ _ h _ _ => h
    · rw [sign_messages_cons backend user _ _ hlast]
      have hsent : Behaves sdk calls (·.opened = true) (backend.exchange CLA (signIns is_token_tx) idx P2_MORE msg)
          fun _ w => w.opened = true ∧ idx ≤ 16 :=
        sign_more_behaves hbackend is_token_tx hp1 hmsg (fun _ h => asking_of_opened h) fun _ h _ => h
      refine hsent.bind fun _ => ?_
      by_cases hbound : idx ≤ 16
      · have hrest := ih (fun m hm => hmessages m (List.mem_cons_of_mem _ hm)) (Nat.succ_le_succ hbound)
        exact hrest.conseq (fun s hs => hs.1) fun _ _ h => h
      · exact fun s hs => absurd hs.2 hbound

/-- The parts of a payload fit one command each. -/
theorem split_message_length_lt {message msg : List UInt8} (hmsg : msg ∈ split_message message MAX_APDU_LEN) :
    msg.length < 256 := by
  obtain ⟨i, -, rfl⟩ := List.mem_map.mp hmsg
  exact Nat.lt_succ_of_le (slice_length_le _ _ _)

/-- `_sign_transaction` stays in the protocol whatever it is given to sign. -/
theorem sign_transaction_behaves (hbackend : backend.Documented) (user : Review → Bool) (is_token_tx : Bool)
    (path : ApduData) (transaction : List UInt8) :
    Behaves sdk calls (·.asking = false) (sign_transaction backend user (signIns is_token_tx) path.val transaction)
      fun _ w => w.asking = false := by
  have hstart : Behaves sdk calls (·.asking = false)
      (backend.exchange CLA (signIns is_token_tx) P1_START.toNat P2_MORE path.val) fun _ w =>
        w.opened = true ∧ P1_START.toNat ≤ 16 :=
    sign_more_behaves hbackend is_token_tx (by decide) path.property (fun _ h => h) fun _ _ hne => absurd rfl hne
  have hmessages : Behaves sdk calls (·.opened = true)
      (sign_messages backend user (signIns is_token_tx) (split_message transaction MAX_APDU_LEN) (P1_START.toNat + 1))
      fun _ w => w.asking = false :=
    sign_messages_behaves hbackend user is_token_tx (fun _ => split_message_length_lt) (by decide)
  exact hstart.bind fun _ => hmessages.conseq (fun s hs => hs.1) fun _ _ h => h

/-- Every call of the client stays in the protocol, and leaves no review open. -/
theorem Request.call_behaves (hbackend : backend.Documented) (request : Request) :
    Behaves sdk calls (·.asking = false) (request.call backend) fun _ w => w.asking = false := by
  cases request with
  | get_version =>
    have hop : Opcode.ofIns GET_VERSION = some .version := rfl
    exact plain_behaves hbackend hop (fun _ => Opcode.noConfusion) (by decide) _ (by decide)
      fun _ _ _ _ hquiet => hquiet
  | get_app_name =>
    have hop : Opcode.ofIns GET_APP_NAME = some .name := rfl
    exact plain_behaves hbackend hop (fun _ => Opcode.noConfusion) (by decide) _ (by decide)
      fun _ _ _ _ hquiet => hquiet
  | provide_dynamic_token payload =>
    have hop : Opcode.ofIns PROVIDE_TOKEN_INFO = some .token := rfl
    exact plain_behaves hbackend hop (fun _ => Opcode.noConfusion) (by decide) _ payload.property
      fun _ _ _ _ hquiet => hquiet
  | get_public_key path =>
    refine plain_behaves hbackend rfl (fun _ => Opcode.noConfusion) (by decide) _ path.property
      fun w cmd out hp1 _ => ?_
    have hdisplay : decide (cmd.p1 ≠ 0) = false := by rw [hp1]; rfl
    simp only [Opcode.instruction, hdisplay]
    exact quiet_exportKey sdk cmd.data out
  | get_public_key_with_confirmation user path =>
    refine exchange_async_behaves hbackend user (fun _ h => h) _ _ (by decide) path.property
      fun w cmd _ hins hcontinues => ?_
    have hop : Opcode.ofIns cmd.ins = some .pubkey := by rw [hins]; rfl
    have hnever := not_continues cmd hop fun _ => Opcode.noConfusion
    exact Bool.noConfusion (hnever.symm.trans hcontinues)
  | sign_tx user path transaction => exact sign_transaction_behaves hbackend user false path transaction
  | sign_token_tx user path transaction => exact sign_transaction_behaves hbackend user true path transaction

/-- No script of client calls sends what the wallet does not expect. -/
theorem carryOut_obeys {α : Type} (hbackend : backend.Documented) (sdk : Sdk) (calls : Nat → Outcomes)
    (script : Script α) {s : Wallet × Nat} (hquiet : s.1.asking = false) :
    (carryOut backend script).Obeys (hostedWallet sdk calls) (Allowed calls) s := by
  induction script generalizing s with
  | done a => trivial
  | send request next ih =>
    obtain ⟨hobeys, hend⟩ := request.call_behaves hbackend s hquiet
    refine Strategy.obeys_bind hobeys (ih _ ?_)
    cases hplay : (request.call backend).run.play (hostedWallet sdk calls) s with
    | mk result t =>
      rw [hplay] at hend
      cases result with
      | ok data => exact hend
      | error e => exact hend

/-- A script of client calls never leaves the wallet's protocol. Whatever it makes of what
the calls return or raise, it gets from the application what it would get from the wallet,
and the user is shown and the seed asked the same. -/
theorem script_is_wallet {α : Type} (hbackend : backend.Documented) (sdk : Sdk) (calls : Nat → Outcomes)
    (script : Script α) :
    (carryOut backend script).Obeys (hostedWallet sdk calls) (Allowed calls) (.idle, 0) ∧
      ((carryOut backend script).play (hostedApp sdk calls) (.init, 0)).1 =
        ((carryOut backend script).play (hostedWallet sdk calls) (.idle, 0)).1 ∧
      (carryOut backend script).emits (hostedApp sdk calls) (.init, 0) =
        (carryOut backend script).emits (hostedWallet sdk calls) (.idle, 0) := by
  have hobeys := carryOut_obeys hbackend sdk calls script (s := (.idle, 0)) rfl
  have hstep : ∀ s t move, (Runs sdk s.1 t.1 ∧ s.2 = t.2) → Allowed calls t move →
      (Runs sdk ((hostedApp sdk calls).step s move).1.1 ((hostedWallet sdk calls).step t move).1.1 ∧
        ((hostedApp sdk calls).step s move).1.2 = ((hostedWallet sdk calls).step t move).1.2) ∧
        ((hostedWallet sdk calls).step t move).2 = ((hostedApp sdk calls).step s move).2 := by
    rintro ⟨s, n⟩ ⟨w, m⟩ move ⟨hruns, hturn⟩ hallowed
    dsimp only at hturn
    subst hturn
    obtain ⟨hnext, hreports⟩ := hruns.step hallowed
    exact ⟨⟨hnext, rfl⟩, hreports⟩
  exact ⟨hobeys, Strategy.play_of_obeys hstep ⟨runs_init sdk, rfl⟩ hobeys⟩

/-- A script that signs an email, and goes on with a key if that has been approved. -/
def signThenKey : Script (List (Except Raised (List UInt8))) :=
  .send (.sign_tx (fun _ => true) ⟨[1, 0, 0, 0, 12], by decide⟩ hardmail.Email.smallest.wire) fun results =>
    .send (.get_public_key_with_confirmation (fun _ => false) ⟨[1, 0, 0, 0, 12], by decide⟩) fun more =>
      .done (results ++ more)

/-- Over a direct connection that script gets from the application what it gets from the
wallet. -/
theorem signThenKey_is_wallet :
    (carryOut direct signThenKey).Obeys (hostedWallet .sample fun _ => .success) (Allowed fun _ => .success)
        (.idle, 0) ∧
      ((carryOut direct signThenKey).play (hostedApp .sample fun _ => .success) (.init, 0)).1 =
        ((carryOut direct signThenKey).play (hostedWallet .sample fun _ => .success) (.idle, 0)).1 ∧
      (carryOut direct signThenKey).emits (hostedApp .sample fun _ => .success) (.init, 0) =
        (carryOut direct signThenKey).emits (hostedWallet .sample fun _ => .success) (.idle, 0) :=
  script_is_wallet direct_documented .sample (fun _ => .success) signThenKey

end hardmail.host
