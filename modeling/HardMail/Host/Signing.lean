import HardMail.Device.Wallet
import HardMail.Host.Client

open memory codec machine

namespace hardmail.host

variable {sdk : Sdk} {calls : Nat → Outcomes} {d d' : Device} {n : Nat} {words : List UInt32}
  {backend : BackendInterface}

/-- The device, as the host and its user reach it. -/
abbrev hostedDevice (sdk : Sdk) (calls : Nat → Outcomes) : Machine (Device × Nat) Move Report :=
  (device sdk).within (Move.input calls)

/-- The application, as the host and its user reach it. -/
abbrev hostedApp (sdk : Sdk) (calls : Nat → Outcomes) : Machine (AppState × Nat) Move Report :=
  ((app sdk).within (Move.input calls)).report Event.report

/-- A host that finds the application in a state a run has led to gets from it what it
would get from the device. -/
theorem play_app_eq {α : Type} (sdk : Sdk) (calls : Nat → Outcomes) (h : List Input) (n : Nat) (call : Call α) :
    (call.run.play (hostedApp sdk calls) ((app sdk).run h, n)).1 =
      (call.run.play (hostedDevice sdk calls) ((device sdk).run h, n)).1 :=
  (((app_simulates_device sdk).within (Move.input calls)).play_eq
    ⟨(app_simulates_device sdk).run h, rfl⟩ call.run).1

/-- A result that is passed on is what the call ends with. -/
theorem ofExcept_ends {σ α : Type} {M : Machine σ Move Report} {s : σ} {result value : Except Raised α}
    (h : value = result) : Client.Ends M s (MonadExcept.ofExcept value) result s := by
  subst h
  cases value with
  | error e => exact Client.ends_throw _
  | ok a => exact Client.ends_pure _

/-- A wait ends with what the response says. -/
theorem Receives.ends {σ : Type} {M : Machine σ Move Report} {s : σ} {receive : List Report → Call (List UInt8)}
    (h : Receives receive) {reports : List Report} {result : Except Raised (List UInt8)}
    (hresponds : Responds reports result) : Client.Ends M s (receive reports) result s := by
  rw [h reports result hresponds]
  exact ofExcept_ends rfl

/-- A move takes the device one step, in the turn whose number it is. -/
theorem send_ends {move : Move} {reports : List Report} (hstep : d.step sdk (move.input calls n) = (d', reports)) :
    Client.Ends (hostedDevice sdk calls) (d, n) (send move) (.ok reports) (d', n + 1) := by
  have hplay : (send move).run.play (hostedDevice sdk calls) (d, n) =
      (.ok (d.step sdk (move.input calls n)).2, (d.step sdk (move.input calls n)).1, n + 1) := rfl
  rw [Client.Ends, hplay, hstep]

/-- A command that is answered at once. -/
theorem exchange_ends (hbackend : backend.Documented) {ins p2 : UInt8} {p1 : Nat} {data : List UInt8} (hp1 : p1 < 256)
    (hdata : data.length < 256) {reports : List Report} {result : Except Raised (List UInt8)}
    (hstep : d.step sdk (.apdu ⟨CLA, ins, UInt8.ofNat p1, p2, data, hdata⟩ (calls n)) = (d', reports))
    (hresponds : Responds reports result) :
    Client.Ends (hostedDevice sdk calls) (d, n) (backend.exchange CLA ins p1 p2 data) result (d', n + 1) := by
  obtain ⟨receive, hreceive, heq⟩ := hbackend.exchange_eq CLA ins p2 p1 data hp1 hdata
  rw [heq]
  have hsend : Client.Ends (hostedDevice sdk calls) (d, n)
      (send (.command ⟨CLA, ins, UInt8.ofNat p1, p2, data, hdata⟩)) (.ok reports) (d', n + 1) := send_ends hstep
  exact hsend.bind_ok (hreceive.ends hresponds)

/-- A command that opens no review, though the user waits for one. -/
theorem exchange_async_ends (hbackend : backend.Documented) (user : Review → Bool) {ins p2 : UInt8} {p1 : Nat}
    {data : List UInt8} (hp1 : p1 < 256) (hdata : data.length < 256) {reports : List Report}
    {result : Except Raised (List UInt8)}
    (hstep : d.step sdk (.apdu ⟨CLA, ins, UInt8.ofNat p1, p2, data, hdata⟩ (calls n)) = (d', reports))
    (hshown : reports.findSome? shown = none) (hresponds : Responds reports result) :
    Client.Ends (hostedDevice sdk calls) (d, n) (backend.exchange_async user CLA ins p1 p2 data) result
      (d', n + 1) := by
  obtain ⟨receive, hreceive, heq⟩ := hbackend.exchange_async_eq user CLA ins p2 p1 data hp1 hdata
  rw [heq]
  have hsend : Client.Ends (hostedDevice sdk calls) (d, n)
      (send (.command ⟨CLA, ins, UInt8.ofNat p1, p2, data, hdata⟩)) (.ok reports) (d', n + 1) := send_ends hstep
  refine hsend.bind_ok ?_
  rw [hshown]
  exact hreceive.ends hresponds

/-- A command whose review the user answers. -/
theorem exchange_async_reviewed (hbackend : backend.Documented) (user : Review → Bool) {ins p2 : UInt8} {p1 : Nat}
    {data : List UInt8} (hp1 : p1 < 256) (hdata : data.length < 256) {reports : List Report} {review : Review}
    {result : Except Raised (List UInt8)} {t : Device × Nat}
    (hstep : d.step sdk (.apdu ⟨CLA, ins, UInt8.ofNat p1, p2, data, hdata⟩ (calls n)) = (d', reports))
    (hshown : reports.findSome? shown = some review)
    (hanswer : ∀ receive, Receives receive →
      Client.Ends (hostedDevice sdk calls) (d', n + 1) (send (.answer (user review)) >>= receive) result t) :
    Client.Ends (hostedDevice sdk calls) (d, n) (backend.exchange_async user CLA ins p1 p2 data) result t := by
  obtain ⟨receive, hreceive, heq⟩ := hbackend.exchange_async_eq user CLA ins p2 p1 data hp1 hdata
  rw [heq]
  have hsend : Client.Ends (hostedDevice sdk calls) (d, n)
      (send (.command ⟨CLA, ins, UInt8.ofNat p1, p2, data, hdata⟩)) (.ok reports) (d', n + 1) := send_ends hstep
  refine hsend.bind_ok ?_
  rw [hshown]
  exact hanswer receive hreceive

/-- The answer to the review of an email, for a device that holds a well-formed path. -/
theorem answer_email_ends (sdk : Sdk) (calls : Nat → Outcomes) (n : Nat) {pairs : List (String × List UInt8)}
    (hscreen : d.screen = some (.email pairs)) (hpath : d.path = .of words) (hwords : words.length ≤ MAX_BIP32_PATH)
    (confirm : Bool) :
    ∃ t, ∀ receive, Receives receive → Client.Ends (hostedDevice sdk calls) (d, n) (send (.answer confirm) >>= receive)
      (if !confirm then .error (.ExceptionRAPDU SWO_CONDITIONS_NOT_SATISFIED)
        else if (calls n).sign.isSome then .error (.ExceptionRAPDU SWO_SECURITY_ISSUE)
        else .ok (signatureText (sdk.bip32_derive_eddsa_sign_hash_256 words d.digest))) t := by
  have hanswer : d.step sdk ((Move.answer confirm).input calls n) = d.answer sdk confirm (calls n) := rfl
  cases confirm with
  | false =>
    simp only [Device.answer, hscreen] at hanswer
    exact ⟨_, fun receive hreceive => (send_ends hanswer).bind_ok (hreceive.ends (.refusal rfl (by decide)))⟩
  | true =>
    cases hsign : (calls n).sign with
    | some failure =>
      simp only [Device.answer, hscreen, hsign, Option.isSome_some, if_true] at hanswer
      exact ⟨_, fun receive hreceive => (send_ends hanswer).bind_ok (hreceive.ends (.refusal rfl (by decide)))⟩
    | none =>
      simp only [Device.answer, hscreen, hsign, Option.isSome_none, Bool.false_eq_true, if_false, hpath,
        Sdk.sign_of _ _ hwords] at hanswer
      exact ⟨_, fun receive hreceive => (send_ends hanswer).bind_ok (hreceive.ends (.success rfl))⟩

/-- An empty message has no parts. -/
theorem split_message_nil (max_size : Nat) (hmax : 0 < max_size) : split_message [] max_size = [] := by
  have hcount : (([] : List UInt8).length + max_size - 1) / max_size = 0 := by
    apply Nat.div_eq_of_lt
    simp only [List.length_nil]
    omega
  rw [split_message, hcount, List.range_zero, List.map_nil]

/-- The first part of a message is its beginning, and the others are the parts of what
follows. -/
theorem split_message_eq {message : List UInt8} {max_size : Nat} (hmax : 0 < max_size) (hne : message ≠ []) :
    split_message message max_size = message.take max_size :: split_message (message.drop max_size) max_size := by
  have hpos := List.length_pos_iff.mpr hne
  have hcount : (message.length + max_size - 1) / max_size =
      (message.length - max_size + max_size - 1) / max_size + 1 := by
    rw [← Nat.add_div_right _ hmax]
    by_cases hle : max_size ≤ message.length
    · congr 1
      omega
    · have hless : message.length - max_size = 0 := by omega
      rw [hless, Nat.zero_add]
      rw [Nat.div_eq_of_lt_le (k := 1) (by omega) (by omega), Nat.div_eq_of_lt_le (k := 1) (by omega) (by omega)]
  rw [split_message, hcount, List.range_succ_eq_map, List.map_cons, List.map_map, split_message, List.length_drop,
    Nat.zero_mul, slice_zero]
  congr 1
  apply List.map_congr_left
  intro i _
  simp only [Function.comp_apply, slice, List.drop_drop, Nat.succ_eq_add_one, Nat.add_mul, Nat.one_mul]
  rw [Nat.add_comm]

/-- A message that is not empty has a part. -/
theorem split_message_ne_nil {message : List UInt8} {max_size : Nat} (hmax : 0 < max_size) (hne : message ≠ []) :
    split_message message max_size ≠ [] := by
  rw [split_message_eq hmax hne]
  exact List.cons_ne_nil _ _

/-- A message is sent whole, or behind a first part of the full size. -/
theorem split_message_cases {message : List UInt8} {max_size : Nat} (hmax : 0 < max_size) (hne : message ≠ []) :
    (message.length ≤ max_size ∧ split_message message max_size = [message]) ∨
    ∃ head rest, message = head ++ rest ∧ head.length = max_size ∧ rest ≠ [] ∧
      split_message message max_size = head :: split_message rest max_size := by
  rw [split_message_eq hmax hne]
  by_cases hle : message.length ≤ max_size
  · left
    rw [List.take_of_length_le hle, List.drop_of_length_le hle, split_message_nil _ hmax]
    exact ⟨hle, rfl⟩
  · right
    refine ⟨message.take max_size, message.drop max_size, (List.take_append_drop _ _).symm, ?_, ?_, rfl⟩
    · rw [List.length_take]
      omega
    · apply List.ne_nil_of_length_pos
      rw [List.length_drop]
      omega

/-- There is no last message to send of an empty payload. -/
theorem sign_messages_nil (backend : BackendInterface) (user : Review → Bool) (ins : UInt8) (idx : Nat) :
    sign_messages backend user ins [] idx = throw .IndexError := by
  simp [sign_messages]

/-- The last message is sent with the user behind the screen. -/
theorem sign_messages_singleton (backend : BackendInterface) (user : Review → Bool) (ins : UInt8) (msg : List UInt8)
    (idx : Nat) :
    sign_messages backend user ins [msg] idx = backend.exchange_async user CLA ins idx P2_LAST msg := by
  simp [sign_messages]

/-- Every other message is sent on its own, and the index goes up by one. -/
theorem sign_messages_cons (backend : BackendInterface) (user : Review → Bool) (ins : UInt8) (msg : List UInt8)
    {messages : List (List UInt8)} (hne : messages ≠ []) (idx : Nat) :
    sign_messages backend user ins (msg :: messages) idx =
      backend.exchange CLA ins idx P2_MORE msg >>= fun _ => sign_messages backend user ins messages (idx + 1) := by
  obtain ⟨next, rest, rfl⟩ := List.exists_cons_of_ne_nil hne
  simp only [sign_messages, List.dropLast_cons_cons, List.foldlM_cons, List.getLast?_cons_cons, bind_assoc, pure_bind]

/-- The instruction of `_sign_transaction`. -/
def signIns (is_token_tx : Bool) : UInt8 := if is_token_tx then SIGN_TOKEN_TX else SIGN_TX

/-- The instruction of `_sign_transaction` is a signing instruction of the device. -/
theorem ofIns_signIns (is_token_tx : Bool) : Opcode.ofIns (signIns is_token_tx) = some (.sign is_token_tx) := by
  cases is_token_tx <;> decide

/-- The first command of `_sign_transaction` starts a session, unless its data are empty. -/
theorem start_instruction (is_token_tx : Bool) {data : List UInt8} (hdata : data.length < 256) :
    (⟨CLA, signIns is_token_tx, P1_START, P2_MORE, data, hdata⟩ : Command).instruction =
      if data = [] then .error SWO_WRONG_DATA_LENGTH else .ok (.start is_token_tx data) := by
  have htakes : (Opcode.sign is_token_tx).Takes P1_START P2_MORE := by
    simp only [Opcode.Takes]
    decide
  simp only [Command.instruction, ofIns_signIns, not_true_eq_false, ne_eq, if_false, htakes, Opcode.carriesData,
    true_and, Opcode.instruction, if_true]

/-- The other commands of `_sign_transaction` are later chunks, as long as the index is
within the bound of the device. -/
theorem chunk_instruction (is_token_tx more : Bool) {idx : Nat} (hidx : 1 ≤ idx ∧ idx ≤ 16) {data : List UInt8}
    (hdata : data.length < 256) (hne : data ≠ []) :
    (⟨CLA, signIns is_token_tx, UInt8.ofNat idx, if more then P2_MORE else P2_LAST, data, hdata⟩ :
      Command).instruction = .ok (.chunk is_token_tx more data) := by
  have hindex : (UInt8.ofNat idx).toNat = idx := UInt8.toNat_ofNat_of_lt' (Nat.lt_of_le_of_lt hidx.2 (by decide))
  have hstart : UInt8.ofNat idx ≠ P1_START := by
    intro heq
    have hzero : idx = 0 := hindex.symm.trans (congrArg UInt8.toNat heq)
    omega
  have hmax : UInt8.ofNat idx ≤ P1_MAX := by
    rw [UInt8.le_iff_toNat_le, hindex]
    exact hidx.2
  have htakes : (Opcode.sign is_token_tx).Takes (UInt8.ofNat idx) (if more then P2_MORE else P2_LAST) := by
    simp only [Opcode.Takes, hmax, hstart, ne_eq, not_false_eq_true, and_true, true_and]
    cases more <;> decide
  have hmore : decide ((if more then P2_MORE else P2_LAST) = P2_MORE) = more := by cases more <;> decide
  simp only [Command.instruction, ofIns_signIns, not_true_eq_false, ne_eq, if_false, htakes, hne, and_false,
    Opcode.instruction, hstart, hmore]

/-- What signing a payload comes to, under a well-formed path, for a user who answers
reviews as `user` does: the signature, or the error that is raised. `last` and `answer`
are how the calls of the last command and of the user's answer turn out. -/
def signs (sdk : Sdk) (is_token_tx : Bool) (user : Review → Bool) (words : List UInt32) (payload : List UInt8)
    (last answer : Outcomes) : Except Raised Signature :=
  if MAX_TRANSACTION_LEN < payload.length then .error (.ExceptionRAPDU SWO_WRONG_DATA_LENGTH)
  else match emailCodec.decode payload with
    | some (e, []) =>
      if last.hash.isSome then .error (.ExceptionRAPDU SWO_INCORRECT_DATA)
      else if is_token_tx || !user (.email e.pairs) then .error (.ExceptionRAPDU SWO_CONDITIONS_NOT_SATISFIED)
      else if answer.sign.isSome then .error (.ExceptionRAPDU SWO_SECURITY_ISSUE)
      else .ok (sdk.bip32_derive_eddsa_sign_hash_256 words (sdk.cx_hash_sha256 payload))
    | _ => .error (.ExceptionRAPDU SWO_INCORRECT_DATA)

/-- What is not the payload of an email is refused, with whatever the user would answer. -/
theorem signs_malformed (sdk : Sdk) (is_token_tx : Bool) (user : Review → Bool) (words : List UInt32)
    {payload : List UInt8} (hroom : payload.length ≤ MAX_TRANSACTION_LEN)
    (hbad : ∀ e : hardmail.Email, payload ≠ e.wire) (last answer : Outcomes) :
    signs sdk is_token_tx user words payload last answer = .error (.ExceptionRAPDU SWO_INCORRECT_DATA) := by
  rw [signs, if_neg (Nat.not_lt.mpr hroom)]
  split
  · rename_i hdecode
    exact absurd (hardmail.Email.eq_wire_of_decode hdecode) (hbad _)
  · rfl

/-- The payload of an email is signed when the calls succeed and the user approves its
review. -/
theorem signs_wire (sdk : Sdk) (is_token_tx : Bool) (user : Review → Bool) (words : List UInt32) {e : hardmail.Email}
    (hroom : e.wire.length ≤ MAX_TRANSACTION_LEN) (last answer : Outcomes) :
    signs sdk is_token_tx user words e.wire last answer =
      if last.hash.isSome then .error (.ExceptionRAPDU SWO_INCORRECT_DATA)
      else if is_token_tx || !user (.email e.pairs) then .error (.ExceptionRAPDU SWO_CONDITIONS_NOT_SATISFIED)
      else if answer.sign.isSome then .error (.ExceptionRAPDU SWO_SECURITY_ISSUE)
      else .ok (sdk.bip32_derive_eddsa_sign_hash_256 words (sdk.cx_hash_sha256 e.wire)) := by
  rw [signs, if_neg (Nat.not_lt.mpr hroom), e.decode_wire]

/-- A later chunk does what the session makes of it. -/
theorem chunk_step (sdk : Sdk) (d : Device) (is_token_tx more : Bool) {idx : Nat} (hidx : 1 ≤ idx ∧ idx ≤ 16)
    {data : List UInt8} (hdata : data.length < 256) (hne : data ≠ []) (out : Outcomes) :
    d.step sdk (.apdu ⟨CLA, signIns is_token_tx, UInt8.ofNat idx, if more then P2_MORE else P2_LAST, data, hdata⟩ out) =
      d.receive sdk (requestType is_token_tx) more data out := by
  rw [Device.step, chunk_instruction is_token_tx more hidx hdata hne]
  rfl

/-- The host's command completes a payload, with the user's answer to the review it may
open. -/
theorem complete_ends (hbackend : backend.Documented) (user : Review → Bool) {is_token_tx : Bool} {p2 : UInt8}
    {idx : Nat} (hidx : idx < 256) {msg : List UInt8} (hmsg : msg.length < 256) {completed : Device}
    (hpath : completed.HasPath words)
    (hstep : d.step sdk (.apdu ⟨CLA, signIns is_token_tx, UInt8.ofNat idx, p2, msg, hmsg⟩ (calls n)) =
      completed.complete sdk (requestType is_token_tx) (calls n)) :
    ∃ t, Client.Ends (hostedDevice sdk calls) (d, n) (backend.exchange_async user CLA (signIns is_token_tx) idx p2 msg)
      ((signs sdk is_token_tx user words completed.stored (calls n) (calls (n + 1))).map signatureText) t := by
  have hincorrect : SWO_INCORRECT_DATA ≠ SWO_SUCCESS := by decide
  by_cases hemail : ∃ e : hardmail.Email, completed.stored = e.wire
  · obtain ⟨e, hwire⟩ := hemail
    have hroom : e.wire.length ≤ MAX_TRANSACTION_LEN := hwire ▸ completed.room
    have hdecode : emailCodec.decode completed.stored = some (e, []) := by rw [hwire, e.decode_wire]
    rw [hwire, signs_wire sdk is_token_tx user words hroom]
    cases hhash : (calls n).hash with
    | some residue =>
      simp only [Device.complete, hdecode, hhash] at hstep
      exact ⟨_, exchange_async_ends hbackend user hidx hmsg hstep rfl (.refusal rfl hincorrect)⟩
    | none =>
      simp only [Device.complete, hdecode, hhash] at hstep
      cases is_token_tx with
      | true => exact ⟨_, exchange_async_ends hbackend user hidx hmsg hstep rfl (.refusal rfl (by decide))⟩
      | false =>
        have hscreen : ({ completed with
          digest := sdk.cx_hash_sha256 completed.stored, screen := some (.email e.pairs) } : Device).screen =
            some (.email e.pairs) := rfl
        obtain ⟨t, hanswer⟩ := answer_email_ends sdk calls (n + 1) hscreen hpath.path_eq hpath.length_le
          (user (.email e.pairs))
        refine ⟨t, exchange_async_reviewed hbackend user hidx hmsg hstep rfl fun receive hreceive => ?_⟩
        simp only [Option.isSome_none, Bool.false_eq_true, if_false, Bool.false_or,
          apply_ite (Except.map signatureText), ← hwire]
        exact hanswer receive hreceive
  · rw [signs_malformed sdk is_token_tx user words completed.room (not_exists.mp hemail)]
    rw [Device.complete_malformed sdk (not_exists.mp hemail)] at hstep
    exact ⟨_, exchange_async_ends hbackend user hidx hmsg hstep rfl (.refusal rfl hincorrect)⟩

/-- The last message. -/
theorem last_message_ends (hbackend : backend.Documented) (user : Review → Bool) {is_token_tx : Bool}
    (hpurpose : d.purpose = requestType is_token_tx) (hpath : d.HasPath words) {idx : Nat} (hidx : 1 ≤ idx ∧ idx ≤ 16)
    {msg : List UInt8} (hmsg : msg.length < 256) (hne : msg ≠ []) :
    ∃ t, Client.Ends (hostedDevice sdk calls) (d, n)
      (backend.exchange_async user CLA (signIns is_token_tx) idx P2_LAST msg)
      ((signs sdk is_token_tx user words (d.stored ++ msg) (calls n) (calls (n + 1))).map signatureText) t := by
  have hidx' : idx < 256 := Nat.lt_of_le_of_lt hidx.2 (by decide)
  have hstep := chunk_step sdk d is_token_tx false hidx hmsg hne (calls n)
  rw [Device.receive, if_neg (not_not_intro hpurpose)] at hstep
  by_cases hroom : (d.stored ++ msg).length ≤ MAX_TRANSACTION_LEN
  · rw [dif_pos hroom] at hstep
    have hpath' : (d.append msg hroom).HasPath words := ⟨hpath.path_eq, hpath.length_le⟩
    exact complete_ends hbackend user hidx' hmsg hpath' hstep
  · rw [dif_neg hroom] at hstep
    rw [signs, if_pos (Nat.not_le.mp hroom)]
    exact ⟨_, exchange_async_ends hbackend user hidx' hmsg hstep rfl (.refusal rfl (by decide))⟩

/-- A message that is not the last one is stored, or refused for want of room. -/
theorem message_ends (hbackend : backend.Documented) (sdk : Sdk) (calls : Nat → Outcomes) (n : Nat) {is_token_tx : Bool}
    (hpurpose : d.purpose = requestType is_token_tx) {idx : Nat} (hidx : 1 ≤ idx ∧ idx ≤ 16) {msg : List UInt8}
    (hmsg : msg.length < 256) (hne : msg ≠ []) :
    (∃ hroom, Client.Ends (hostedDevice sdk calls) (d, n)
      (backend.exchange CLA (signIns is_token_tx) idx P2_MORE msg) (.ok []) (d.append msg hroom, n + 1)) ∨
    (MAX_TRANSACTION_LEN < (d.stored ++ msg).length ∧
      Client.Ends (hostedDevice sdk calls) (d, n) (backend.exchange CLA (signIns is_token_tx) idx P2_MORE msg)
        (.error (.ExceptionRAPDU SWO_WRONG_DATA_LENGTH)) (d, n + 1)) := by
  have hidx' : idx < 256 := Nat.lt_of_le_of_lt hidx.2 (by decide)
  have hstep := chunk_step sdk d is_token_tx true hidx hmsg hne (calls n)
  rw [Device.receive, if_neg (not_not_intro hpurpose)] at hstep
  by_cases hroom : (d.stored ++ msg).length ≤ MAX_TRANSACTION_LEN
  · left
    rw [dif_pos hroom] at hstep
    exact ⟨hroom, exchange_ends hbackend hidx' hmsg hstep (.success rfl)⟩
  · right
    rw [dif_neg hroom] at hstep
    exact ⟨Nat.not_le.mp hroom, exchange_ends hbackend hidx' hmsg hstep (.refusal rfl (by decide))⟩

/-- A payload that does not fit the device is refused for its length. -/
theorem signs_overlong (sdk : Sdk) (is_token_tx : Bool) (user : Review → Bool) (words : List UInt32)
    {payload : List UInt8} (hlong : MAX_TRANSACTION_LEN < payload.length) (last answer : Outcomes) :
    signs sdk is_token_tx user words payload last answer = .error (.ExceptionRAPDU SWO_WRONG_DATA_LENGTH) :=
  if_pos hlong

/-- The room for a payload ends before the index does. -/
theorem idx_le {d : Device} {idx : Nat} (hstored : d.stored.length = MAX_APDU_LEN * (idx - 1)) : idx ≤ 16 := by
  have hroom := d.room
  rw [hstored] at hroom
  simp only [MAX_APDU_LEN, MAX_TRANSACTION_LEN] at hroom
  omega

/-- The messages of a payload, sent to a session that has received full messages only. -/
theorem sign_messages_ends (hbackend : backend.Documented) (sdk : Sdk) (calls : Nat → Outcomes)
    (user : Review → Bool) (is_token_tx : Bool) {payload : List UInt8} (hne : payload ≠ []) {d : Device} {n idx : Nat}
    (hpurpose : d.purpose = requestType is_token_tx) (hpath : d.HasPath words) (hidx : 1 ≤ idx)
    (hstored : d.stored.length = MAX_APDU_LEN * (idx - 1)) :
    ∃ t, Client.Ends (hostedDevice sdk calls) (d, n)
      (sign_messages backend user (signIns is_token_tx) (split_message payload MAX_APDU_LEN) idx)
      ((signs sdk is_token_tx user words (d.stored ++ payload) (calls (n + (payload.length - 1) / MAX_APDU_LEN))
        (calls (n + (payload.length - 1) / MAX_APDU_LEN + 1))).map signatureText) t := by
  have hmax : 0 < MAX_APDU_LEN := by decide
  induction hlen : payload.length using Nat.strong_induction_on generalizing payload d n idx with
  | _ len ih =>
    have hbounds : 1 ≤ idx ∧ idx ≤ 16 := ⟨hidx, idx_le hstored⟩
    obtain ⟨hle, hsplit⟩ | ⟨head, rest, rfl, hhead, hrest, hsplit⟩ := split_message_cases hmax hne
    · have hturns : (len - 1) / MAX_APDU_LEN = 0 := by
        apply Nat.div_eq_of_lt
        omega
      rw [hsplit, sign_messages_singleton, hturns, Nat.add_zero]
      exact last_message_ends hbackend user hpurpose hpath hbounds (Nat.lt_succ_of_le hle) hne
    · rw [List.length_append, hhead] at hlen
      have hpos := List.length_pos_iff.mpr hrest
      have hheadne : head ≠ [] := by
        apply List.ne_nil_of_length_pos
        omega
      rw [hsplit, sign_messages_cons backend user _ _ (split_message_ne_nil hmax hrest)]
      obtain ⟨hroom, hmessage⟩ | ⟨hover, hmessage⟩ :=
        message_ends hbackend sdk calls n hpurpose hbounds (Nat.lt_succ_of_le (Nat.le_of_eq hhead)) hheadne
      · have hpurpose' : (d.append head hroom).purpose = requestType is_token_tx := hpurpose
        have hpath' : (d.append head hroom).HasPath words := ⟨hpath.path_eq, hpath.length_le⟩
        have hstored' : (d.append head hroom).stored.length = MAX_APDU_LEN * (idx + 1 - 1) := by
          rw [Device.append, List.length_append, hstored, hhead]
          simp only [MAX_APDU_LEN]
          omega
        obtain ⟨t, hends⟩ := ih rest.length (by omega) hrest (n := n + 1) hpurpose' hpath' (by omega) hstored' rfl
        have hturns : (len - 1) / MAX_APDU_LEN = (rest.length - 1) / MAX_APDU_LEN + 1 := by
          rw [← Nat.add_div_right _ hmax]
          congr 1
          omega
        have hturn : n + (len - 1) / MAX_APDU_LEN = n + 1 + (rest.length - 1) / MAX_APDU_LEN := by omega
        have hwhole : (d.append head hroom).stored ++ rest = d.stored ++ (head ++ rest) := List.append_assoc _ _ _
        rw [hwhole, ← hturn] at hends
        exact ⟨t, hmessage.bind_ok hends⟩
      · have hlong : MAX_TRANSACTION_LEN < (d.stored ++ (head ++ rest)).length := by
          rw [← List.append_assoc, List.length_append]
          omega
        rw [signs_overlong sdk is_token_tx user words hlong]
        exact ⟨_, hmessage.bind_error _⟩

/-- The command that starts a session. -/
theorem start_ends (hbackend : backend.Documented) (sdk : Sdk) (calls : Nat → Outcomes) (d : Device) (n : Nat)
    (is_token_tx : Bool) {path : List UInt8} (hdata : path.length < 256) :
    (pathOf path = none ∧ ∃ t, Client.Ends (hostedDevice sdk calls) (d, n)
      (backend.exchange CLA (signIns is_token_tx) P1_START.toNat P2_MORE path)
      (.error (.ExceptionRAPDU SWO_WRONG_DATA_LENGTH)) t) ∨
    ∃ words, pathOf path = some words ∧ Client.Ends (hostedDevice sdk calls) (d, n)
      (backend.exchange CLA (signIns is_token_tx) P1_START.toNat P2_MORE path) (.ok [])
      (d.reset (requestType is_token_tx) (.of words), n + 1) := by
  have hrefused : SWO_WRONG_DATA_LENGTH ≠ SWO_SUCCESS := by decide
  have hstep : d.step sdk (.apdu ⟨CLA, signIns is_token_tx, P1_START, P2_MORE, path, hdata⟩ (calls n)) =
      if path = [] then respond d SWO_WRONG_DATA_LENGTH
      else d.beginSession (requestType is_token_tx) path (calls n) := by
    rw [Device.step, start_instruction is_token_tx hdata]
    by_cases hne : path = []
    · rw [if_pos hne, if_pos hne]
    · rw [if_neg hne, if_neg hne]
      rfl
  cases hwords : pathOf path with
  | none =>
    left
    refine ⟨rfl, ?_⟩
    by_cases hne : path = []
    · rw [if_pos hne] at hstep
      exact ⟨_, exchange_ends hbackend (by decide) hdata hstep (.refusal rfl hrefused)⟩
    · simp only [if_neg hne, Device.beginSession, hwords] at hstep
      exact ⟨_, exchange_ends hbackend (by decide) hdata hstep (.refusal rfl hrefused)⟩
  | some words =>
    right
    have hne : path ≠ [] := by
      rintro rfl
      cases hwords
    simp only [if_neg hne, Device.beginSession, hwords] at hstep
    exact ⟨words, rfl, exchange_ends hbackend (by decide) hdata hstep (.success rfl)⟩

/-- What the host gets for a payload it wants signed, when its first command is the `n`-th
turn. -/
def signed (sdk : Sdk) (calls : Nat → Outcomes) (n : Nat) (is_token_tx : Bool) (user : Review → Bool)
    (path transaction : List UInt8) : Except Raised Signature :=
  match pathOf path with
  | none => .error (.ExceptionRAPDU SWO_WRONG_DATA_LENGTH)
  | some words =>
    if transaction = [] then .error .IndexError
    else signs sdk is_token_tx user words transaction
      (calls (n + 1 + (transaction.length - 1) / MAX_APDU_LEN))
      (calls (n + 1 + (transaction.length - 1) / MAX_APDU_LEN + 1))

/-- From every state of the device, `_sign_transaction` ends with the packed signature, or
with what `signed` says it raises. -/
theorem sign_transaction_ends (hbackend : backend.Documented) (sdk : Sdk) (calls : Nat → Outcomes) (d : Device)
    (n : Nat) (is_token_tx : Bool) (user : Review → Bool) {path : List UInt8} (hdata : path.length < 256)
    (transaction : List UInt8) :
    ∃ t, Client.Ends (hostedDevice sdk calls) (d, n)
      (sign_transaction backend user (signIns is_token_tx) path transaction)
      ((signed sdk calls n is_token_tx user path transaction).map signatureText) t := by
  rw [signed]
  obtain ⟨hwords, t, hstart⟩ | ⟨words, hwords, hstart⟩ := start_ends hbackend sdk calls d n is_token_tx hdata
  · rw [hwords]
    exact ⟨t, hstart.bind_error _⟩
  · rw [hwords]
    dsimp only
    by_cases hne : transaction = []
    · subst hne
      rw [if_pos rfl, sign_transaction, split_message_nil _ (by decide), sign_messages_nil]
      exact ⟨_, hstart.bind_ok (Client.ends_throw _)⟩
    · rw [if_neg hne]
      have hpurpose : (d.reset (requestType is_token_tx) (.of words)).purpose = requestType is_token_tx := rfl
      have hpath := d.hasPath_reset (requestType is_token_tx) hwords
      have hstored : (d.reset (requestType is_token_tx) (.of words)).stored.length = MAX_APDU_LEN * (1 - 1) := rfl
      obtain ⟨t, hends⟩ :=
        sign_messages_ends hbackend sdk calls user is_token_tx hne (n := n + 1) hpurpose hpath (Nat.le_refl 1) hstored
      exact ⟨t, hstart.bind_ok hends⟩

/-- What is behind its own length is unpacked, and the rest is left. -/
theorem pop_size_prefixed_append {len : UInt8} {data : List UInt8} (hlen : data.length = len.toNat)
    (rest : List UInt8) :
    pop_size_prefixed_buf_from_buf (len :: data ++ rest) = .ok (rest, len.toNat, data) := by
  simp only [pop_size_prefixed_buf_from_buf, List.cons_append, List.head?_cons, slice, ← hlen, Nat.add_comm 1,
    List.drop_succ_cons, List.drop_left, List.drop_zero, List.take_left]

/-- The host unpacks the signature the device has packed. -/
theorem unpack_signatureText (sig : Signature) :
    unpack_sign_tx_response (signatureText sig) = .ok (sig.val.length, sig.val, 0) := by
  have hlen : (UInt8.ofNat sig.val.length).toNat = sig.val.length :=
    UInt8.toNat_ofNat_of_lt' (Nat.lt_of_le_of_lt sig.property (by decide))
  rw [unpack_sign_tx_response, signatureText, pop_size_prefixed_append hlen.symm, hlen]
  rfl

/-- From every state of the application, whatever the host wants signed, it gets the
signature of the payload it has sent, under the path it has sent, once the user has
approved the review of that payload, and otherwise the error that `signed` says. The
backend does what it is documented to do, and the path fits one command. -/
theorem signature_eq (hbackend : backend.Documented) (sdk : Sdk) (calls : Nat → Outcomes) (h : List Input) (n : Nat)
    (is_token_tx : Bool) (user : Review → Bool) {path : List UInt8} (hdata : path.length < 256)
    (transaction : List UInt8) :
    ((signature backend user (signIns is_token_tx) path transaction).run.play (hostedApp sdk calls)
        ((app sdk).run h, n)).1 =
      (signed sdk calls n is_token_tx user path transaction).map fun sig => (sig.val.length, sig.val, 0) := by
  rw [play_app_eq]
  obtain ⟨t, hends⟩ :=
    sign_transaction_ends hbackend sdk calls ((device sdk).run h) n is_token_tx user hdata transaction
  cases hsigned : signed sdk calls n is_token_tx user path transaction with
  | error e =>
    rw [hsigned] at hends
    exact congrArg Prod.fst (hends.bind_error fun response => MonadExcept.ofExcept (unpack_sign_tx_response response))
  | ok sig =>
    rw [hsigned] at hends
    exact congrArg Prod.fst (hends.bind_ok (ofExcept_ends (unpack_signatureText sig)))

/-- The smallest email, signed over a direct connection while an address review is open. -/
theorem smallest_signature :
    ((signature direct (fun _ => true) SIGN_TX [1, 0, 0, 0, 7] hardmail.Email.smallest.wire).run.play
      (hostedApp .sample fun _ => .success) ((app .sample).run [.send GET_PUBLIC_KEY 1 0 [1, 0, 0, 0, 3]], 1)).1 =
      (signed .sample (fun _ => .success) 1 false (fun _ => true) [1, 0, 0, 0, 7] hardmail.Email.smallest.wire).map
        fun sig => (sig.val.length, sig.val, 0) :=
  signature_eq direct_documented .sample (fun _ => .success) [.send GET_PUBLIC_KEY 1 0 [1, 0, 0, 0, 3]] 1 false
    (fun _ => true) (by decide) hardmail.Email.smallest.wire

end hardmail.host
