import HardMail.Device.Model

open memory

namespace hardmail

/-- The handler of an instruction. -/
def Instruction.handle (sdk : Sdk) (s : AppState) (out : Outcomes) : Instruction → Effect
  | .version => handler_get_version s
  | .name => handler_get_app_name s
  | .pubkey data display => handler_get_public_key sdk s (.ofBytes data) display out
  | .start is_token_tx data => init_transaction_context s (.ofBytes data) (requestType is_token_tx) out
  | .chunk is_token_tx more data => handler_sign_tx sdk s (.ofBytes data) 1 more is_token_tx out
  | .token => handler_provide_token_info s out

/-- A chunk 0 begins a session. -/
theorem handler_sign_tx_start (sdk : Sdk) (s : AppState) (cdata : Buffer) {chunk : UInt8} (hchunk : chunk = 0)
    (more is_token_tx : Bool) (out : Outcomes) :
    handler_sign_tx sdk s cdata chunk more is_token_tx out =
      init_transaction_context s cdata (requestType is_token_tx) out :=
  if_pos hchunk

/-- The handler looks at the number of a later chunk only to tell it from chunk 0. -/
theorem handler_sign_tx_later (sdk : Sdk) (s : AppState) (cdata : Buffer) {chunk : UInt8} (hchunk : chunk ≠ 0)
    (more is_token_tx : Bool) (out : Outcomes) :
    handler_sign_tx sdk s cdata chunk more is_token_tx out = handler_sign_tx sdk s cdata 1 more is_token_tx out := by
  have hone : (1 : UInt8) ≠ 0 := by decide
  simp only [handler_sign_tx, if_neg hchunk, if_neg hone]

/-- The parameters of the dispatcher's second check, as the specification has them. -/
theorem sign_takes_iff (is_token_tx : Bool) (p1 p2 : UInt8) :
    (Opcode.sign is_token_tx).Takes p1 p2 ↔
      ¬ (p1 = P1_START ∧ p2 ≠ P2_MORE ∨ p1 > P1_MAX ∨ p2 ≠ P2_LAST ∧ p2 ≠ P2_MORE) := by
  have hle : p1 ≤ P1_MAX ↔ ¬ p1 > P1_MAX := UInt8.not_lt.symm
  have hdistinct : P2_LAST ≠ P2_MORE := by decide
  simp only [Opcode.Takes, hle]
  constructor
  · rintro ⟨hmax, rfl | ⟨rfl, hstart⟩⟩
    · tauto
    · tauto
  · intro h
    tauto

/-- An instruction without parameters is refused if either parameter is not zero. -/
theorem not_takes_iff (p1 p2 : UInt8) : ¬ (p1 = 0 ∧ p2 = 0) ↔ p1 ≠ 0 ∨ p2 ≠ 0 := by tauto

/-- GET_PUBLIC_KEY takes a P1 of 0 or 1 and a P2 of 0, as the dispatcher tests it. -/
theorem pubkey_takes_iff (p1 p2 : UInt8) : Opcode.pubkey.Takes p1 p2 ↔ ¬ (p1 > 1 ∨ p2 > 0) := by
  have hle : p1 ≤ 1 ↔ ¬ p1 > 1 := UInt8.not_lt.symm
  have hzero : p2 = 0 ↔ ¬ p2 > 0 := by
    rw [gt_iff_lt, UInt8.not_lt]
    exact ⟨fun h => h ▸ UInt8.le_refl _, fun h => UInt8.le_antisymm h (UInt8.le_iff_toNat_le.mpr (Nat.zero_le _))⟩
  simp only [Opcode.Takes, hle, hzero, not_or]

/-- The dispatcher hands each command to the handler of its instruction, and refuses
the others in the order class, instruction, parameters, data. -/
theorem apdu_dispatcher_eq (sdk : Sdk) (s : AppState) (cmd : Command) (out : Outcomes) :
    apdu_dispatcher sdk s cmd out =
      match cmd.instruction with
      | .error sw => io_send_sw s sw
      | .ok instruction => instruction.handle sdk s out := by
  by_cases hcla : cmd.cla ≠ CLA
  · rw [apdu_dispatcher, Command.instruction, if_pos hcla, if_pos hcla]
  rw [apdu_dispatcher, Command.instruction, if_neg hcla, if_neg hcla]
  by_cases hversion : cmd.ins = GET_VERSION
  · simp only [Opcode.ofIns, if_pos hversion, Opcode.Takes, not_takes_iff, Opcode.carriesData, Bool.false_eq_true,
      false_and, if_false, Opcode.instruction]
    by_cases hparam : cmd.p1 ≠ 0 ∨ cmd.p2 ≠ 0
    · simp only [if_pos hparam]
    · simp only [if_neg hparam, Instruction.handle]
  by_cases hname : cmd.ins = GET_APP_NAME
  · simp only [Opcode.ofIns, if_neg hversion, if_pos hname, Opcode.Takes, not_takes_iff, Opcode.carriesData,
      Bool.false_eq_true, false_and, if_false, Opcode.instruction]
    by_cases hparam : cmd.p1 ≠ 0 ∨ cmd.p2 ≠ 0
    · simp only [if_pos hparam]
    · simp only [if_neg hparam, Instruction.handle]
  by_cases hpubkey : cmd.ins = GET_PUBLIC_KEY
  · simp only [Opcode.ofIns, if_neg hversion, if_neg hname, if_pos hpubkey, pubkey_takes_iff, not_not,
      Opcode.carriesData, true_and, Opcode.instruction]
    by_cases hparam : cmd.p1 > 1 ∨ cmd.p2 > 0
    · simp only [if_pos hparam]
    by_cases hdata : cmd.data = []
    · simp only [if_neg hparam, if_pos hdata]
    · simp only [if_neg hparam, if_neg hdata, Instruction.handle]
  by_cases hsign : cmd.ins = SIGN_TX ∨ cmd.ins = SIGN_TOKEN_TX
  · have hop : Opcode.ofIns cmd.ins = some (.sign (cmd.ins = SIGN_TOKEN_TX)) := by
      simp only [Opcode.ofIns, if_neg hversion, if_neg hname, if_neg hpubkey]
      obtain htx | htoken := hsign
      · rw [if_pos htx, htx]
        rfl
      · have htx : cmd.ins ≠ SIGN_TX := by
          rw [htoken]
          decide
        rw [if_neg htx, if_pos htoken, htoken]
        rfl
    simp only [hop, if_neg hversion, if_neg hname, if_neg hpubkey, if_pos hsign, sign_takes_iff, not_not,
      Opcode.carriesData, true_and, Opcode.instruction]
    by_cases hparam : cmd.p1 = P1_START ∧ cmd.p2 ≠ P2_MORE ∨ cmd.p1 > P1_MAX ∨ cmd.p2 ≠ P2_LAST ∧ cmd.p2 ≠ P2_MORE
    · simp only [if_pos hparam]
    by_cases hdata : cmd.data = []
    · simp only [if_neg hparam, if_pos hdata]
    simp only [if_neg hparam, if_neg hdata]
    by_cases hstart : cmd.p1 = P1_START
    · rw [if_pos hstart, handler_sign_tx_start sdk s _ hstart]
      rfl
    · rw [if_neg hstart, handler_sign_tx_later sdk s _ hstart, decide_more (by tauto)]
      rfl
  have htx : cmd.ins ≠ SIGN_TX := fun h => hsign (Or.inl h)
  have htoken : cmd.ins ≠ SIGN_TOKEN_TX := fun h => hsign (Or.inr h)
  by_cases hprovide : cmd.ins = PROVIDE_TOKEN_INFO
  · simp only [Opcode.ofIns, if_neg hversion, if_neg hname, if_neg hpubkey, if_neg hsign, if_neg htx,
      if_neg htoken, if_pos hprovide, Opcode.Takes, not_takes_iff, Opcode.carriesData, true_and, Opcode.instruction]
    by_cases hparam : cmd.p1 ≠ 0 ∨ cmd.p2 ≠ 0
    · simp only [if_pos hparam]
    by_cases hdata : cmd.data = []
    · simp only [if_neg hparam, if_pos hdata]
    · simp only [if_neg hparam, if_neg hdata, Instruction.handle]
  · simp only [Opcode.ofIns, if_neg hversion, if_neg hname, if_neg hpubkey, if_neg hsign, if_neg htx,
      if_neg htoken, if_neg hprovide]

end hardmail
