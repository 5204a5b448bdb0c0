import HardMail.Device.Model

open memory codec machine

namespace hardmail

abbrev KnownToken := CArray UInt8 TOKEN_ADDRESS_LEN × TokenInfo

/-- The token slot an input writes, if it does: a descriptor that is refused empties it. -/
def Input.tells : Input → Option (Option KnownToken)
  | .apdu cmd out =>
    match cmd.instruction with
    | .ok .token => some (out.descriptor.bind TokenDescriptor.token)
    | _ => none
  | _ => none

def Device.withToken (d : Device) (token : Option KnownToken) : Device := { d with token }

/-- A reaction of a device with another token. -/
def Reaction.withToken (reaction : Reaction) (token : Option KnownToken) : Reaction :=
  (reaction.1.withToken token, reaction.2)

namespace Device

variable (sdk : Sdk) (d : Device) (token : Option KnownToken) (out : Outcomes)

/-- The export of a key does not look at the token. -/
theorem exportKey_withToken (data : List UInt8) (display : Bool) :
    (d.withToken token).exportKey sdk data display out =
      Reaction.withToken (d.exportKey sdk data display out) token := by
  unfold Device.exportKey
  cases pathOf data with
  | none => rfl
  | some words =>
    cases out.derive with
    | some failure => rfl
    | none =>
      cases out.compress with
      | some failure => rfl
      | none =>
        dsimp only
        split_ifs
        · rfl
        · rfl
        · rfl

/-- The start of a session does not look at the token. -/
theorem beginSession_withToken (purpose : RequestType) (data : List UInt8) :
    (d.withToken token).beginSession purpose data out = Reaction.withToken (d.beginSession purpose data out) token := by
  unfold Device.beginSession
  cases pathOf data with
  | none => rfl
  | some words => rfl

/-- The review of an email does not look at the token. -/
theorem complete_withToken (purpose : RequestType) :
    (d.withToken token).complete sdk purpose out = Reaction.withToken (d.complete sdk purpose out) token := by
  have hdecode : emailCodec.decode (d.withToken token).stored = emailCodec.decode d.stored := rfl
  unfold Device.complete
  rw [hdecode]
  split
  · rfl
  · dsimp only
    split_ifs
    · rfl
    · rfl
  · rfl

/-- A chunk is received the same with any token. -/
theorem receive_withToken (purpose : RequestType) (more : Bool) (chunk : List UInt8) :
    (d.withToken token).receive sdk purpose more chunk out =
      Reaction.withToken (d.receive sdk purpose more chunk out) token := by
  have hpurpose : (d.withToken token).purpose = d.purpose := rfl
  unfold Device.receive
  rw [hpurpose]
  by_cases hother : d.purpose ≠ purpose
  · rw [if_pos hother, if_pos hother]
    rfl
  rw [if_neg hother, if_neg hother]
  by_cases hroom : (d.stored ++ chunk).length ≤ MAX_TRANSACTION_LEN
  · have hroom' : ((d.withToken token).stored ++ chunk).length ≤ MAX_TRANSACTION_LEN := hroom
    rw [dif_pos hroom, dif_pos hroom']
    cases more with
    | true => rfl
    | false => exact complete_withToken sdk (d.append chunk hroom) token out purpose
  · have hroom' : ¬ ((d.withToken token).stored ++ chunk).length ≤ MAX_TRANSACTION_LEN := hroom
    rw [dif_neg hroom, dif_neg hroom']
    rfl

/-- An answer of the user does not look at the token. -/
theorem answer_withToken (confirm : Bool) :
    (d.withToken token).answer sdk confirm out = Reaction.withToken (d.answer sdk confirm out) token := by
  have hscreen : (d.withToken token).screen = d.screen := rfl
  unfold Device.answer
  rw [hscreen]
  split
  · rfl
  · rfl
  · rfl
  · dsimp only
    split_ifs
    · rfl
    · rfl

/-- The token is a device of its own: no other step looks at it, and none but the telling
of one writes it. -/
theorem step_withToken (i : Input) :
    (d.withToken token).step sdk i = Reaction.withToken (d.step sdk i) (i.tells.getD token) := by
  cases i with
  | badLength => rfl
  | choice confirm out => exact answer_withToken sdk d token out confirm
  | apdu cmd out =>
    simp only [Device.step, Input.tells]
    cases cmd.instruction with
    | error sw => rfl
    | ok instruction =>
      cases instruction with
      | version => rfl
      | name => rfl
      | token => rfl
      | pubkey data display => exact exportKey_withToken sdk d token out data display
      | start is_token_tx data => exact beginSession_withToken d token out _ data
      | chunk is_token_tx more data => exact receive_withToken sdk d token out _ more data

/-- The token after an input is the one the input tells of, if it tells of any, and else the
one before. -/
theorem step_token (i : Input) : (d.step sdk i).1.token = i.tells.getD d.token :=
  congrArg (fun reaction => reaction.1.token) (step_withToken sdk d d.token i)

end Device

end hardmail
