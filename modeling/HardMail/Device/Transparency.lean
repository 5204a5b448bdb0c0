import HardMail.Device.Refinement
import HardMail.Device.Token

open memory codec machine

namespace hardmail

/-- Messages that ask for information or bring some, and messages that are refused for what
they are. -/
def Input.informs : Input → Bool
  | .apdu cmd _ =>
    match cmd.instruction with
    | .error _ => true
    | .ok .version => true
    | .ok .name => true
    | .ok .token => true
    | .ok _ => false
  | .badLength => true
  | .choice _ _ => false

/-- Informing changes the token at most. -/
theorem step_informs (sdk : Sdk) (d : Device) {i : Input} (hinforms : i.informs = true) :
    ∃ token, (d.step sdk i).1 = d.withToken token := by
  cases i with
  | badLength => exact ⟨d.token, rfl⟩
  | choice confirm out => cases hinforms
  | apdu cmd out =>
    simp only [Input.informs] at hinforms
    simp only [Device.step]
    cases hinstruction : cmd.instruction with
    | error sw => exact ⟨d.token, rfl⟩
    | ok instruction =>
      rw [hinstruction] at hinforms
      cases instruction with
      | version => exact ⟨d.token, rfl⟩
      | name => exact ⟨d.token, rfl⟩
      | token => exact ⟨_, rfl⟩
      | _ => cases hinforms

/-- Wherever they come in a run, messages that inform, or that are refused for what they
are, change nothing of what the application makes of the other messages and answers. -/
theorem informing_messages_transparent (sdk : Sdk) (h : List Input) :
    (((app sdk).turns .init h).map (Prod.map id (List.map Event.report))).filter (fun turn => !turn.1.informs) =
      ((app sdk).turns .init (h.filter fun i => !i.informs)).map (Prod.map id (List.map Event.report)) := by
  have hdevice : ∀ k, ((app sdk).turns .init k).map (Prod.map id (List.map Event.report)) =
      (device sdk).turns .init k :=
    fun k => ((app_simulates_device sdk).turns_eq realizes_init k).symm
  rw [hdevice, hdevice]
  apply (device sdk).turns_filter (E := fun d d' => ∃ token, d' = d.withToken token) (p := fun i => !i.informs)
  · rintro d _ i ⟨token, rfl⟩
    have hstep := d.step_withToken sdk token i
    have hnext :
        (Device.step sdk (d.withToken token) i).1 = (Device.step sdk d i).1.withToken (i.tells.getD token) := by
      rw [hstep]
      rfl
    have hreports : (Device.step sdk (d.withToken token) i).2 = (Device.step sdk d i).2 := by
      rw [hstep]
      rfl
    exact ⟨⟨_, hnext⟩, hreports⟩
  · rintro d _ i hinforms ⟨token, rfl⟩
    rw [Bool.not_eq_false'] at hinforms
    obtain ⟨token', hstep⟩ := step_informs sdk d hinforms
    refine ⟨token, ?_⟩
    change d.withToken token = (d.step sdk i).1.withToken token
    rw [hstep]
    rfl
  · exact ⟨none, rfl⟩

end hardmail
