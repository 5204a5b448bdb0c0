import HardMail.Machine.Run

namespace machine.Machine

variable {σ ι ε : Type} (M : Machine σ ι ε)

/-- A run spends no more events than it earns by other events and by its inputs, and than it
starts with, when every step keeps an account of the difference. -/
theorem countP_add_account_le (spent earned : ε → Bool) (pays : ι → Bool) (account : σ → Nat)
    (hstep : ∀ s i, (M.step s i).2.countP spent + account (M.step s i).1 ≤
      account s + (M.step s i).2.countP earned + (pays i).toNat) (s : σ) (k : List ι) :
    (M.emits s k).countP spent + account (M.runFrom s k) ≤
      account s + (M.emits s k).countP earned + k.countP pays := by
  induction k generalizing s with
  | nil => exact Nat.le_of_eq (Nat.add_comm _ _)
  | cons i k ih =>
    have hfirst := hstep s i
    have hrest := ih (M.step s i).1
    have hpays : (if pays i = true then 1 else 0) = (pays i).toNat := by cases pays i <;> rfl
    rw [emits, runFrom, List.countP_append, List.countP_append, List.countP_cons, hpays]
    omega

/-- The events are paid for by inputs. -/
theorem countP_le_inputs (spent : ε → Bool) (pays : ι → Bool) (account : σ → Nat)
    (hstep : ∀ s i, (M.step s i).2.countP spent + account (M.step s i).1 ≤ account s + (pays i).toNat) (s : σ)
    (k : List ι) : (M.emits s k).countP spent ≤ account s + k.countP pays := by
  have hnone : ∀ l : List ε, l.countP (fun _ => false) = 0 := fun l => congrFun List.countP_false l
  have htotal := M.countP_add_account_le spent (fun _ => false) pays account
    (fun s i => by rw [hnone, Nat.add_zero]; exact hstep s i) s k
  rw [hnone] at htotal
  omega

/-- The events are paid for by other events. -/
theorem countP_le_events (spent earned : ε → Bool) (account : σ → Nat)
    (hstep : ∀ s i, (M.step s i).2.countP spent + account (M.step s i).1 ≤
      account s + (M.step s i).2.countP earned) (s : σ) (k : List ι) :
    (M.emits s k).countP spent ≤ account s + (M.emits s k).countP earned := by
  have hnone : k.countP (fun _ => false) = 0 := congrFun List.countP_false k
  have htotal := M.countP_add_account_le spent earned (fun _ => false) account hstep s k
  rw [hnone] at htotal
  omega

end machine.Machine
