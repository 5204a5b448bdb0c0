namespace machine

variable {ε σ α β : Type}

/-- Whatever state the program is started in, it throws only errors of this kind. -/
def Throws (m : EStateM ε σ α) (E : ε → Prop) : Prop := ∀ s e t, m.run s = .error e t → E e

namespace Throws

variable {m : EStateM ε σ α} {E : ε → Prop}

theorem pure (a : α) : Throws (Pure.pure a : EStateM ε σ α) E := by
  intro s e t h
  cases h

theorem throw {e : ε} (h : E e) : Throws (throw e : EStateM ε σ α) E := by
  intro s e' t heq
  cases heq
  exact h

/-- A sequence throws what its parts throw. -/
theorem bind {f : α → EStateM ε σ β} (hm : Throws m E) (hf : ∀ a, Throws (f a) E) : Throws (m >>= f) E := by
  intro s e t h
  rw [EStateM.run_bind] at h
  cases hrun : m.run s with
  | ok a u =>
    rw [hrun] at h
    exact hf a u e t h
  | error e' u =>
    rw [hrun] at h
    cases h
    exact hm s e t hrun

/-- A choice throws what its branches throw. -/
theorem ite {n : EStateM ε σ α} {c : Prop} [Decidable c] (hm : Throws m E) (hn : Throws n E) :
    Throws (if c then m else n) E := by
  split
  · exact hm
  · exact hn

/-- A program that always ends in a value throws nothing. -/
theorem of_ok (h : ∀ s, ∃ a t, m.run s = .ok a t) : Throws m E := by
  intro s e t heq
  obtain ⟨a, u, hok⟩ := h s
  rw [hok] at heq
  cases heq

end Throws

end machine
