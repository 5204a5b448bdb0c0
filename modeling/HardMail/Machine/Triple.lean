import Mathlib.Data.List.Pairwise
import Mathlib.Order.Basic

namespace machine

variable {ε σ α β : Type}

/-- The state a result leaves behind, be it a value or an error. -/
def final : EStateM.Result ε σ α → σ
  | .ok _ s => s
  | .error _ s => s

/-- Started in a state that meets `P`, the program leaves a state that meets `Q` with its
value, or one that meets `E` with an error. -/
def Triple (P : σ → Prop) (m : EStateM ε σ α) (Q : α → σ → Prop) (E : σ → Prop) : Prop :=
  ∀ s, P s → match m.run s with
    | .ok a t => Q a t
    | .error _ t => E t

namespace Triple

variable {P P' : σ → Prop} {m : EStateM ε σ α} {Q Q' : α → σ → Prop} {E : σ → Prop}

/-- A returned value needs what follows from the precondition. -/
theorem pure {a : α} (h : ∀ s, P s → Q a s) : Triple P (Pure.pure a : EStateM ε σ α) Q E := h

/-- An error leaves the state as it is. -/
theorem throw {e : ε} (h : ∀ s, P s → E s) : Triple P (throw e : EStateM ε σ α) Q E := h

/-- A look at the state yields the state it leaves behind. -/
theorem get {Q : σ → σ → Prop} (h : ∀ s, P s → Q s s) : Triple P (get : EStateM ε σ σ) Q E := h

/-- An assignment is judged by the state it makes. -/
theorem modify {f : σ → σ} {Q : PUnit → σ → Prop} (h : ∀ s, P s → Q ⟨⟩ (f s)) :
    Triple P (modify f : EStateM ε σ PUnit) Q E := h

/-- In a sequence, what the first program ensures is what the second one starts from. An
error of either is an error of both. -/
theorem bind {f : α → EStateM ε σ β} {S : β → σ → Prop} (hm : Triple P m Q E)
    (hf : ∀ a, Triple (Q a) (f a) S E) : Triple P (m >>= f) S E := by
  intro s hs
  have hfirst := hm s hs
  rw [EStateM.run_bind]
  cases hresult : m.run s with
  | ok a t =>
    rw [hresult] at hfirst
    exact hf a t hfirst
  | error e t =>
    rw [hresult] at hfirst
    exact hfirst

/-- The rule of consequence. -/
theorem conseq (h : Triple P m Q E) (hpre : ∀ s, P' s → P s) (hpost : ∀ a s, Q a s → Q' a s) :
    Triple P' m Q' E := by
  intro s hs
  have hlast := h s (hpre s hs)
  cases hresult : m.run s with
  | ok a t =>
    rw [hresult] at hlast
    exact hpost a t hlast
  | error e t =>
    rw [hresult] at hlast
    exact hlast

/-- A choice needs its branches only where they are taken. -/
theorem ite {n : EStateM ε σ α} {c : Prop} [Decidable c] (hthen : c → Triple P m Q E)
    (helse : ¬ c → Triple P n Q E) : Triple P (if c then m else n) Q E := by
  split
  · rename_i hc
    exact hthen hc
  · rename_i hc
    exact helse hc

/-- A program that keeps one condition on every path leaves it behind, whatever its result. -/
theorem final_of_keeps (h : Triple P m (fun _ => P) P) {s : σ} (hs : P s) : P (final (m.run s)) := by
  have hlast := h s hs
  cases hresult : m.run s with
  | ok a t =>
    rw [hresult] at hlast
    exact hlast
  | error e t =>
    rw [hresult] at hlast
    exact hlast

end Triple

section climb

variable {γ : Type} [Preorder γ]

/-- The log of a quantity that has gone from `start` to `now` without ever falling: its
values, the latest first. -/
structure Climb (start now : γ) (log : List γ) : Prop where
  head_eq : log.head? = some now
  last_eq : log.getLast? = some start
  sorted : log.Pairwise (· ≥ ·)

namespace Climb

variable {start now next : γ} {log : List γ}

/-- A quantity that has had one value only. -/
theorem refl (start : γ) : Climb start start [start] := ⟨rfl, rfl, List.pairwise_singleton _ _⟩

/-- No value in the log is above the latest one. -/
theorem le_now (h : Climb start now log) {x : γ} (hx : x ∈ log) : x ≤ now := by
  obtain ⟨hhead, -, hsorted⟩ := h
  cases log with
  | nil => cases hx
  | cons y rest =>
    obtain rfl : y = now := Option.some.inj hhead
    obtain rfl | hx := List.mem_cons.mp hx
    · exact le_rfl
    · exact List.rel_of_pairwise_cons hsorted hx

/-- The quantity has not fallen below its first value. -/
theorem start_le (h : Climb start now log) : start ≤ now :=
  h.le_now (List.mem_of_getLast? h.last_eq)

/-- The next value joins the log when it is no smaller than the latest one. -/
theorem step (h : Climb start now log) (hle : now ≤ next) : Climb start next (next :: log) := by
  refine ⟨rfl, ?_, List.pairwise_cons.mpr ⟨fun x hx => le_trans (h.le_now hx) hle, h.sorted⟩⟩
  rw [List.getLast?_cons, h.last_eq]
  rfl

/-- In the order of time the log never falls. -/
theorem reverse_sorted (h : Climb start now log) : log.reverse.Pairwise (· ≤ ·) :=
  List.pairwise_reverse.mpr h.sorted

end Climb

end climb

end machine
