import HardMail.Machine.Run
import Mathlib.Data.List.Forall2

namespace machine

variable {σ τ ι ε δ μ : Type}

/-- Steps of related states stay related, and one machine's events are those of the
other under a reading of events. -/
def Matches (M : Machine σ ι ε) (N : Machine τ ι δ) (f : ε → δ) (R : σ → τ → Prop) (i : ι) : Prop :=
  ∀ s t, R s t → R (M.step s i).1 (N.step t i).1 ∧ (N.step t i).2 = (M.step s i).2.map f

/-- One machine simulates another, step by step. -/
structure Simulates (M : Machine σ ι ε) (N : Machine τ ι δ) (f : ε → δ) (R : σ → τ → Prop) : Prop where
  init : R M.init N.init
  step : ∀ i, Matches M N f R i

namespace Machine

variable {M : Machine σ ι ε} {N : Machine τ ι δ} {f : ε → δ} {R : σ → τ → Prop}

/-- Each input of a run is one that a condition allows in the state it comes to. -/
def Admits (M : Machine σ ι ε) (C : σ → ι → Prop) (s : σ) : List ι → Prop
  | [] => True
  | i :: k => C s i ∧ M.Admits C (M.step s i).1 k

instance Admits.decidable (C : σ → ι → Prop) [∀ s, DecidablePred (C s)] : ∀ s k, Decidable (M.Admits C s k)
  | _, [] => inferInstanceAs (Decidable True)
  | s, i :: k =>
    have : Decidable (M.Admits C (M.step s i).1 k) := Admits.decidable C _ k
    inferInstanceAs (Decidable (C s i ∧ M.Admits C (M.step s i).1 k))

theorem admits_true (s : σ) (k : List ι) : M.Admits (fun _ _ => True) s k := by
  induction k generalizing s with
  | nil => trivial
  | cons i k ih => exact ⟨trivial, ih _⟩

/-- Two runs from related states over inputs that the second machine admits, when its
admitted inputs keep states related. -/
theorem runFrom_of_admits {C : τ → ι → Prop}
    (hstep : ∀ s t i, R s t → C t i → R (M.step s i).1 (N.step t i).1 ∧ (N.step t i).2 = (M.step s i).2.map f)
    {s : σ} {t : τ} (h : R s t) {k : List ι} (hk : N.Admits C t k) :
    R (M.runFrom s k) (N.runFrom t k) ∧ N.emits t k = (M.emits s k).map f := by
  induction k generalizing s t with
  | nil => exact ⟨h, rfl⟩
  | cons i k ih =>
    obtain ⟨hadmitted, hrest⟩ := hk
    obtain ⟨hnext, hevents⟩ := hstep s t i h hadmitted
    obtain ⟨hlast, hlater⟩ := ih hnext hrest
    refine ⟨hlast, ?_⟩
    rw [emits, emits, List.map_append, hevents, hlater]

/-- Two runs over the same inputs, from related states. -/
theorem matches_runFrom (hstep : ∀ i, Matches M N f R i) {s : σ} {t : τ} (h : R s t) (k : List ι) :
    R (M.runFrom s k) (N.runFrom t k) ∧ N.emits t k = (M.emits s k).map f :=
  runFrom_of_admits (fun s t i hrelated _ => hstep i s t hrelated) h (admits_true t k)

/-- Two machines take turns alike, each with inputs of its own, as long as `P` holds of
the turns of the one and the inputs of the other, and lets their steps be the same. -/
theorem turns_congr {κ : Type} {N : Machine σ κ ε} {P : ι × List ε → κ → Prop}
    (hstep : ∀ s i j, P (i, (M.step s i).2) j → N.step s j = M.step s i) {s : σ} {h : List ι} {k : List κ}
    (halike : List.Forall₂ P (M.turns s h) k) :
    (N.turns s k).map Prod.snd = (M.turns s h).map Prod.snd := by
  induction h generalizing s k with
  | nil =>
    cases halike
    rfl
  | cons i h ih =>
    cases halike with
    | @cons _ j _ k hturn hrest =>
      have hsame := hstep s i j hturn
      rw [turns, turns, List.map_cons, List.map_cons, hsame, ih hrest]

end Machine

namespace Simulates

variable {M : Machine σ ι ε} {N : Machine τ ι δ} {f : ε → δ} {R : σ → τ → Prop}

/-- Related machines stay related along every history. -/
theorem run (h : Simulates M N f R) (k : List ι) : R (M.run k) (N.run k) :=
  (Machine.matches_runFrom h.step h.init k).1

/-- The simulated machine emits what the simulating one does. -/
theorem emits_eq (h : Simulates M N f R) (k : List ι) : N.emits N.init k = (M.emits M.init k).map f :=
  (Machine.matches_runFrom h.step h.init k).2

/-- The simulated machine takes the turns of the simulating one. -/
theorem turns_eq (h : Simulates M N f R) {s : σ} {t : τ} (hrel : R s t) (k : List ι) :
    N.turns t k = (M.turns s k).map (Prod.map id (List.map f)) := by
  induction k generalizing s t with
  | nil => rfl
  | cons i k ih =>
    obtain ⟨hnext, hevents⟩ := h.step i s t hrel
    rw [Machine.turns, Machine.turns, List.map_cons, hevents, ih hnext]
    rfl

end Simulates

end machine
