import Mathlib.Data.List.Induction

namespace machine

/-- A deterministic machine: every input takes the state to one successor and
emits a list of events. -/
structure Machine (σ ι ε : Type) where
  init : σ
  step : σ → ι → σ × List ε

/-- A passive record of a run, updated from each input and the events it caused. -/
structure Observer (ι ε μ : Type) where
  init : μ
  next : μ → ι → List ε → μ

namespace Machine

variable {σ ι ε μ : Type}

/-- The state a list of inputs leads to, first input first. -/
def runFrom (M : Machine σ ι ε) (s : σ) : List ι → σ
  | [] => s
  | i :: rest => M.runFrom (M.step s i).1 rest

/-- Every event emitted on the way, in order. -/
def emits (M : Machine σ ι ε) (s : σ) : List ι → List ε
  | [] => []
  | i :: rest => (M.step s i).2 ++ M.emits (M.step s i).1 rest

/-- What an observer has recorded after a list of inputs. -/
def observeFrom (M : Machine σ ι ε) (O : Observer ι ε μ) (s : σ) (m : μ) : List ι → μ
  | [] => m
  | i :: rest => M.observeFrom O (M.step s i).1 (O.next m i (M.step s i).2) rest

/-- The state a list of inputs leads to, and the events of the last one. -/
def finish (M : Machine σ ι ε) (s : σ) : List ι → σ × List ε
  | [] => (s, [])
  | [i] => M.step s i
  | i :: j :: rest => M.finish (M.step s i).1 (j :: rest)

/-- The inputs of a run, each with the events it caused. -/
def turns (M : Machine σ ι ε) (s : σ) : List ι → List (ι × List ε)
  | [] => []
  | i :: rest => (i, (M.step s i).2) :: M.turns (M.step s i).1 rest

variable (M : Machine σ ι ε) (O : Observer ι ε μ)

/-- The last turn of a longer history is that of its rest. -/
theorem finish_cons (s : σ) (i : ι) {h : List ι} (hne : h ≠ []) :
    M.finish s (i :: h) = M.finish (M.step s i).1 h := by
  cases h with
  | nil => exact absurd rfl hne
  | cons j rest => rfl

def run (h : List ι) : σ := M.runFrom M.init h

def observe (h : List ι) : μ := M.observeFrom O M.init O.init h

/-- A history is run through piece by piece. -/
theorem runFrom_append (s : σ) (h k : List ι) :
    M.runFrom s (h ++ k) = M.runFrom (M.runFrom s h) k := by
  induction h generalizing s with
  | nil => rfl
  | cons i h ih => exact ih _

/-- A history is observed piece by piece. -/
theorem observeFrom_append (s : σ) (m : μ) (h k : List ι) :
    M.observeFrom O s m (h ++ k) = M.observeFrom O (M.runFrom s h) (M.observeFrom O s m h) k := by
  induction h generalizing s m with
  | nil => rfl
  | cons i h ih => exact ih _ _

/-- What a history emits is what its pieces emit, one after the other. -/
theorem emits_append (s : σ) (h k : List ι) :
    M.emits s (h ++ k) = M.emits s h ++ M.emits (M.runFrom s h) k := by
  induction h generalizing s with
  | nil => rfl
  | cons i h ih => rw [List.cons_append, emits, ih, emits, runFrom, List.append_assoc]

theorem run_concat (h : List ι) (i : ι) : M.run (h ++ [i]) = (M.step (M.run h) i).1 :=
  M.runFrom_append M.init h [i]

/-- A history that goes on is run from where it has got to. -/
theorem run_append (h k : List ι) : M.run (h ++ k) = M.runFrom (M.run h) k :=
  M.runFrom_append M.init h k

/-- One more input is one more observation, of the input and of what it emits. -/
theorem observe_concat (h : List ι) (i : ι) :
    M.observe O (h ++ [i]) = O.next (M.observe O h) i (M.step (M.run h) i).2 :=
  M.observeFrom_append O M.init O.init h [i]

/-- A condition on the steps of a run, each judged by what was recorded before
it, the state it starts in and its input. -/
def EveryStep (C : μ → σ → ι → Prop) (h : List ι) : Prop :=
  ∀ before i after, h = before ++ i :: after → C (M.observe O before) (M.run before) i

variable {M O}

/-- The steps of a run include those of its beginning. -/
theorem EveryStep.of_append {C : μ → σ → ι → Prop} {h k : List ι} (hsteps : M.EveryStep O C (h ++ k)) :
    M.EveryStep O C h := by
  intro before j after heq
  apply hsteps before j (after ++ k)
  rw [heq, List.append_assoc, List.cons_append]

/-- What holds at every step holds at every step but the last. -/
theorem EveryStep.init {C : μ → σ → ι → Prop} {h : List ι} {i : ι}
    (hsteps : M.EveryStep O C (h ++ [i])) : M.EveryStep O C h :=
  hsteps.of_append

theorem EveryStep.last {C : μ → σ → ι → Prop} {h : List ι} {i : ι}
    (hsteps : M.EveryStep O C (h ++ [i])) : C (M.observe O h) (M.run h) i :=
  hsteps h i [] rfl

theorem EveryStep.nil {C : μ → σ → ι → Prop} : M.EveryStep O C [] := by
  intro before i after heq
  simp at heq

/-- A history is extended by an input that meets the condition where the history has got to. -/
theorem EveryStep.concat {C : μ → σ → ι → Prop} {h : List ι} {i : ι} (hsteps : M.EveryStep O C h)
    (hlast : C (M.observe O h) (M.run h) i) : M.EveryStep O C (h ++ [i]) := by
  intro before j after heq
  rcases List.eq_nil_or_concat after with rfl | ⟨after, k, rfl⟩
  · obtain ⟨rfl, hj⟩ := List.append_inj' heq rfl
    cases hj
    exact hlast
  · rw [List.concat_eq_append, ← List.cons_append, ← List.append_assoc] at heq
    exact hsteps before j after (List.append_inj' heq rfl).1

/-- A condition on inputs alone holds at every step of a history of such inputs. -/
theorem EveryStep.of_forall {C : μ → σ → ι → Prop} {h : List ι} (hall : ∀ m s, ∀ i ∈ h, C m s i) :
    M.EveryStep O C h := by
  rintro before i after rfl
  exact hall _ _ i (by simp)

/-- A relation between record and state holds along every run whose steps all
meet a condition, when it holds at the start and such steps preserve it. -/
theorem EveryStep.invariant {C : μ → σ → ι → Prop} {P : μ → σ → Prop}
    (hinit : P O.init M.init)
    (hstep : ∀ m s i, P m s → C m s i → P (O.next m i (M.step s i).2) (M.step s i).1)
    {h : List ι} (hsteps : M.EveryStep O C h) : P (M.observe O h) (M.run h) := by
  induction h using List.reverseRecOn with
  | nil => exact hinit
  | append_singleton h i ih =>
    rw [M.run_concat, M.observe_concat]
    exact hstep _ _ _ (ih hsteps.init) hsteps.last

/-- The unconditional form of `EveryStep.invariant`. -/
theorem observed_invariant {P : μ → σ → Prop} (hinit : P O.init M.init)
    (hstep : ∀ m s i, P m s → P (O.next m i (M.step s i).2) (M.step s i).1) (h : List ι) :
    P (M.observe O h) (M.run h) := by
  apply EveryStep.invariant (C := fun _ _ _ => True) hinit
  · intro m s i hinv _
    exact hstep m s i hinv
  · intro _ _ _ _
    trivial

/-- What holds at the start of a run of inputs holds up to a first input that ends it,
if there is one, and otherwise to the end, when each input before ends or keeps it. -/
theorem kept_until {P : List ι → Prop} {E : List ι → ι → Prop} {k : List ι} (hnil : P [])
    (hstep : ∀ between j later, k = between ++ j :: later → P between → E between j ∨ P (between ++ [j])) :
    (∃ between j later, k = between ++ j :: later ∧ P between ∧ E between j) ∨ P k := by
  induction k using List.reverseRecOn with
  | nil => exact Or.inr hnil
  | append_singleton k i ih =>
    have hbefore := ih fun between j later heq =>
      hstep between j (later ++ [i]) (by rw [heq, List.append_assoc, List.cons_append])
    obtain ⟨between, j, later, heq, hkept, hends⟩ | hkept := hbefore
    · exact Or.inl ⟨between, j, later ++ [i], by rw [heq, List.append_assoc, List.cons_append], hkept, hends⟩
    · obtain hends | hnext := hstep k i [] rfl hkept
      · exact Or.inl ⟨k, i, [], rfl, hkept, hends⟩
      · exact Or.inr hnext

/-- A part of the state that inputs write as a whole holds what was written last. -/
theorem run_last_written {β : Type} {value : σ → β} {writes : ι → Option β}
    (hstep : ∀ s i, value (M.step s i).1 = (writes i).getD (value s)) (h : List ι) :
    value (M.run h) = (h.filterMap writes).getLast?.getD (value M.init) := by
  induction h using List.reverseRecOn with
  | nil => rfl
  | append_singleton h i ih =>
    rw [M.run_concat, hstep, ih, List.filterMap_append]
    cases hwrites : writes i with
    | none => simp only [List.filterMap_cons_none hwrites, List.filterMap_nil, List.append_nil, Option.getD_none]
    | some new =>
      simp only [List.filterMap_cons_some hwrites, List.filterMap_nil, List.getLast?_concat, Option.getD_some]

/-- Inputs that lead to a state no input can tell from the one before may be left out of a
run. The turns of the others stay as they are. -/
theorem turns_filter {E : σ → σ → Prop} {p : ι → Bool}
    (hcongr : ∀ s t i, E s t → E (M.step s i).1 (M.step t i).1 ∧ (M.step t i).2 = (M.step s i).2)
    (hquiet : ∀ s t i, p i = false → E s t → E (M.step s i).1 t) {s t : σ} (h : E s t) (k : List ι) :
    (M.turns s k).filter (fun turn => p turn.1) = M.turns t (k.filter p) := by
  induction k generalizing s t with
  | nil => rfl
  | cons i k ih =>
    cases hp : p i with
    | false =>
      rw [turns, List.filter_cons_of_neg (by simp [hp]), List.filter_cons_of_neg (by simp [hp])]
      exact ih (hquiet s t i hp h)
    | true =>
      obtain ⟨hnext, hevents⟩ := hcongr s t i h
      rw [turns, List.filter_cons_of_pos (by simp [hp]), List.filter_cons_of_pos (by simp [hp]), turns, ih hnext,
        hevents]

/-- Along admitted inputs every event is as it should be, when it is so in every step
from the states such inputs never leave. -/
theorem emits_forall {P : ε → Prop} {A : ι → Prop} {D : σ → Prop}
    (hstep : ∀ s i, A i → D s → (∀ event ∈ (M.step s i).2, P event) ∧ D (M.step s i).1)
    {s : σ} (hs : D s) {h : List ι} (hadm : ∀ i ∈ h, A i) : ∀ event ∈ M.emits s h, P event := by
  induction h generalizing s with
  | nil => intro event hevent; cases hevent
  | cons i h ih =>
    intro event hevent
    obtain ⟨hevents, hnext⟩ := hstep s i (hadm i (by simp)) hs
    obtain hevent | hevent := List.mem_append.mp hevent
    · exact hevents event hevent
    · exact ih hnext (fun j hj => hadm j (by simp [hj])) event hevent

/-- What the last turn emits is emitted by the history. -/
theorem mem_emits_of_mem_finish {s : σ} {h : List ι} {event : ε} (hevent : event ∈ (M.finish s h).2) :
    event ∈ M.emits s h := by
  induction h generalizing s with
  | nil => cases hevent
  | cons i h ih =>
    rw [emits, List.mem_append]
    by_cases hne : h = []
    · subst hne
      exact Or.inl hevent
    · rw [M.finish_cons s i hne] at hevent
      exact Or.inr (ih hevent)

/-- An event happens at most once along admitted inputs, when its happening
puts the machine in states that exclude it and admitted inputs never leave. -/
theorem emits_countP_le_one {p : ε → Bool} {A : ι → Prop} {D : σ → Prop}
    (hfirst : ∀ s i, A i → (M.step s i).2.countP p ≤ 1 ∧
      ((M.step s i).2.countP p ≠ 0 → D (M.step s i).1))
    (hdone : ∀ s i, A i → D s → (M.step s i).2.countP p = 0 ∧ D (M.step s i).1)
    (s : σ) (h : List ι) (hadm : ∀ i ∈ h, A i) : (M.emits s h).countP p ≤ 1 := by
  have hquiet : ∀ s i, A i → D s → (∀ event ∈ (M.step s i).2, ¬ p event = true) ∧ D (M.step s i).1 := by
    intro s i hi hs
    obtain ⟨hnone, hnext⟩ := hdone s i hi hs
    exact ⟨List.countP_eq_zero.mp hnone, hnext⟩
  induction h generalizing s with
  | nil => exact Nat.zero_le 1
  | cons i h ih =>
    have hrest : ∀ j ∈ h, A j := fun j hj => hadm j (by simp [hj])
    obtain ⟨hle, hnext⟩ := hfirst s i (hadm i (by simp))
    rw [emits, List.countP_append]
    by_cases hzero : (M.step s i).2.countP p = 0
    · rw [hzero, Nat.zero_add]
      exact ih _ hrest
    · have hnever := List.countP_eq_zero.mpr (emits_forall hquiet (hnext hzero) hrest)
      rw [hnever]
      exact hle

end Machine

end machine
