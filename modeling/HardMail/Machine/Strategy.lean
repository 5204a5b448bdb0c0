import HardMail.Machine.Simulation

namespace machine

variable {σ τ ι κ ε δ α β : Type}

/-- A program that drives a machine. It ends with a result, or gives the machine an input
and goes on with the events that came of it. -/
inductive Strategy (ι ε α : Type) where
  | done (result : α)
  | send (i : ι) (next : List ε → Strategy ι ε α)

namespace Strategy

/-- In a sequence, what the first program leaves is what the second one starts from. An
error of either is an error of both. -/
def bind : Strategy ι ε α → (α → Strategy ι ε β) → Strategy ι ε β
  | done a, f => f a
  | send i next, f => send i fun events => (next events).bind f

instance : Monad (Strategy ι ε) where
  pure := done
  bind := bind

/-- A program that is followed by nothing is the program. -/
theorem bind_done (m : Strategy ι ε α) : m.bind done = m := by
  induction m with
  | done a => rfl
  | send i next ih => exact congrArg (send i) (funext ih)

/-- Sequences of programs need no brackets. -/
theorem bind_bind {γ : Type} (m : Strategy ι ε α) (f : α → Strategy ι ε β) (g : β → Strategy ι ε γ) :
    (m.bind f).bind g = m.bind fun a => (f a).bind g := by
  induction m with
  | done a => rfl
  | send i next ih => exact congrArg (send i) (funext ih)

instance : LawfulMonad (Strategy ι ε) := by
  refine LawfulMonad.mk' (Strategy ι ε) bind_done ?_ bind_bind
  intro α β a f
  rfl

/-- The result of driving a machine from a state, and the state it is left in. -/
def play (M : Machine σ ι ε) (s : σ) : Strategy ι ε α → α × σ
  | done a => (a, s)
  | send i next => (next (M.step s i).2).play M (M.step s i).1

/-- A sequence is played by playing its second program from where the first one ends. -/
theorem play_bind (M : Machine σ ι ε) (s : σ) (m : Strategy ι ε α) (f : α → Strategy ι ε β) :
    (m >>= f).play M s = (f (m.play M s).1).play M (m.play M s).2 := by
  induction m generalizing s with
  | done a => rfl
  | send i next ih => exact ih _ _

/-- What a machine emits while a program drives it. -/
def emits (M : Machine σ ι ε) (s : σ) : Strategy ι ε α → List ε
  | done _ => []
  | send i next => (M.step s i).2 ++ (next (M.step s i).2).emits M (M.step s i).1

/-- Each input the program sends is one that a condition allows in the state it comes to. -/
def Obeys (M : Machine σ ι ε) (C : σ → ι → Prop) (s : σ) : Strategy ι ε α → Prop
  | done _ => True
  | send i next => C s i ∧ (next (M.step s i).2).Obeys M C (M.step s i).1

/-- A sequence obeys a condition when its second program does so from where the first one
ends. -/
theorem obeys_bind {M : Machine σ ι ε} {C : σ → ι → Prop} {s : σ} {m : Strategy ι ε α} (hm : m.Obeys M C s)
    {f : α → Strategy ι ε β} (hf : (f (m.play M s).1).Obeys M C (m.play M s).2) : (m >>= f).Obeys M C s := by
  induction m generalizing s with
  | done a => exact hf
  | send i next ih => exact ⟨hm.1, ih _ hm.2 hf⟩

/-- A program does not notice which of two machines it drives, when its inputs are all
allowed by a condition under which the machines stay related and emit the same. -/
theorem play_of_obeys {M : Machine σ ι ε} {N : Machine τ ι ε} {R : σ → τ → Prop} {C : τ → ι → Prop}
    (hstep : ∀ s t i, R s t → C t i → R (M.step s i).1 (N.step t i).1 ∧ (N.step t i).2 = (M.step s i).2) {s : σ} {t : τ}
    (h : R s t) {m : Strategy ι ε α} (hm : m.Obeys N C t) :
    (m.play M s).1 = (m.play N t).1 ∧ m.emits M s = m.emits N t := by
  induction m generalizing s t with
  | done a => exact ⟨rfl, rfl⟩
  | send i next ih =>
    obtain ⟨hallowed, hrest⟩ := hm
    obtain ⟨hnext, hevents⟩ := hstep s t i h hallowed
    rw [hevents] at hrest
    obtain ⟨hresult, hlater⟩ := ih _ hnext hrest
    rw [play, play, emits, emits, hevents]
    exact ⟨hresult, congrArg _ hlater⟩

end Strategy

namespace Machine

/-- A machine whose events are reported by what `f` makes of them. -/
def report (M : Machine σ ι ε) (f : ε → δ) : Machine σ ι δ where
  init := M.init
  step s i := ((M.step s i).1, (M.step s i).2.map f)

/-- A machine in an environment that has its own part in the `n`-th input. -/
def within (M : Machine σ ι ε) (input : κ → Nat → ι) : Machine (σ × Nat) κ ε where
  init := (M.init, 0)
  step s move := (((M.step s.1 (input move s.2)).1, s.2 + 1), (M.step s.1 (input move s.2)).2)

end Machine

namespace Simulates

variable {M : Machine σ ι ε} {N : Machine τ ι δ} {f : ε → δ} {R : σ → τ → Prop}

/-- An environment with its own part in the inputs keeps machines related. -/
theorem within (h : Simulates M N f R) (input : κ → Nat → ι) :
    Simulates (M.within input) (N.within input) f fun s t => R s.1 t.1 ∧ s.2 = t.2 := by
  refine ⟨⟨h.init, rfl⟩, ?_⟩
  rintro move ⟨s, n⟩ ⟨t, m⟩ ⟨hrel, rfl⟩
  obtain ⟨hnext, hevents⟩ := h.step (input move n) s t hrel
  exact ⟨⟨hnext, rfl⟩, hevents⟩

/-- No program can tell the machines apart, however it reacts to what it is told. -/
theorem play_eq (h : Simulates M N f R) {s : σ} {t : τ} (hrel : R s t) (m : Strategy ι δ α) :
    (m.play (M.report f) s).1 = (m.play N t).1 ∧ R (m.play (M.report f) s).2 (m.play N t).2 := by
  induction m generalizing s t with
  | done a => exact ⟨rfl, hrel⟩
  | send i next ih =>
    obtain ⟨hnext, hevents⟩ := h.step i s t hrel
    rw [Strategy.play, Strategy.play, hevents]
    exact ih _ hnext

end Simulates

/-- A program that can fail. -/
abbrev Client (ι ε χ α : Type) := ExceptT χ (Strategy ι ε) α

namespace Client

variable {χ : Type} {M : Machine σ ι ε} {s t : σ}

/-- Running the program from a state ends with a result, in a state. -/
def Ends (M : Machine σ ι ε) (s : σ) (m : Client ι ε χ α) (result : Except χ α) (t : σ) : Prop :=
  m.run.play M s = (result, t)

theorem ends_pure (a : α) : Ends M s (pure a : Client ι ε χ α) (.ok a) s := rfl

theorem ends_throw (e : χ) : Ends M s (throw e : Client ι ε χ α) (.error e) s := rfl

/-- After a value a sequence ends as its second program does. -/
theorem Ends.bind_ok {m : Client ι ε χ α} {f : α → Client ι ε χ β} {a : α} {result : Except χ β} {u : σ}
    (hm : Ends M s m (.ok a) t) (hf : Ends M t (f a) result u) : Ends M s (m >>= f) result u := by
  rw [Ends, ExceptT.run_bind, Strategy.play_bind, hm]
  exact hf

/-- An error ends a sequence. -/
theorem Ends.bind_error {m : Client ι ε χ α} (f : α → Client ι ε χ β) {e : χ} (hm : Ends M s m (.error e) t) :
    Ends M s (m >>= f) (.error e) t := by
  rw [Ends, ExceptT.run_bind, Strategy.play_bind, hm]
  rfl

/-- From every state that meets `P` the program sends only what is allowed, and leaves a
state that meets `Q` with its result or `E` with what it raises. -/
def Keeps (M : Machine σ ι ε) (C : σ → ι → Prop) (P : σ → Prop) (m : Client ι ε χ α) (Q : α → σ → Prop)
    (E : σ → Prop) : Prop :=
  ∀ s, P s → m.run.Obeys M C s ∧
    match m.run.play M s with
    | (.ok a, t) => Q a t
    | (.error _, t) => E t

namespace Keeps

variable {C : σ → ι → Prop} {P P' : σ → Prop} {m : Client ι ε χ α} {Q Q' : α → σ → Prop} {E : σ → Prop}

theorem pure {a : α} (h : ∀ s, P s → Q a s) : Keeps M C P (Pure.pure a : Client ι ε χ α) Q E :=
  fun s hs => ⟨trivial, h s hs⟩

theorem throw {e : χ} (h : ∀ s, P s → E s) : Keeps M C P (throw e : Client ι ε χ α) Q E :=
  fun s hs => ⟨trivial, h s hs⟩

theorem bind (hm : Keeps M C P m Q E) {f : α → Client ι ε χ β} {S : β → σ → Prop}
    (hf : ∀ a, Keeps M C (Q a) (f a) S E) : Keeps M C P (m >>= f) S E := by
  intro s hs
  obtain ⟨hobeys, hpost⟩ := hm s hs
  rw [ExceptT.run_bind]
  cases hresult : m.run.play M s with
  | mk result t =>
    rw [hresult] at hpost
    cases result with
    | ok a =>
      obtain ⟨hrest, hlast⟩ := hf a t hpost
      refine ⟨Strategy.obeys_bind hobeys ?_, ?_⟩
      · rw [hresult]
        exact hrest
      · rw [Strategy.play_bind, hresult]
        exact hlast
    | error e =>
      refine ⟨Strategy.obeys_bind hobeys ?_, ?_⟩
      · rw [hresult]
        trivial
      · rw [Strategy.play_bind, hresult]
        exact hpost

/-- The rule of consequence. -/
theorem conseq (h : Keeps M C P m Q E) (hpre : ∀ s, P' s → P s) (hpost : ∀ a s, Q a s → Q' a s) :
    Keeps M C P' m Q' E := by
  intro s hs
  obtain ⟨hobeys, hlast⟩ := h s (hpre s hs)
  refine ⟨hobeys, ?_⟩
  cases hresult : m.run.play M s with
  | mk result t =>
    rw [hresult] at hlast
    cases result with
    | ok a => exact hpost a t hlast
    | error e => exact hlast

end Keeps

end Client

end machine
