import HardMail.Machine.Simulation

open machine

namespace hardmail

/-- `internal_storage_t` -/
structure InternalStorage where
  dummy1_allowed : UInt8
  dummy2_allowed : UInt8
  initialized : UInt8
  deriving DecidableEq, Repr

/-- What the display framework can call back from. -/
inductive MenuScreen where
  /-- the application has not been started -/
  | off
  | settings
  | warning
  /-- a review, which covers the menu -/
  | covered
  deriving DecidableEq, Repr

/-- The storage that outlives the application, and the static data of the menu. -/
structure MenuState where
  N_storage : InternalStorage
  switch1 : UInt8
  switch2 : UInt8
  initSettingPage : UInt8
  screen : MenuScreen

/-- What the display framework is told to draw, with the states of the two switches. -/
inductive Drawn (α : Type) where
  | nbgl_useCaseHomeAndSettings (page : UInt8) (switch1 switch2 : α)
  | nbgl_useCaseChoice
  deriving DecidableEq, Repr

def Drawn.map {α β : Type} (f : α → β) : Drawn α → Drawn β
  | nbgl_useCaseHomeAndSettings page switch1 switch2 => nbgl_useCaseHomeAndSettings page (f switch1) (f switch2)
  | nbgl_useCaseChoice => nbgl_useCaseChoice

/-- The constants of the display framework that the menu uses. -/
structure Nbgl where
  FIRST_USER_TOKEN : Int
  INIT_HOME_PAGE : UInt8

/-- What can happen to the menu. -/
inductive MenuInput where
  | app_main
  | controls_callback (token : Int) (index : UInt8) (page : Int)
  | review_warning_choice (confirm : Bool)
  | review
  | ui_menu_main

def logicalNot (b : UInt8) : UInt8 := if b = 0 then 1 else 0

variable (nbgl : Nbgl)

def Nbgl.DUMMY_SWITCH_1_TOKEN : Int := nbgl.FIRST_USER_TOKEN
def Nbgl.DUMMY_SWITCH_2_TOKEN : Int := nbgl.FIRST_USER_TOKEN + 1

def ui_menu_main (m : MenuState) : MenuState × List (Drawn UInt8) :=
  let m := { m with
    switch1 := m.N_storage.dummy1_allowed, switch2 := m.N_storage.dummy2_allowed, screen := .settings }
  (m, [.nbgl_useCaseHomeAndSettings nbgl.INIT_HOME_PAGE m.switch1 m.switch2])

/-- The end of the preparations of `app_main`. -/
def initStorage (m : MenuState) : MenuState :=
  if m.N_storage.initialized ≠ 1 then { m with N_storage := ⟨0, 0, 1⟩ } else m

/-- `app_main` up to its loop. The menu is drawn before the storage is initialized. -/
def start (m : MenuState) : MenuState × List (Drawn UInt8) :=
  let drawn := ui_menu_main nbgl { m with switch1 := 0, switch2 := 0, initSettingPage := 0 }
  (initStorage drawn.1, drawn.2)

def controls_callback (m : MenuState) (token page : Int) : MenuState × List (Drawn UInt8) :=
  let m := { m with initSettingPage := UInt8.ofInt page }
  if token = nbgl.DUMMY_SWITCH_1_TOKEN then
    let switch_value := logicalNot m.N_storage.dummy1_allowed
    ({ m with switch1 := switch_value, N_storage := { m.N_storage with dummy1_allowed := switch_value } }, [])
  else if token = nbgl.DUMMY_SWITCH_2_TOKEN then
    if m.N_storage.dummy2_allowed = 0 then ({ m with screen := .warning }, [.nbgl_useCaseChoice])
    else
      let switch_value := logicalNot m.N_storage.dummy2_allowed
      ({ m with switch2 := switch_value, N_storage := { m.N_storage with dummy2_allowed := switch_value } }, [])
  else (m, [])

def review_warning_choice (m : MenuState) (confirm : Bool) : MenuState × List (Drawn UInt8) :=
  let m :=
    if confirm then
      let switch_value := logicalNot m.N_storage.dummy2_allowed
      { m with switch2 := switch_value, N_storage := { m.N_storage with dummy2_allowed := switch_value } }
    else m
  ({ m with screen := .settings }, [.nbgl_useCaseHomeAndSettings m.initSettingPage m.switch1 m.switch2])

/-- A callback comes from the page that is drawn. Nothing but `app_main` happens to an
application that has not been started. -/
def menuStep (m : MenuState) : MenuInput → MenuState × List (Drawn UInt8)
  | .app_main => start nbgl m
  | .controls_callback token _ page => if m.screen = .settings then controls_callback nbgl m token page else (m, [])
  | .review_warning_choice confirm => if m.screen = .warning then review_warning_choice m confirm else (m, [])
  | .review => if m.screen = .off then (m, []) else ({ m with screen := .covered }, [])
  | .ui_menu_main => if m.screen = .off then (m, []) else ui_menu_main nbgl m

/-- The menu on a device whose storage holds `N_storage`. -/
def menu (N_storage : InternalStorage) : Machine MenuState MenuInput (Drawn UInt8) :=
  ⟨⟨N_storage, 0, 0, 0, .off⟩, menuStep nbgl⟩

/-- The settings themselves: two flags that stay as they are until the user changes them,
the second of which is turned on by a confirmed warning only. -/
structure Settings where
  first : Bool
  second : Bool
  page : UInt8
  screen : MenuScreen

namespace Settings

def home (t : Settings) (page : UInt8) : Settings × List (Drawn Bool) :=
  ({ t with screen := .settings }, [.nbgl_useCaseHomeAndSettings page t.first t.second])

def touch (t : Settings) (token page : Int) : Settings × List (Drawn Bool) :=
  let t := { t with page := UInt8.ofInt page }
  if token = nbgl.DUMMY_SWITCH_1_TOKEN then ({ t with first := !t.first }, [])
  else if token ≠ nbgl.DUMMY_SWITCH_2_TOKEN then (t, [])
  else if t.second then ({ t with second := false }, [])
  else ({ t with screen := .warning }, [.nbgl_useCaseChoice])

def step (t : Settings) : MenuInput → Settings × List (Drawn Bool)
  | .app_main => { t with page := 0 }.home nbgl.INIT_HOME_PAGE
  | .controls_callback token _ page => if t.screen = .settings then t.touch nbgl token page else (t, [])
  | .review_warning_choice confirm =>
    if t.screen = .warning then { t with second := confirm }.home t.page else (t, [])
  | .review => if t.screen = .off then (t, []) else ({ t with screen := .covered }, [])
  | .ui_menu_main => if t.screen = .off then (t, []) else t.home nbgl.INIT_HOME_PAGE

end Settings

/-- The settings that a storage holds. One that has not been initialized holds none. -/
def settings (N_storage : InternalStorage) : Machine Settings MenuInput (Drawn Bool) :=
  ⟨⟨N_storage.initialized = 1 ∧ N_storage.dummy1_allowed ≠ 0, N_storage.initialized = 1 ∧ N_storage.dummy2_allowed ≠ 0,
    0, .off⟩, Settings.step nbgl⟩

/-- What the application leaves in its storage, or finds in one that nothing has written. -/
def InternalStorage.Sound (N_storage : InternalStorage) : Prop :=
  if N_storage.initialized = 1 then N_storage.dummy1_allowed ≤ 1 ∧ N_storage.dummy2_allowed ≤ 1
  else N_storage.dummy1_allowed = 0 ∧ N_storage.dummy2_allowed = 0

/-- The storage holds the settings, and what is drawn next agrees with them. -/
structure Stores (t : Settings) (m : MenuState) : Prop where
  dummy1_eq : m.N_storage.dummy1_allowed = t.first.toUInt8
  dummy2_eq : m.N_storage.dummy2_allowed = t.second.toUInt8
  initialized : m.screen ≠ .off → m.N_storage.initialized = 1
  fresh : m.N_storage.initialized ≠ 1 → t.first = false ∧ t.second = false
  switches : m.screen = .settings ∨ m.screen = .warning → m.switch1 = t.first.toUInt8 ∧ m.switch2 = t.second.toUInt8
  page_eq : m.initSettingPage = t.page
  screen_eq : m.screen = t.screen
  warned : t.screen = .warning → t.second = false

/-- A turn of the menu that the settings have too. -/
structure Draws (turn : Settings × List (Drawn Bool)) (effect : MenuState × List (Drawn UInt8)) : Prop where
  stores : Stores turn.1 effect.1
  drawn_eq : effect.2 = turn.2.map (Drawn.map Bool.toUInt8)

variable {nbgl} {t : Settings} {m : MenuState}

theorem logicalNot_toUInt8 (b : Bool) : logicalNot b.toUInt8 = (!b).toUInt8 := by cases b <;> rfl

/-- A start draws what the flags say, and settles the storage. -/
theorem start_draws (h : Stores t m) : Draws (t.step nbgl .app_main) (start nbgl m) := by
  obtain ⟨hfirst, hsecond, -, hfresh, -, -, -, -⟩ := h
  have hdrawn : [Drawn.nbgl_useCaseHomeAndSettings nbgl.INIT_HOME_PAGE m.N_storage.dummy1_allowed
      m.N_storage.dummy2_allowed] =
      [Drawn.nbgl_useCaseHomeAndSettings nbgl.INIT_HOME_PAGE t.first t.second].map (Drawn.map Bool.toUInt8) := by
    rw [hfirst, hsecond]
    rfl
  by_cases hinit : m.N_storage.initialized = 1
  · have hkeep : (start nbgl m).1 =
        ⟨m.N_storage, m.N_storage.dummy1_allowed, m.N_storage.dummy2_allowed, 0, .settings⟩ :=
      if_neg (not_not_intro hinit)
    refine ⟨?_, hdrawn⟩
    rw [hkeep]
    exact ⟨hfirst, hsecond, fun _ => hinit, hfresh, fun _ => ⟨hfirst, hsecond⟩, rfl, rfl, MenuScreen.noConfusion⟩
  · obtain ⟨hoff1, hoff2⟩ := hfresh hinit
    have hclear : (start nbgl m).1 =
        ⟨⟨0, 0, 1⟩, m.N_storage.dummy1_allowed, m.N_storage.dummy2_allowed, 0, .settings⟩ := if_pos hinit
    refine ⟨?_, hdrawn⟩
    rw [hclear]
    refine ⟨?_, ?_, fun _ => rfl, fun hne => absurd rfl hne, fun _ => ⟨hfirst, hsecond⟩, rfl, rfl,
      MenuScreen.noConfusion⟩
    · change _ = t.first.toUInt8
      rw [hoff1]
      rfl
    · change _ = t.second.toUInt8
      rw [hoff2]
      rfl

/-- A touch of a switch draws what the flags say, or asks for the warning. -/
theorem controls_callback_draws (h : Stores t m) (hscreen : m.screen = .settings) (token page : Int) :
    Draws (t.touch nbgl token page) (controls_callback nbgl m token page) := by
  obtain ⟨hfirst, hsecond, hinit, hfresh, hswitches, -, hsame, -⟩ := h
  have hon : m.N_storage.initialized = 1 := hinit fun hoff => MenuScreen.noConfusion (hscreen.symm.trans hoff)
  obtain ⟨hswitch1, hswitch2⟩ := hswitches (Or.inl hscreen)
  have hcalm : t.screen = .warning → t.second = false := fun hwarning =>
    MenuScreen.noConfusion (hscreen.symm.trans (hsame.trans hwarning))
  unfold Settings.touch controls_callback
  dsimp only
  by_cases hone : token = nbgl.DUMMY_SWITCH_1_TOKEN
  · have hflip : logicalNot m.N_storage.dummy1_allowed = (!t.first).toUInt8 := by
      rw [hfirst, logicalNot_toUInt8]
    rw [if_pos hone, if_pos hone]
    exact
      ⟨⟨hflip, hsecond, fun _ => hon, fun hne => absurd hon hne, fun _ => ⟨hflip, hswitch2⟩, rfl, hsame, hcalm⟩, rfl⟩
  rw [if_neg hone, if_neg hone]
  by_cases htwo : token = nbgl.DUMMY_SWITCH_2_TOKEN
  · rw [if_neg (not_not_intro htwo), if_pos htwo]
    cases hflag : t.second with
    | false =>
      rw [hflag] at hsecond hswitch2
      have hclear : m.N_storage.dummy2_allowed = 0 := hsecond
      rw [if_pos hclear]
      exact ⟨⟨hfirst, hsecond, fun _ => hon, fun hne => absurd hon hne, fun _ => ⟨hswitch1, hswitch2⟩, rfl, rfl,
        fun _ => rfl⟩, rfl⟩
    | true =>
      have hflip : logicalNot m.N_storage.dummy2_allowed = Bool.toUInt8 false := by
        rw [hsecond, hflag]
        rfl
      have hset : ¬ m.N_storage.dummy2_allowed = 0 := by
        rw [hsecond, hflag]
        decide
      rw [if_neg hset]
      exact ⟨⟨hfirst, hflip, fun _ => hon, fun hne => absurd hon hne, fun _ => ⟨hswitch1, hflip⟩, rfl, hsame,
        fun _ => rfl⟩, rfl⟩
  · rw [if_pos htwo, if_neg htwo]
    exact ⟨⟨hfirst, hsecond, hinit, hfresh, hswitches, rfl, hsame, hcalm⟩, rfl⟩

/-- The answer to the warning sets the second flag, and draws it. -/
theorem review_warning_choice_draws (h : Stores t m) (hscreen : m.screen = .warning) (confirm : Bool) :
    Draws ({ t with second := confirm }.home t.page) (review_warning_choice m confirm) := by
  obtain ⟨hfirst, hsecond, hinit, -, hswitches, hpage, hsame, hwarned⟩ := h
  have hon : m.N_storage.initialized = 1 := hinit fun hoff => MenuScreen.noConfusion (hscreen.symm.trans hoff)
  obtain ⟨hswitch1, hswitch2⟩ := hswitches (Or.inr hscreen)
  have hoff : t.second = false := hwarned (hsame.symm.trans hscreen)
  have hcalm : MenuScreen.settings = .warning → confirm = false := MenuScreen.noConfusion
  unfold review_warning_choice Settings.home
  cases confirm with
  | false =>
    rw [hoff] at hsecond hswitch2
    refine
      ⟨⟨hfirst, hsecond, fun _ => hon, fun hne => absurd hon hne, fun _ => ⟨hswitch1, hswitch2⟩, hpage, rfl, hcalm⟩, ?_⟩
    simp only [Bool.false_eq_true, if_false, hpage, hswitch1, hswitch2, Drawn.map, List.map_cons, List.map_nil]
  | true =>
    have hflip : logicalNot m.N_storage.dummy2_allowed = Bool.toUInt8 true := by
      rw [hsecond, hoff]
      rfl
    refine ⟨⟨hfirst, hflip, fun _ => hon, fun hne => absurd hon hne, fun _ => ⟨hswitch1, hflip⟩, hpage, rfl, hcalm⟩, ?_⟩
    simp only [if_true, hpage, hswitch1, hflip, Drawn.map, List.map_cons, List.map_nil]

/-- A return to the menu draws the flags as they are. -/
theorem ui_menu_main_draws (h : Stores t m) (hoff : m.screen ≠ .off) :
    Draws (t.home nbgl.INIT_HOME_PAGE) (ui_menu_main nbgl m) := by
  obtain ⟨hfirst, hsecond, hinit, hfresh, -, hpage, -, -⟩ := h
  refine ⟨⟨hfirst, hsecond, fun _ => hinit hoff, hfresh, fun _ => ⟨hfirst, hsecond⟩, hpage, rfl, ?_⟩, ?_⟩
  · intro hscreen
    cases hscreen
  · simp only [ui_menu_main, Settings.home, hfirst, hsecond, Drawn.map, List.map_cons, List.map_nil]

/-- Every input draws what the flags say. -/
theorem menuStep_draws (h : Stores t m) (i : MenuInput) : Draws (t.step nbgl i) (menuStep nbgl m i) := by
  have hsame := h.screen_eq
  have hstay : Draws (t, []) (m, []) := ⟨h, rfl⟩
  cases i with
  | app_main => exact start_draws h
  | controls_callback token index page =>
    simp only [Settings.step, menuStep, ← hsame]
    split_ifs with hscreen
    · exact controls_callback_draws h hscreen token page
    · exact hstay
  | review_warning_choice confirm =>
    simp only [Settings.step, menuStep, ← hsame]
    split_ifs with hscreen
    · exact review_warning_choice_draws h hscreen confirm
    · exact hstay
  | review =>
    simp only [Settings.step, menuStep, ← hsame]
    split_ifs with hscreen
    · exact hstay
    · obtain ⟨hfirst, hsecond, hinit, hfresh, -, hpage, -, -⟩ := h
      refine ⟨⟨hfirst, hsecond, fun _ => hinit hscreen, hfresh, ?_, hpage, rfl, ?_⟩, rfl⟩
      · rintro (hshown | hshown)
        · cases hshown
        · cases hshown
      · intro hshown
        cases hshown
  | ui_menu_main =>
    simp only [Settings.step, menuStep, ← hsame]
    split_ifs with hscreen
    · exact hstay
    · exact ui_menu_main_draws h hscreen

theorem eq_toUInt8_of_le_one {b : UInt8} (h : b ≤ 1) : b = Bool.toUInt8 (b ≠ 0) := by
  have hle : b.toNat ≤ 1 := UInt8.le_iff_toNat_le.mp h
  obtain hzero | hone : b.toNat = 0 ∨ b.toNat = 1 := by omega
  · rw [UInt8.toNat_inj.mp (hzero.trans UInt8.toNat_zero.symm)]
    rfl
  · rw [UInt8.toNat_inj.mp (hone.trans UInt8.toNat_one.symm)]
    rfl

theorem toUInt8_le_one (b : Bool) : b.toUInt8 ≤ 1 := by cases b <;> decide

/-- Over a sound storage the menu starts with the flags that are stored. -/
theorem stores_init {N_storage : InternalStorage} (h : N_storage.Sound) :
    Stores (settings nbgl N_storage).init (menu nbgl N_storage).init := by
  unfold InternalStorage.Sound at h
  have hstart : ∀ first second, N_storage.dummy1_allowed = Bool.toUInt8 first →
      N_storage.dummy2_allowed = Bool.toUInt8 second → (N_storage.initialized ≠ 1 → first = false ∧ second = false) →
      Stores ⟨first, second, 0, .off⟩ ⟨N_storage, 0, 0, 0, .off⟩ := by
    intro first second hfirst hsecond hfresh
    refine ⟨hfirst, hsecond, fun hoff => absurd rfl hoff, hfresh, ?_, rfl, rfl, MenuScreen.noConfusion⟩
    rintro (hshown | hshown)
    · cases hshown
    · cases hshown
  split_ifs at h with hinit
  · apply hstart
    · simp only [hinit, true_and]
      exact eq_toUInt8_of_le_one h.1
    · simp only [hinit, true_and]
      exact eq_toUInt8_of_le_one h.2
    · exact fun hne => absurd hinit hne
  · apply hstart
    · simp only [hinit, false_and, decide_false]
      exact h.1
    · simp only [hinit, false_and, decide_false]
      exact h.2
    · simp only [hinit, false_and, decide_false, and_self, implies_true]

/-- Over a sound storage the code draws what the two flags say, step by step. -/
theorem settings_simulates_menu (nbgl : Nbgl) {N_storage : InternalStorage} (h : N_storage.Sound) :
    Simulates (settings nbgl N_storage) (menu nbgl N_storage) (Drawn.map Bool.toUInt8) Stores := by
  refine ⟨stores_init h, ?_⟩
  intro i t m hstores
  have hdraws : Draws (t.step nbgl i) (menuStep nbgl m i) := menuStep_draws hstores i
  exact ⟨hdraws.stores, hdraws.drawn_eq⟩

/-- Over every run of starts, touches, answers and reviews the user sees the settings, as
long as the storage was sound when the application first found it, and only then. -/
theorem menu_draws_settings_iff (nbgl : Nbgl) (N_storage : InternalStorage) :
    (∀ h, (menu nbgl N_storage).emits (menu nbgl N_storage).init h =
      ((settings nbgl N_storage).emits (settings nbgl N_storage).init h).map (Drawn.map Bool.toUInt8)) ↔
      N_storage.Sound := by
  constructor
  · intro hdraws
    have hfirst := hdraws [.app_main]
    change [Drawn.nbgl_useCaseHomeAndSettings nbgl.INIT_HOME_PAGE N_storage.dummy1_allowed N_storage.dummy2_allowed] =
      [.nbgl_useCaseHomeAndSettings nbgl.INIT_HOME_PAGE
        (Bool.toUInt8 (N_storage.initialized = 1 ∧ N_storage.dummy1_allowed ≠ 0))
        (Bool.toUInt8 (N_storage.initialized = 1 ∧ N_storage.dummy2_allowed ≠ 0))] at hfirst
    simp only [List.cons.injEq, Drawn.nbgl_useCaseHomeAndSettings.injEq, true_and, and_true] at hfirst
    unfold InternalStorage.Sound
    split_ifs with hinit
    · rw [hfirst.1, hfirst.2]
      exact ⟨toUInt8_le_one _, toUInt8_le_one _⟩
    · simp only [hinit, false_and, decide_false] at hfirst
      exact hfirst
  · intro hsound h
    exact (settings_simulates_menu nbgl hsound).emits_eq h

end hardmail
