import HardMail.Session.Events

open memory codec machine

namespace hardmail

variable {sdk : Sdk} {s s' : AppState} {i : Input} {events : List Event} {review : Review}

/-- A history without resets is extended by an input that resets nothing. -/
theorem keeps_concat {k : List Input} (hkeeps : ∀ j ∈ k, j.request.resets = false)
    (hi : i.request.resets = false) : ∀ j ∈ k ++ [i], j.request.resets = false := by
  intro j hj
  obtain hj | hj := List.mem_append.mp hj
  · exact hkeeps j hj
  · rw [List.mem_singleton.mp hj]
    exact hi

/-- A session is the one its last resetting command began. -/
theorem session_history (sdk : Sdk) (h : List Input)
    (hsession : ((app sdk).observe monitor h).session ≠ .none) :
    ∃ before start after, h = before ++ start :: after ∧ start.request.resets = true ∧
      (∀ j ∈ after, j.request.resets = false) ∧
      ((app sdk).observe monitor h).session = Session.none.next start.request ∧
      ((app sdk).observe monitor h).answered = (step sdk ((app sdk).run before) start).2.any Event.success := by
  induction h using List.reverseRecOn with
  | nil => exact absurd rfl hsession
  | append_singleton h i ih =>
    rw [Machine.observe_concat] at hsession ⊢
    cases hresets : i.request.resets with
    | true =>
      refine ⟨h, i, [], rfl, hresets, by simp, ?_, if_pos hresets⟩
      exact Session.next_of_resets _ hresets
    | false =>
      have hsame : (monitor.next ((app sdk).observe monitor h) i ((app sdk).step ((app sdk).run h) i).2).session =
          ((app sdk).observe monitor h).session := Session.next_of_keeps _ hresets
      rw [hsame] at hsession ⊢
      obtain ⟨before, start, after, rfl, hstart, hafter, hnext, hanswered⟩ := ih hsession
      refine ⟨before, start, after ++ [i], by simp, hstart, ?_, hnext, ?_⟩
      · exact keeps_concat hafter hresets
      · rw [← hanswered]
        exact if_neg (by simp [hresets])

/-- A review on the screen has just been opened, or was there before and has not been
answered. -/
theorem Does.screen (h : Does sdk s i s' events) (hscreen : s'.screen = some review) :
    .review review ∈ events ∨ (events.any Event.opens = false ∧ s.screen = some review) := by
  cases h with
  | start hrequest hstart =>
    cases hstart with
    | malformed hpath hreset => exact Or.inr ⟨rfl, hscreen⟩
    | accepted hpath hreset hholds => exact Or.inr ⟨rfl, hscreen⟩
  | pubkey hrequest hpubkey =>
    cases hpubkey with
    | malformed hpath hreset => exact Or.inr ⟨rfl, hscreen⟩
    | failed g_address sw hpath hreset hholds hfail => exact Or.inr ⟨rfl, hscreen⟩
    | answered hpath hreset hholds hkey hdisplay => exact Or.inr ⟨rfl, hscreen⟩
    | shown g_address hpath hreset hholds hkey hdisplay =>
      cases hscreen
      exact Or.inl (by simp)
  | chunk hrequest hdata hchunk =>
    cases hchunk with
    | refused hrefuse hsw => exact Or.inr ⟨rfl, hscreen⟩
    | stored hreq happends hmore => exact Or.inr ⟨rfl, hscreen⟩
    | malformed tx hreq happends hmore hbad => exact Or.inr ⟨rfl, hscreen⟩
    | unhashed residue hreq happends hmore hwire hhash => exact Or.inr ⟨rfl, hscreen⟩
    | notShown hreq happends hmore hwire hhash htoken => exact Or.inr ⟨rfl, hscreen⟩
    | shown display hreq happends hmore hwire hhash htoken =>
      cases hscreen
      exact Or.inl (by simp)
  | other hrequest hcontext hsame hevent =>
    rw [hsame] at hscreen
    obtain ⟨sw, rfl⟩ | ⟨resp, rfl⟩ := hevent
    · exact Or.inr ⟨rfl, hscreen⟩
    · exact Or.inr ⟨rfl, hscreen⟩
  | badLength => exact Or.inr ⟨rfl, hscreen⟩
  | choice hchoice =>
    cases hchoice with
    | idle hidle => exact Or.inr ⟨rfl, hscreen⟩
    | rejected hemail hconfirm => cases hscreen
    | unsigned signature hemail hconfirm hsign => cases hscreen
    | signed hemail hconfirm hsign hraw hlen htx hhash => cases hscreen
    | verified haddress hconfirm => cases hscreen
    | unverified haddress hconfirm => cases hscreen

theorem any_opens (h : .review review ∈ events) : events.any Event.opens = true :=
  List.any_eq_true.mpr ⟨_, h, rfl⟩

/-- A review that stays on the screen is overtaken by the next reset. -/
theorem overtaken_eq_false {m : Monitor} (hquiet : events.any Event.opens = false)
    (hfresh : (monitor.next m i events).overtaken = false) :
    m.overtaken = false ∧ i.request.resets = false := by
  simp only [monitor, hquiet, Bool.not_false, Bool.true_and, Bool.or_eq_false_iff] at hfresh
  exact hfresh

/-- A review on the screen has been there since it was opened, and the monitor has
kept the session that opened it. -/
theorem opened_history (sdk : Sdk) (h : List Input) (hscreen : ((app sdk).run h).screen = some review) :
    ∃ before opening after, h = before ++ opening :: after ∧
      .review review ∈ (step sdk ((app sdk).run before) opening).2 ∧
      ((app sdk).emits ((app sdk).run (before ++ [opening])) after).any Event.opens = false ∧
      ((app sdk).observe monitor h).opened = ((app sdk).observe monitor (before ++ [opening])).session := by
  induction h using List.reverseRecOn with
  | nil => cases hscreen
  | append_singleton h i ih =>
    rw [Machine.run_concat] at hscreen
    obtain hopens | ⟨hnone, hscreen⟩ := (step_does sdk ((app sdk).run h) i).screen hscreen
    · refine ⟨h, i, [], rfl, hopens, rfl, ?_⟩
      rw [Machine.observe_concat]
      exact if_pos (any_opens hopens)
    · obtain ⟨before, opening, after, rfl, hopened, hquiet, hsession⟩ := ih hscreen
      refine ⟨before, opening, after ++ [i], by simp, hopened, ?_, ?_⟩
      · have hrun : (app sdk).runFrom ((app sdk).run (before ++ [opening])) after =
            (app sdk).run (before ++ opening :: after) := by
          rw [← Machine.run_append, List.append_assoc, List.singleton_append]
        rw [Machine.emits_append, List.any_append, hquiet, hrun, Bool.false_or, Machine.emits, Machine.emits,
          List.append_nil]
        exact hnone
      · rw [Machine.observe_concat, ← hsession]
        exact if_neg (Bool.eq_false_iff.mp hnone)

end hardmail
