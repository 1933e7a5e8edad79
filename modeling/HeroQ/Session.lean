/-
  The filter screen while requests come and go.

  Between its opening and Save or Close, taps change the screen and nothing else, and refreshes and
  completion handlers change everything but the screen.  So they commute (`taps_commute`), and
  the order in which they interleave is of no consequence (`session_order_irrelevant`); a session
  that is closed leaves no trace (`abandoned_session`), and one that is saved selects from the
  master list of the time of Save among the roles of the time of the opening (`saved_session`).
-/
import HeroQ.Save
import HeroQ.Lib.Traces

namespace HeroQ

open HeroListInteractor FilterInteractor

variable {P : Platform}

/-- The refreshes and the completion handlers. -/
def Event.ofNetwork : Event → Bool
  | .fetchHeroes _ _ | .complete _ _ _ => true
  | _ => false

/-- The row and the new state of the button that an event taps. -/
def Event.tapped : Event → Option (ℕ × Bool)
  | .roleButtonTapped row isSelected => some (row, isSelected)
  | _ => none

theorem tapped_isSome_iff {e : Event} :
    e.tapped.isSome = true ↔ ∃ row isSelected, e = .roleButtonTapped row isSelected := by
  cases e <;> simp [Event.tapped]

/-- What can happen while the filter screen stays open: taps, refreshes, completion handlers, and
    Save when nothing is selected. -/
def Event.inSession : Event → Bool
  | .roleButtonTapped _ _ | .saveButtonTapped | .fetchHeroes _ _ | .complete _ _ _ => true
  | _ => false

/-! ## What commutes -/

/-- A refresh or a handler does not look at the screen, and leaves it as it is. -/
theorem step_network {e : Event} (he : e.ofNetwork = true) (screen : Option (List RoleFilter))
    (s : App) :
    App.step P { s with screen := screen } e =
      (App.step P s e).map fun s' => { s' with screen := screen } := by
  cases e with
  | fetchHeroes io isConnectedToInternet => cases isConnectedToInternet <;> rfl
  | complete request result io =>
    simp only [App.step]
    split_ifs with hrequest
    · cases hresult : HeroService.completion result with
      | ok response => simp only [complete_success P hresult, Option.map_some]
      | error error => simp only [complete_failure P hresult, Option.map_some]
    · rfl
  | launch | filterButtonTapped | saveButtonTapped | closeButtonTapped => cases he
  | roleButtonTapped row isSelected => cases he

theorem screen_of_network {e : Event} (he : e.ofNetwork = true) {s s' : App}
    (hstep : App.step P s e = some s') : s'.screen = s.screen := by
  cases step_transition hstep with
  | request | noInternet => rfl
  | success _ _ | failure _ _ => rfl
  | launch => cases he
  | opened _ _ | tapped _ _ | alerted _ _ | saved _ _ | closed _ => cases he

/-- An event that reads and writes the screen only. -/
def ScreenOnly (P : Platform) (e : Event) : Prop :=
  ∃ write : Option (List RoleFilter) → Option (Option (List RoleFilter)),
    ∀ s, App.step P s e = (write s.screen).map fun screen => { s with screen := screen }

theorem screenOnly_tap (row : ℕ) (isSelected : Bool) :
    ScreenOnly P (.roleButtonTapped row isSelected) := by
  refine ⟨fun screen => screen.bind fun roles => (tap roles (row, isSelected)).map some, ?_⟩
  intro s
  rw [App.step]
  cases s.screen with
  | none => rfl
  | some roles =>
    simp only [Option.bind_some, Option.map_map]
    rfl

/-- **The screen and the network commute.** -/
theorem commutes_network {e e' : Event} (he : ScreenOnly P e) (he' : e'.ofNetwork = true) :
    Runs.Commutes (App.step P) e e' := by
  obtain ⟨write, he⟩ := he
  intro s
  rw [Runs.run_cons, Runs.run_cons, he]
  simp only [Runs.run_cons, Runs.run_nil, Option.bind_fun_some]
  cases hwrite : write s.screen with
  | none =>
    cases hstep : App.step P s e' with
    | none => rfl
    | some s' =>
      rw [Option.bind_some, he, screen_of_network he' hstep, hwrite]
      rfl
  | some screen =>
    rw [Option.map_some, Option.bind_some, step_network he' screen s]
    cases hstep : App.step P s e' with
    | none => rfl
    | some s' =>
      rw [Option.bind_some, he, screen_of_network he' hstep, hwrite]
      rfl

/-- The taps of a session may come before its refreshes and handlers. -/
theorem session_sorted {es : List Event} (hes : ∀ e ∈ es, e.tapped.isSome ∨ e.ofNetwork = true)
    (s : App) :
    Runs.run (App.step P) s es =
      Runs.run (App.step P) s
        (es.filter (fun e => e.tapped.isSome) ++ es.filter Event.ofNetwork) := by
  have hnot : es.filter (fun e => !e.tapped.isSome) = es.filter Event.ofNetwork := by
    refine List.filter_congr fun e he => ?_
    rcases e with _ | _ | _ | _ | _ | _ | _ <;>
      first | rfl | simpa [Event.tapped, Event.ofNetwork] using hes _ he
  rw [Runs.run_filter (fun e => e.tapped.isSome) ?_ s, hnot]
  intro e _ e' he' htap hnet
  obtain ⟨row, isSelected, rfl⟩ := tapped_isSome_iff.1 htap
  refine commutes_network (screenOnly_tap row isSelected) ((hes e' he').resolve_left ?_)
  rw [hnet]
  exact Bool.false_ne_true

/-- **The order of a session is of no consequence.**  Two sessions with the same taps, in order, and
    the same refreshes and completion handlers, in order, lead to the same state, however the former
    interleave with the latter. -/
theorem session_order_irrelevant (P : Platform) {es es' : List Event}
    (hes : ∀ e ∈ es, e.tapped.isSome ∨ e.ofNetwork = true)
    (hes' : ∀ e ∈ es', e.tapped.isSome ∨ e.ofNetwork = true)
    (htaps : es.filter (fun e => e.tapped.isSome) = es'.filter fun e => e.tapped.isSome)
    (hnetwork : es.filter Event.ofNetwork = es'.filter Event.ofNetwork) (s : App) :
    Runs.run (App.step P) s es = Runs.run (App.step P) s es' := by
  rw [session_sorted hes, session_sorted hes', htaps, hnetwork]

theorem session_order_irrelevant_antiMage :
    let opening := [.fetchHeroes .ok true, .complete 0 (HeroService.answer [antiMage]) .ok,
      .filterButtonTapped]
    let network := [.fetchHeroes .ok true, .complete 1 (HeroService.answer [bloodseeker]) .ok]
    ∃ s, Runs.run (App.step .insertion) .installed opening = some s ∧
      (Runs.run (App.step .insertion) s (network ++ [.roleButtonTapped 1 true])).isSome ∧
      Runs.run (App.step .insertion) s (network ++ [.roleButtonTapped 1 true]) =
        Runs.run (App.step .insertion) s (.roleButtonTapped 1 true :: network) :=
  ⟨_, rfl, by decide, session_order_irrelevant .insertion (by decide) (by decide) rfl rfl _⟩

/-! ## Sessions -/

/-- Once the screen is gone, a session goes on without it. -/
theorem screen_none_step {e : Event} (he : e.inSession = true) {s s' : App}
    (hstep : App.step P s e = some s') (hs : s.screen = none) : s'.screen = none := by
  cases step_transition hstep with
  | request | noInternet => exact hs
  | success _ _ | failure _ _ => exact hs
  | tapped hscreen _ => rw [hs] at hscreen; cases hscreen
  | alerted _ _ => exact hs
  | saved _ _ => rfl
  | launch | opened _ _ | closed _ => cases he

theorem screen_none_run {es : List Event} (hes : ∀ e ∈ es, e.inSession = true) {s s' : App}
    (hrun : Runs.run (App.step P) s es = some s') (hs : s.screen = none) : s'.screen = none :=
  Runs.run_induct_each (H := fun e => e.inSession = true) (I := fun _ s => s.screen = none) hs
    (fun _ _ _ _ hstep he hs => screen_none_step he hstep hs) hes hrun

/-- While the screen stays open, Save does nothing. -/
theorem run_without_save {es : List Event} (hes : ∀ e ∈ es, e.inSession = true) {s' : App}
    (hs' : s'.screen ≠ none) : ∀ {s : App}, Runs.run (App.step P) s es = some s' →
      Runs.run (App.step P) s (es.filter fun e => decide (e ≠ .saveButtonTapped)) = some s' := by
  induction es with
  | nil => exact id
  | cons e es ih =>
    intro s hrun
    have hrest : ∀ e' ∈ es, e'.inSession = true := fun e' he' => hes e' (List.mem_cons_of_mem e he')
    obtain ⟨s₁, hstep, hrun⟩ := Option.bind_eq_some_iff.1 hrun
    by_cases he : e = .saveButtonTapped
    · subst he
      rw [List.filter_cons_of_neg (by simp)]
      cases step_transition hstep with
      | alerted _ _ => exact ih hrest hrun
      | saved _ _ => exact absurd (screen_none_run hrest hrun rfl) hs'
    · rw [List.filter_cons_of_pos (by simpa using he), Runs.run_cons, hstep]
      exact ih hrest hrun

/-- Taps change the screen as they do in the filter interactor. -/
theorem run_taps {es : List Event} (hes : ∀ e ∈ es, e.tapped.isSome) : ∀ {s s' : App}
    {roles : List RoleFilter}, s.screen = some roles → Runs.run (App.step P) s es = some s' →
      ∃ roles', Runs.run tap roles (es.filterMap Event.tapped) = some roles' ∧
        s' = { s with screen := some roles' } := by
  induction es with
  | nil =>
    rintro s s' roles hscreen ⟨⟩
    exact ⟨roles, rfl, by rw [← hscreen]⟩
  | cons e es ih =>
    intro s s' roles hscreen hrun
    obtain ⟨row, isSelected, rfl⟩ := tapped_isSome_iff.1 (hes e List.mem_cons_self)
    obtain ⟨s₁, hstep, hrun⟩ := Option.bind_eq_some_iff.1 hrun
    cases step_transition hstep with
    | @tapped roles₀ roles₁ _ _ hscreen' hroles =>
      obtain rfl : roles = roles₀ := Option.some.inj (hscreen.symm.trans hscreen')
      obtain ⟨roles', hrun', rfl⟩ :=
        ih (fun e' he' => hes e' (List.mem_cons_of_mem _ he')) rfl hrun
      refine ⟨roles', ?_, rfl⟩
      have htapped : (Event.roleButtonTapped row isSelected).tapped = some (row, isSelected) := rfl
      rw [List.filterMap_cons_some htapped, Runs.run_cons, tap, hroles]
      exact hrun'

/-- Refreshes and handlers do the same behind the screen. -/
theorem run_network {es : List Event} (hes : ∀ e ∈ es, e.ofNetwork = true)
    (screen : Option (List RoleFilter)) : ∀ s : App,
      Runs.run (App.step P) { s with screen := screen } es =
        (Runs.run (App.step P) s es).map fun s' => { s' with screen := screen } := by
  induction es with
  | nil => intro s; rfl
  | cons e es ih =>
    intro s
    have hrest := ih fun e' he' => hes e' (List.mem_cons_of_mem e he')
    rw [Runs.run_cons, Runs.run_cons, step_network (hes e List.mem_cons_self) screen s]
    cases App.step P s e with
    | none => rfl
    | some s' => exact hrest s'

theorem screen_of_run_network {es : List Event} (hes : ∀ e ∈ es, e.ofNetwork = true) {s s' : App}
    (hrun : Runs.run (App.step P) s es = some s') : s'.screen = s.screen :=
  Runs.run_induct_each (H := fun e => e.ofNetwork = true) (I := fun _ s' => s'.screen = s.screen)
    rfl (fun _ _ _ _ hstep he hs => (screen_of_network he hstep).trans hs) hes hrun

/-- **A session splits** in what its taps make of the screen that was opened, and what its refreshes
    and handlers make of the rest. -/
theorem session_split {es : List Event} (hes : ∀ e ∈ es, e.inSession = true) {s s' : App}
    (hrun : Runs.run (App.step P) s (.filterButtonTapped :: es) = some s')
    (hs' : s'.screen ≠ none) :
    ∃ opened roles s₁, getRoles P.toSorter s.interactor = some opened ∧
      Runs.run tap opened (es.filterMap Event.tapped) = some roles ∧
      Runs.run (App.step P) s (es.filter Event.ofNetwork) = some s₁ ∧ s₁.screen = none ∧
      s' = { s₁ with screen := some roles } := by
  obtain ⟨s₀, hopen, hrun⟩ := Option.bind_eq_some_iff.1 hrun
  cases step_transition hopen with
  | @opened opened hscreen hopened =>
    let quiet := es.filter fun e => decide (e ≠ .saveButtonTapped)
    have hquiet : ∀ e ∈ quiet, e.tapped.isSome ∨ e.ofNetwork = true := by
      intro e he
      obtain ⟨he, hsave⟩ := List.mem_filter.1 he
      have hin := hes e he
      cases e <;> simp_all [Event.tapped, Event.ofNetwork, Event.inSession]
    have htapped : (quiet.filter fun e => e.tapped.isSome).filterMap Event.tapped =
        es.filterMap Event.tapped := by
      rw [List.filterMap_filter, List.filterMap_filter]
      refine List.filterMap_congr fun e _ => ?_
      cases e <;> rfl
    have hnetworks : quiet.filter Event.ofNetwork = es.filter Event.ofNetwork := by
      rw [List.filter_filter]
      refine List.filter_congr fun e _ => ?_
      cases e <;> rfl
    have hrun := run_without_save hes hs' hrun
    rw [session_sorted hquiet, Runs.run_append] at hrun
    obtain ⟨s₂, htaps, hnetwork⟩ := Option.bind_eq_some_iff.1 hrun
    obtain ⟨roles, hroles, rfl⟩ := run_taps (fun e he => (List.mem_filter.1 he).2) rfl htaps
    rw [htapped] at hroles
    rw [hnetworks] at hnetwork
    have hnet : ∀ e ∈ es.filter Event.ofNetwork, e.ofNetwork = true :=
      fun e he => (List.mem_filter.1 he).2
    obtain ⟨s₁, hs₁, rfl⟩ :=
      Option.map_eq_some_iff.1 ((run_network hnet (some roles) s).symm.trans hnetwork)
    exact ⟨opened, roles, s₁, hopened, hroles, hs₁, (screen_of_run_network hnet hs₁).trans hscreen,
      rfl⟩

/-- **A session that is closed leaves no trace.**  After it the app is in the state to which its
    refreshes and completion handlers alone would have led. -/
theorem abandoned_session (P : Platform) {es : List Event} (hes : ∀ e ∈ es, e.inSession = true)
    {s s' : App} (hrun : Runs.run (App.step P) s
      (.filterButtonTapped :: es ++ [.closeButtonTapped]) = some s') :
    Runs.run (App.step P) s (es.filter Event.ofNetwork) = some s' := by
  obtain ⟨s₁, hsession, hclose⟩ := (Runs.run_snoc (App.step P)).1 hrun
  cases step_transition hclose with
  | closed hscreen =>
    obtain ⟨_, _, s₂, _, _, hs₂, hnone, rfl⟩ := session_split hes hsession (by simp [hscreen])
    rw [hs₂, ← hnone]

theorem abandoned_session_antiMage :
    let network := [.fetchHeroes .ok true, .complete 0 (HeroService.answer [antiMage]) .ok]
    let session := .roleButtonTapped 0 false :: .saveButtonTapped :: network
    ∃ s', Runs.run (App.step .insertion) .installed
        (.filterButtonTapped :: session ++ [.closeButtonTapped]) = some s' ∧
      Runs.run (App.step .insertion) .installed (session.filter Event.ofNetwork) = some s' :=
  ⟨_, rfl, abandoned_session .insertion (by decide) rfl⟩

/-- **A session that is saved** shows what its taps select, among the roles that the master list had
    when the screen was opened, of the master list as its refreshes and completion handlers left it;
    all else is as they left it. -/
theorem saved_session (P : Platform) {es : List Event} (hes : ∀ e ∈ es, e.inSession = true)
    {s s' : App} (hrun : Runs.run (App.step P) s
      (.filterButtonTapped :: es ++ [.saveButtonTapped]) = some s') (hs' : s'.screen = none) :
    ∃ opened roles s₁, getRoles P.toSorter s.interactor = some opened ∧
      Runs.run tap opened (es.filterMap Event.tapped) = some roles ∧
      Runs.run (App.step P) s (es.filter Event.ofNetwork) = some s₁ ∧
      s' = { s₁ with
        interactor :=
          { s₁.interactor with
            obsHeroes := shown (getSelectedFilters roles) s₁.interactor.masterHeroes
            obsActiveFilters := getSelectedFilters roles } } := by
  obtain ⟨s₂, hsession, hsave⟩ := (Runs.run_snoc (App.step P)).1 hrun
  cases step_transition hsave with
  | alerted hscreen _ => rw [hs'] at hscreen; cases hscreen
  | @saved roles₂ hscreen _ =>
    obtain ⟨opened, roles, s₁, hopened, hroles, hs₁, hnone, rfl⟩ :=
      session_split hes hsession (by simp [hscreen])
    obtain rfl : roles = roles₂ := Option.some.inj hscreen
    refine ⟨opened, roles, s₁, hopened, hroles, hs₁, ?_⟩
    rw [← hnone]

/-- A refresh brings Bloodseeker while the screen, opened for Anti-Mage, offers no Disabler. -/
theorem saved_session_antiMage :
    let opening := [.fetchHeroes .ok true, .complete 0 (HeroService.answer [antiMage]) .ok]
    let session := [.roleButtonTapped 0 false, .fetchHeroes .ok true, .roleButtonTapped 2 true,
      .complete 1 (HeroService.answer [bloodseeker, juggernaut]) .ok]
    ∃ s s', Runs.run (App.step .insertion) .installed opening = some s ∧
      Runs.run (App.step .insertion) s (.filterButtonTapped :: session ++ [.saveButtonTapped]) =
        some s' ∧ s'.interactor.obsHeroes = [juggernaut] ∧
      ∃ opened roles s₁, getRoles Sorter.insertion s.interactor = some opened ∧
        Runs.run tap opened (session.filterMap Event.tapped) = some roles ∧
        Runs.run (App.step .insertion) s (session.filter Event.ofNetwork) = some s₁ ∧
        s' = { s₁ with
          interactor :=
            { s₁.interactor with
              obsHeroes := shown (getSelectedFilters roles) s₁.interactor.masterHeroes
              obsActiveFilters := getSelectedFilters roles } } :=
  ⟨_, _, rfl, rfl, by decide, saved_session .insertion (by decide) rfl rfl⟩

end HeroQ
