/-
  The active filters and the filter screen.

  The active filters outlive the master list that they were chosen from: a response replaces the
  heroes and leaves the filters.  The filter screen opens with just the active filters selected iff
  their names are still offered, and, without active filters, with just All iff All comes first
  (`opensAsSaved_iff`); `screen_opens_as_saved_iff` says which steps of a run keep it so.
-/
import HeroQ.Transitions
import HeroQ.Roles

namespace HeroQ

open HeroListInteractor FilterInteractor

variable {P : Platform} {S : Sorter}

/-- The names selected on the screen that `getRoles` opens are those of the active filters, or just
    All if there are none; in particular some entry is selected. -/
def OpensAsSaved (S : Sorter) (i : HeroListInteractor) : Prop :=
  ∃ roles, getRoles S i = some roles ∧
    (∀ name, (∃ f ∈ roles, f.isSelected = true ∧ f.name = name) ↔
      (i.obsActiveFilters = [] ∧ name = "All") ∨ ∃ f ∈ i.obsActiveFilters, f.name = name) ∧
    ∃ f ∈ roles, f.isSelected = true

/-- The filters fit the master list: if there are none, no role sorts before All, and otherwise the
    name of each is All or a role of the list. -/
def FiltersFit (filters : List RoleFilter) (masterHeroes : List Hero) : Prop :=
  (filters = [] → ∀ hero ∈ masterHeroes, ∀ role ∈ hero.roles, "All" ≤ role) ∧
    ∀ f ∈ filters, f.name = "All" ∨ ∃ hero ∈ masterHeroes, f.name ∈ hero.roles

theorem opensAsSaved_none {i : HeroListInteractor} (h : i.obsActiveFilters = []) :
    OpensAsSaved S i ↔ FiltersFit i.obsActiveFilters i.masterHeroes := by
  obtain ⟨first, rest, hoff, hroles⟩ := getRoles_none (S := S) h
  -- just the first entry is selected
  have hselected : ∀ name, (∃ f ∈ first.select true :: rest, f.isSelected = true ∧ f.name = name) ↔
      first.name = name := by
    intro name
    constructor
    · rintro ⟨f, hf, hsel, rfl⟩
      rcases List.mem_cons.1 hf with rfl | hf
      · rfl
      · rw [offered_isSelected (hoff ▸ List.mem_cons_of_mem first hf)] at hsel
        cases hsel
    · rintro rfl
      exact ⟨_, List.mem_cons_self, rfl, rfl⟩
  unfold OpensAsSaved FiltersFit
  rw [h]
  simp only [hroles, Option.some.injEq, exists_eq_left', hselected, true_and, List.not_mem_nil,
    false_and, exists_false, or_false, forall_const, false_imp_iff, implies_true, and_true,
    ← offered_head_iff hoff]
  constructor
  · rintro ⟨hnames, -⟩
    exact (hnames first.name).1 rfl
  · rintro hAll
    exact ⟨fun name => hAll ▸ eq_comm, _, List.mem_cons_self, rfl⟩

theorem opensAsSaved_some {i : HeroListInteractor} (h : i.obsActiveFilters ≠ [])
    (hsel : ∀ f ∈ i.obsActiveFilters, f.isSelected = true) :
    OpensAsSaved S i ↔ FiltersFit i.obsActiveFilters i.masterHeroes := by
  -- the names selected are those of the active filters that are offered
  have hselected : ∀ name, (∃ f ∈ (offered S i.masterHeroes).map fun f =>
      f.select (activeFlag i.obsActiveFilters f.name), f.isSelected = true ∧ f.name = name) ↔
      name ∈ (offered S i.masterHeroes).map RoleFilter.name ∧
        ∃ f ∈ i.obsActiveFilters, f.name = name := by
    intro name
    simp only [← activeFlag_iff hsel, List.mem_map]
    constructor
    · rintro ⟨_, ⟨g, hg, rfl⟩, hflag, rfl⟩
      exact ⟨⟨g, hg, rfl⟩, hflag⟩
    · rintro ⟨⟨g, hg, rfl⟩, hflag⟩
      exact ⟨_, ⟨g, hg, rfl⟩, hflag, rfl⟩
  unfold OpensAsSaved FiltersFit
  simp only [getRoles_active h, Option.some.injEq, exists_eq_left', hselected, h, false_and,
    false_or, false_imp_iff, true_and, and_iff_right_iff_imp, ← mem_map_name_offered (S := S)]
  constructor
  · rintro ⟨hnames, -⟩ f hf
    exact hnames f.name ⟨f, hf, rfl⟩
  · intro hfit
    obtain ⟨f, hf⟩ := List.exists_mem_of_ne_nil _ h
    refine ⟨?_, ?_⟩
    · rintro _ ⟨g, hg, rfl⟩
      exact hfit g hg
    · obtain ⟨g, hg, hgsel, -⟩ := (hselected f.name).2 ⟨hfit f hf, f, hf, rfl⟩
      exact ⟨g, hg, hgsel⟩

/-- **The screen opens as it was saved** iff the active filters fit the master list. -/
theorem opensAsSaved_iff {i : HeroListInteractor}
    (hsel : ∀ f ∈ i.obsActiveFilters, f.isSelected = true) :
    OpensAsSaved S i ↔ FiltersFit i.obsActiveFilters i.masterHeroes := by
  by_cases h : i.obsActiveFilters = []
  · exact opensAsSaved_none h
  · exact opensAsSaved_some h hsel

/-! ## Over a run -/

/-- The active filters are all selected: they come from the screen. -/
theorem activeFilters_selected {realm : RealmStore} {es : List Event} {s : App}
    (hrun : Runs.run (App.step P) (App.launched realm) es = some s) :
    ∀ f ∈ s.interactor.obsActiveFilters, f.isSelected = true := by
  refine Runs.run_induct
    (I := fun _ s => ∀ f ∈ s.interactor.obsActiveFilters, f.isSelected = true)
    (fun _ h => absurd h List.not_mem_nil) ?_ es s hrun
  intro past e s s' _ hstep hI
  cases step_transition hstep with
  | launch => exact fun _ h => absurd h List.not_mem_nil
  | saved _ _ => exact fun f hf => (mem_getSelectedFilters hf).2
  | request | noInternet => exact hI
  | success _ _ | failure _ _ => exact hI
  | opened _ _ | tapped _ _ | alerted _ _ | closed _ => exact hI

/-- The steps that keep the active filters fitting: a response has the roles of the active filters
    (or, without any, none that sorts before All), and Save passes on only entries whose names the
    master list in place still offers. -/
def KeepsFiltersFit (_ : List Event) (s : App) : Event → Prop
  | .complete _ result _ => ∀ response, HeroService.completion result = .ok response →
      FiltersFit s.interactor.obsActiveFilters response
  | .saveButtonTapped => ∀ roles, s.screen = some roles → getSelectedFilters roles ≠ [] →
      FiltersFit (getSelectedFilters roles) s.interactor.masterHeroes
  | _ => True

theorem filtersFit_step {past : List Event} {s s' : App} {e : Event}
    (hstep : App.step P s e = some s')
    (hI : FiltersFit s.interactor.obsActiveFilters s.interactor.masterHeroes) :
    FiltersFit s'.interactor.obsActiveFilters s'.interactor.masterHeroes ↔
      KeepsFiltersFit past s e := by
  cases step_transition hstep with
  | launch =>
    refine iff_of_true ⟨fun _ _ h => absurd h List.not_mem_nil, fun _ h => ?_⟩ trivial
    exact absurd h List.not_mem_nil
  | success _ hresult =>
    rw [KeepsFiltersFit, hresult]
    simp only [Except.ok.injEq, forall_eq']
  | failure _ hresult =>
    rw [KeepsFiltersFit, hresult]
    exact iff_of_true hI fun _ h => nomatch h
  | alerted hscreen hnone =>
    refine iff_of_true hI fun roles hroles hsome => ?_
    rw [hscreen] at hroles
    cases hroles
    exact absurd hnone hsome
  | saved hscreen hsome =>
    rw [KeepsFiltersFit, hscreen]
    simp only [Option.some.injEq, forall_eq', imp_iff_right hsome]
  | request | noInternet => exact iff_of_true hI trivial
  | opened _ _ | tapped _ _ | closed _ => exact iff_of_true hI trivial

/-- **The filter screen opens as it was saved**, throughout a run, iff every response has the roles
    of the filters active when it arrives, or without any has no role that sorts before All, and
    every Save passes on only names that the master list in place still offers. -/
theorem screen_opens_as_saved_iff (P : Platform) (realm : RealmStore) {es : List Event} {s : App}
    (hrun : Runs.run (App.step P) (App.launched realm) es = some s) :
    Runs.Throughout (App.step P) (App.launched realm) es
        (fun _ s => OpensAsSaved P.toSorter s.interactor) ↔
      Runs.EachStep (App.step P) (App.launched realm) es KeepsFiltersFit := by
  refine Runs.throughout_iff ?_ ?_ hrun
  · rw [opensAsSaved_iff fun _ h => absurd h List.not_mem_nil]
    exact ⟨fun _ _ h => absurd h List.not_mem_nil, fun _ h => absurd h List.not_mem_nil⟩
  · intro past e s s' hpast hstep hI
    have hpast' := (Runs.run_snoc (App.step P)).2 ⟨s, hpast, hstep⟩
    rw [opensAsSaved_iff (activeFilters_selected hpast)] at hI
    rw [opensAsSaved_iff (activeFilters_selected hpast')]
    exact filtersFit_step hstep hI

theorem screen_opens_as_saved_iff_antiMage :
    let es := [.fetchHeroes .ok true, .complete 0 (HeroService.answer [antiMage]) .ok,
      .filterButtonTapped, .roleButtonTapped 2 true, .saveButtonTapped]
    Runs.Throughout (App.step .insertion) .installed es
        (fun _ s => OpensAsSaved Sorter.insertion s.interactor) ↔
      Runs.EachStep (App.step .insertion) .installed es KeepsFiltersFit :=
  screen_opens_as_saved_iff .insertion [] rfl

/-- With the filter Escape saved, a response without that role leaves a filter screen on which
    nothing is selected. -/
theorem screen_opens_unselected :
    ∃ es s roles, Runs.run (App.step .insertion) .installed es = some s ∧
      es = [.fetchHeroes .ok true, .complete 0 (HeroService.answer [antiMage]) .ok,
        .filterButtonTapped, .roleButtonTapped 0 false, .roleButtonTapped 2 true,
        .saveButtonTapped, .fetchHeroes .ok true,
        .complete 1 (HeroService.answer [bloodseeker]) .ok] ∧
      s.interactor.obsActiveFilters.map RoleFilter.name = ["Escape"] ∧
      getRoles Sorter.insertion s.interactor = some roles ∧
      roles.map RoleFilter.name = ["All", "Carry", "Disabler", "Initiator", "Jungler", "Nuker"] ∧
      (∀ f ∈ roles, f.isSelected = false) ∧
      ¬ OpensAsSaved Sorter.insertion s.interactor := by
  refine ⟨_, _, _, rfl, rfl, by decide, rfl, by decide, by decide, ?_⟩
  rw [opensAsSaved_iff (by decide)]
  unfold FiltersFit
  decide

end HeroQ
