/-
  What the filter screen saves, and what opening it again and saving does.

  If no role that the server delivers sorts before All, the active filters are none, just All, or
  selected roles in the order of their names (`saved_filters_wellFormed`).  A refresh may leave the
  list with other heroes than they select; opening the filter screen and pressing Save applies them
  again to the master list in place, unless the list has lost the roles of all of them
  (`reopen_and_save`).
-/
import HeroQ.Save
import HeroQ.ActiveFilters

namespace HeroQ

open HeroListInteractor FilterInteractor

variable {P : Platform} {S : Sorter}

/-- No role of the heroes sorts before All. -/
def AllSortsFirst (heroes : List Hero) : Prop :=
  ∀ hero ∈ heroes, ∀ role ∈ hero.roles, "All" ≤ role

/-- Selected roles, in the order of their names. -/
structure SelectedRoles (filters : List RoleFilter) : Prop where
  ne_nil : filters ≠ []
  sorted : filters.Pairwise fun f g => f.name < g.name
  selected : ∀ f ∈ filters, f.isSelected = true
  name_ne : ∀ f ∈ filters, f.name ≠ "All"
  id_ne : ∀ f ∈ filters, f.id ≠ 0

/-- What the screen saves: just All, or selected roles; and nothing before the first Save. -/
def SavedFilters (filters : List RoleFilter) : Prop :=
  filters = [] ∨ filters = [allFilter.select true] ∨ SelectedRoles filters

theorem SelectedRoles.narrowing {filters : List RoleFilter} (h : SelectedRoles filters) :
    Narrowing filters :=
  narrowing_of_unselected h.ne_nil fun f hf hid => absurd hid (h.id_ne f hf)

/-- What a screen with All in front saves. -/
theorem savedFilters_of_opened {masterHeroes : List Hero} {roles : List RoleFilter}
    (h : Opened S masterHeroes roles) (hAll : AllSortsFirst masterHeroes) :
    SavedFilters (getSelectedFilters roles) := by
  by_cases hsel : ∃ role ∈ roles, role.name = "All" ∧ role.isSelected = true
  · exact Or.inr (Or.inl (h.selected_all hAll hsel))
  · have hnone : ∀ role ∈ roles, role.name = "All" → role.isSelected = false := by
      intro role hrole hname
      exact Bool.eq_false_iff.2 fun hs => hsel ⟨role, hrole, hname, hs⟩
    by_cases hnil : getSelectedFilters roles = []
    · exact Or.inl hnil
    · refine Or.inr (Or.inr ⟨hnil, ?_, fun f hf => (mem_getSelectedFilters hf).2, ?_, ?_⟩)
      · rw [h.selected_roles hAll hnone]
        exact (names_sorted_of_entries h).filter _
      · intro f hf hname
        obtain ⟨hmem, hs⟩ := mem_getSelectedFilters hf
        exact absurd hs (by simp [hnone f hmem hname])
      · intro f hf hid
        obtain ⟨hmem, hs⟩ := mem_getSelectedFilters hf
        exact absurd hs (by simp [hnone f hmem ((h.id_eq_zero_iff hmem).1 hid)])

/-! ## Reachable states -/

/-- What all reachable states have in common: the filters are as saved, and the screen shows the
    roles of some list of heroes. -/
structure FiltersInv (S : Sorter) (s : App) : Prop where
  master : AllSortsFirst s.interactor.masterHeroes
  active : SavedFilters s.interactor.obsActiveFilters
  screen : ∀ roles, s.screen = some roles →
    ∃ masterHeroes, AllSortsFirst masterHeroes ∧ Opened S masterHeroes roles

theorem filtersInv_launched (realm : RealmStore) : FiltersInv S (App.launched realm) where
  master _ h := absurd h List.not_mem_nil
  active := Or.inl rfl
  screen roles h := by cases h

theorem filtersInv_step {s s' : App} {e : Event} (hstep : App.step P s e = some s')
    (he : ∀ response, e.response = some response → AllSortsFirst response)
    (hI : FiltersInv P.toSorter s) : FiltersInv P.toSorter s' := by
  cases step_transition hstep with
  | launch => exact filtersInv_launched s.realm
  | request | noInternet => exact ⟨hI.master, hI.active, hI.screen⟩
  | success _ hresult => exact ⟨he _ (response_success hresult), hI.active, hI.screen⟩
  | failure _ _ => exact ⟨hI.master, hI.active, hI.screen⟩
  | opened _ hroles =>
    refine ⟨hI.master, hI.active, ?_⟩
    rintro _ ⟨⟩
    exact ⟨_, hI.master, entries_of_getRoles hroles⟩
  | @tapped roles roles' row isSelected hscreen hroles =>
    refine ⟨hI.master, hI.active, ?_⟩
    rintro _ ⟨⟩
    obtain ⟨masterHeroes, hAll, hopen⟩ := hI.screen roles hscreen
    have hrun : Runs.run tap roles [(row, isSelected)] = some roles' := by
      rw [Runs.run_cons, tap, hroles]; rfl
    exact ⟨masterHeroes, hAll, (taps_entries hrun).trans hopen⟩
  | alerted _ _ => exact hI
  | saved hscreen _ =>
    obtain ⟨masterHeroes, hAll, hopen⟩ := hI.screen _ hscreen
    refine ⟨hI.master, savedFilters_of_opened hopen hAll, ?_⟩
    rintro _ ⟨⟩
  | closed _ =>
    refine ⟨hI.master, hI.active, ?_⟩
    rintro _ ⟨⟩

theorem filtersInv_run {realm : RealmStore} {es : List Event} {s : App}
    (hrun : Runs.run (App.step P) (App.launched realm) es = some s)
    (hes : ∀ response ∈ delivered es, AllSortsFirst response) : FiltersInv P.toSorter s := by
  refine Runs.run_induct_each (I := fun _ s => FiltersInv P.toSorter s)
    (H := fun e => ∀ response, e.response = some response → AllSortsFirst response)
    (filtersInv_launched realm) (fun _ _ _ _ hstep he hI => filtersInv_step hstep he hI) ?_ hrun
  intro e he response hresponse
  exact hes response (List.mem_filterMap.2 ⟨e, he, hresponse⟩)

/-- **The filters and the screen are well formed** in every reachable state, if no role that was
    delivered sorts before All: the active filters are none, just the selected All, or selected
    roles in strictly increasing order; and an open screen has All as its first entry, and then
    roles in strictly increasing order. -/
theorem saved_filters_wellFormed {realm : RealmStore} {es : List Event} {s : App}
    (hrun : Runs.run (App.step P) (App.launched realm) es = some s)
    (hes : ∀ response ∈ delivered es, AllSortsFirst response) :
    SavedFilters s.interactor.obsActiveFilters ∧
      ∀ roles, s.screen = some roles → ∃ all rest, roles = all :: rest ∧
        all.id = 0 ∧ all.name = "All" ∧ (∀ f ∈ rest, f.id ≠ 0 ∧ f.name ≠ "All") ∧
        roles.Pairwise fun f g => f.name < g.name := by
  have hI := filtersInv_run hrun hes
  refine ⟨hI.active, fun roles hscreen => ?_⟩
  obtain ⟨masterHeroes, hAll, hopen⟩ := hI.screen roles hscreen
  obtain ⟨all, rest, rfl, hentry, hrest⟩ := hopen.head hAll
  exact ⟨all, rest, rfl, congrArg Prod.fst hentry, congrArg Prod.snd hentry, hrest,
    names_sorted_of_entries hopen⟩

theorem saved_filters_wellFormed_antiMage :
    let es := [.fetchHeroes .ok true, .complete 0 (HeroService.answer [antiMage]) .ok,
      .filterButtonTapped, .roleButtonTapped 0 false, .roleButtonTapped 3 true,
      .roleButtonTapped 1 true, .saveButtonTapped]
    ∃ s, Runs.run (App.step .insertion) .installed es = some s ∧
      SavedFilters s.interactor.obsActiveFilters ∧
      s.interactor.obsActiveFilters.map RoleFilter.name = ["Carry", "Nuker"] := by
  intro es
  have hrun : Runs.run (App.step .insertion) .installed es = some _ := rfl
  refine ⟨_, rfl, (saved_filters_wellFormed hrun ?_).1, by decide⟩
  unfold AllSortsFirst
  decide

/-! ## Opening the screen and saving -/

/-- The filter screen offers the name for the heroes. -/
def offersName (masterHeroes : List Hero) (name : String) : Bool :=
  name == "All" || masterHeroes.any fun hero => hero.roles.contains name

theorem offersName_iff {masterHeroes : List Hero} {name : String} :
    offersName masterHeroes name = true ↔
      name ∈ (offered S masterHeroes).map RoleFilter.name := by
  rw [mem_map_name_offered, offersName]
  simp

/-- Filters with names that no hero has may be left out. -/
theorem shown_filter_names {filters filters' : List RoleFilter} {masterHeroes : List Hero}
    (h : Narrowing filters) (h' : Narrowing filters')
    (hnames : filters'.map RoleFilter.name =
      (filters.map RoleFilter.name).filter (offersName masterHeroes)) :
    shown filters' masterHeroes = shown filters masterHeroes := by
  let hasRole (name : String) (hero : Hero) : Bool := hero.roles.contains name
  have hmap : ∀ fs : List RoleFilter, fs.map admits = (fs.map RoleFilter.name).map hasRole := by
    intro fs
    rw [List.map_map]
    rfl
  rw [shown_narrowing h, shown_narrowing h', hmap, hmap, hnames]
  refine FirstOcc.anyOf_filter Hero.id hasRole _ fun name _ hnone hero hh => ?_
  rw [offersName, Bool.or_eq_false_iff, List.any_eq_false] at hnone
  exact Bool.eq_false_iff.2 (hnone.2 hero hh)

/-- Without active filters, or with All active, the screen opens with All selected. -/
theorem reopened_all {i : HeroListInteractor} (hAll : AllSortsFirst i.masterHeroes)
    (h : i.obsActiveFilters = [] ∨ i.obsActiveFilters = [allFilter.select true]) :
    ∃ roles, getRoles S i = some roles ∧ getSelectedFilters roles = [allFilter.select true] := by
  rcases h with h | h
  · obtain ⟨first, rest, hoff, hroles⟩ := getRoles_none (S := S) h
    obtain ⟨rest', hoff'⟩ := offered_head (S := S) hAll
    obtain ⟨rfl, rfl⟩ := List.cons.inj (hoff'.symm.trans hoff)
    exact ⟨_, hroles, by rw [getSelectedFilters_cons]; rfl⟩
  · obtain ⟨roles, hroles, hent⟩ := getRoles_entries S i
    refine ⟨roles, hroles, Opened.selected_all hent hAll ?_⟩
    have hopen : Opened S i.masterHeroes roles := hent
    obtain ⟨all, rest, rfl, hentry, -⟩ := hopen.head hAll
    have hname : all.name = "All" := congrArg Prod.snd hentry
    refine ⟨all, List.mem_cons_self, hname, ?_⟩
    rw [getRoles_flag (by simp [h]) hroles List.mem_cons_self, hname, h]
    rfl

/-- With roles active, the screen opens with those selected that it still offers. -/
theorem reopened_roles {i : HeroListInteractor} (hAll : AllSortsFirst i.masterHeroes)
    (h : SelectedRoles i.obsActiveFilters) :
    ∃ roles, getRoles S i = some roles ∧
      (getSelectedFilters roles).map RoleFilter.name =
        (i.obsActiveFilters.map RoleFilter.name).filter (offersName i.masterHeroes) ∧
      ∀ f ∈ getSelectedFilters roles, f.id ≠ 0 := by
  obtain ⟨roles, hroles, hent⟩ := getRoles_entries S i
  have hopen : Opened S i.masterHeroes roles := hent
  have hflag : ∀ f ∈ roles, f.isSelected = true ↔ ∃ g ∈ i.obsActiveFilters, g.name = f.name := by
    intro f hf
    rw [getRoles_flag h.ne_nil hroles hf, activeFlag_iff h.selected]
  have hnone : ∀ f ∈ roles, f.name = "All" → f.isSelected = false := by
    intro f hf hname
    refine Bool.eq_false_iff.2 fun hsel => ?_
    obtain ⟨g, hg, hgf⟩ := (hflag f hf).1 hsel
    exact h.name_ne g hg (hgf.trans hname)
  have hselected := hopen.selected_roles hAll hnone
  refine ⟨roles, hroles, ?_, fun f hf hid => ?_⟩
  · -- both are in strictly increasing order
    have hsorted := List.pairwise_map.2 ((names_sorted_of_entries hopen).filter fun role =>
      role.isSelected)
    have hsorted' := (List.pairwise_map.2 h.sorted).filter (offersName i.masterHeroes)
    rw [hselected]
    refine List.Pairwise.eq_of_mem_iff hsorted hsorted' fun name => ?_
    rw [List.mem_filter, offersName_iff (S := S), ← hopen.map_name, List.mem_map, List.mem_map,
      List.mem_map]
    constructor
    · rintro ⟨f, hf, rfl⟩
      obtain ⟨hf, hsel⟩ := List.mem_filter.1 hf
      exact ⟨(hflag f hf).1 hsel, f, hf, rfl⟩
    · rintro ⟨⟨g, hg, rfl⟩, f, hf, hname⟩
      exact ⟨f, List.mem_filter.2 ⟨hf, (hflag f hf).2 ⟨g, hg, hname.symm⟩⟩, hname⟩
  · obtain ⟨hf, hsel⟩ := mem_getSelectedFilters hf
    rw [hnone f hf ((hopen.id_eq_zero_iff hf).1 hid)] at hsel
    cases hsel

/-- Opening the screen and pressing Save, as one step. -/
theorem run_open_save {s : App} {roles : List RoleFilter} (hscreen : s.screen = none)
    (hroles : getRoles P.toSorter s.interactor = some roles) :
    Runs.run (App.step P) s [.filterButtonTapped, .saveButtonTapped] =
      some (App.saveButtonTapped roles { s with screen := some roles }) := by
  simp only [Runs.run_cons, Runs.run_nil, App.step, hscreen, hroles, Option.map_some,
    Option.bind_some]

/-- **Opening the filter screen and pressing Save applies the active filters again.**  If there are
    none, or one of them is still offered, the list becomes what they select from the master list in
    place, whatever it showed before, and those that are not offered any more are dropped; otherwise
    nothing is selected, and Save only shows the alert. -/
theorem reopen_and_save (P : Platform) {realm : RealmStore} {es : List Event} {s : App}
    (hrun : Runs.run (App.step P) (App.launched realm) es = some s)
    (hes : ∀ response ∈ delivered es, AllSortsFirst response) (hscreen : s.screen = none) :
    let i := s.interactor
    let kept := (i.obsActiveFilters.map RoleFilter.name).filter (offersName i.masterHeroes)
    (i.obsActiveFilters = [] ∨ kept ≠ [] →
      ∃ filters, Runs.run (App.step P) s [.filterButtonTapped, .saveButtonTapped] =
          some { s with
            interactor :=
              { i with
                obsHeroes := shown i.obsActiveFilters i.masterHeroes
                obsActiveFilters := filters } } ∧
        filters.map RoleFilter.name = if i.obsActiveFilters = [] then ["All"] else kept) ∧
    (i.obsActiveFilters ≠ [] → kept = [] →
      ∃ roles, Runs.run (App.step P) s [.filterButtonTapped, .saveButtonTapped] =
          some { s with screen := some roles } ∧
        ∀ f ∈ roles, f.isSelected = false) := by
  intro i kept
  have hI := filtersInv_run hrun hes
  have hwide : ¬ Narrowing [allFilter.select true] := by decide
  -- with All selected, Save shows the master list
  have hall : i.obsActiveFilters = [] ∨ i.obsActiveFilters = [allFilter.select true] →
      Runs.run (App.step P) s [.filterButtonTapped, .saveButtonTapped] =
        some { s with
          interactor :=
            { i with
              obsHeroes := shown i.obsActiveFilters i.masterHeroes
              obsActiveFilters := [allFilter.select true] } } := by
    intro h
    obtain ⟨roles, hroles, hsel⟩ := reopened_all (S := P.toSorter) hI.master h
    have hshown : shown i.obsActiveFilters i.masterHeroes = i.masterHeroes := by
      rcases h with h | h
      · exact shown_not_narrowing (fun hn => hn.1 h) _
      · rw [h]; exact shown_not_narrowing hwide _
    rw [run_open_save hscreen hroles, saveButtonTapped_filters (by simp [hsel]), hsel, hshown,
      shown_not_narrowing hwide, ← hscreen]
  rcases hI.active with hactive | hactive | hactive
  · exact ⟨fun _ => ⟨_, hall (Or.inl hactive), by rw [if_pos hactive]; rfl⟩,
      fun hne => absurd hactive hne⟩
  · have hkept : kept = ["All"] := by
      simp only [kept, i, hactive]
      rfl
    refine ⟨fun _ => ⟨_, hall (Or.inr hactive), ?_⟩, fun _ hnil => ?_⟩
    · rw [if_neg (by simp [i, hactive]), hkept]
      rfl
    · rw [hkept] at hnil
      cases hnil
  · obtain ⟨roles, hroles, hnames, hid⟩ := reopened_roles (S := P.toSorter) hI.master hactive
    refine ⟨fun h => ?_, fun _ hnil => ?_⟩
    · have hne : getSelectedFilters roles ≠ [] := by
        intro hnil
        rw [hnil] at hnames
        exact (h.resolve_left hactive.ne_nil) hnames.symm
      have hnar : Narrowing (getSelectedFilters roles) :=
        narrowing_of_unselected hne fun f hf hzero => absurd hzero (hid f hf)
      refine ⟨getSelectedFilters roles, ?_, by rw [if_neg hactive.ne_nil]; exact hnames⟩
      rw [run_open_save hscreen hroles, saveButtonTapped_filters hne,
        shown_filter_names hactive.narrowing hnar hnames, ← hscreen]
    · have hnone : getSelectedFilters roles = [] :=
        List.map_eq_nil_iff.1 (hnames.trans hnil)
      refine ⟨roles, ?_, (getSelectedFilters_eq_nil_iff roles).1 hnone⟩
      rw [run_open_save hscreen hroles, saveButtonTapped_alert hnone]

/-- After a refresh that dropped the filter Disabler, opening the screen and saving brings it
    back. -/
theorem reopen_and_save_disabler :
    let es := [.fetchHeroes .ok true,
      .complete 0 (HeroService.answer [antiMage, bloodseeker]) .ok,
      .filterButtonTapped, .roleButtonTapped 0 false, .roleButtonTapped 2 true, .saveButtonTapped,
      .fetchHeroes .ok true, .complete 1 (HeroService.answer [antiMage, bloodseeker]) .ok]
    ∃ s, Runs.run (App.step .insertion) .installed es = some s ∧
      s.interactor.obsHeroes = [antiMage, bloodseeker] ∧
      ∃ filters, Runs.run (App.step .insertion) s [.filterButtonTapped, .saveButtonTapped] =
        some { s with
          interactor :=
            { s.interactor with
              obsHeroes := shown s.interactor.obsActiveFilters s.interactor.masterHeroes
              obsActiveFilters := filters } } ∧
        shown s.interactor.obsActiveFilters s.interactor.masterHeroes = [bloodseeker] := by
  intro es
  have hrun : Runs.run (App.step .insertion) .installed es = some _ := rfl
  have hes : ∀ response ∈ delivered es, AllSortsFirst response := by
    unfold AllSortsFirst
    decide
  obtain ⟨filters, hsave, -⟩ := (reopen_and_save .insertion hrun hes rfl).1 (Or.inr (by decide))
  exact ⟨_, rfl, by decide, filters, hsave, by decide⟩

end HeroQ
