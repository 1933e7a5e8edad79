/-
  The filter screen in the hands of a user, from its opening to Save.

  The cells report taps to the filter interactor (`FilterCell.reports`), and the screen of the app
  is what these taps make of it (`screen_of_cells`).  If the user waits for the updates before each
  tap, this decides what Save shows, whatever refreshes and completion handlers come in between: the
  heroes with a role that was selected at first and tapped an even number of times, or was not and
  was tapped an odd number of times (`toggled_session`).
-/
import HeroQ.RenderedFilter
import HeroQ.Session
import HeroQ.Reopen

namespace HeroQ

open HeroListInteractor FilterInteractor

variable {P : Platform} {U : UICollectionView (Reference FilterIdentifier)}

/-! ## What the cells report -/

namespace FilterCell

/-- What `buttonTapped` reports: the row, and the state of the button after the tap. -/
def reported (s : FilterCell) : ButtonEvent → List (ℕ × Bool)
  | .cellForItemAt _ => []
  | .buttonTapped row => [(row, !s.button row)]

/-- What is reported in a run. -/
def reports : FilterCell → List ButtonEvent → List (ℕ × Bool)
  | _, [] => []
  | s, e :: es => s.reported e ++
      match step s e with
      | some s' => s'.reports es
      | none => []

theorem step_reported {s s' : FilterCell} {e : ButtonEvent} (hrows : s.Rows)
    (h : step s e = some s') : Runs.run tap s.obsRoles (s.reported e) = some s'.obsRoles := by
  cases e with
  | cellForItemAt row =>
    rw [(step_cellForItemAt hrows h).2.1]
    rfl
  | buttonTapped row =>
    rw [reported, Runs.run_cons, (step_tapped hrows h).2.2.1]
    rfl

/-- **The cells change the filters as the filter interactor does** on what they report. -/
theorem run_reports {es : List ButtonEvent} : ∀ {s s' : FilterCell}, s.Rows →
    Runs.run step s es = some s' →
      Runs.run tap s.obsRoles (s.reports es) = some s'.obsRoles := by
  induction es with
  | nil => rintro s _ - ⟨⟩; rfl
  | cons e es ih =>
    intro s s' hrows hrun
    obtain ⟨s₁, hstep, hrun⟩ := Option.bind_eq_some_iff.1 hrun
    rw [reports, hstep, Runs.run_append, step_reported hrows hstep]
    exact ih (rows_step hrows hstep) hrun

end FilterCell

/-! ## The screen of the app -/

/-- **The screen of the app is that of the cells**, if the taps of the session are what the cells
    report, whatever else happens in the session. -/
theorem screen_of_cells {es : List Event} (hes : ∀ e ∈ es, e.inSession = true) {s s' : App}
    (hrun : Runs.run (App.step P) s (.filterButtonTapped :: es) = some s')
    (hs' : s'.screen ≠ none) {opened : List RoleFilter}
    (hopened : getRoles P.toSorter s.interactor = some opened) {cells : FilterCell}
    {buttons : List ButtonEvent}
    (hcells : Runs.run FilterCell.step (.opened opened) buttons = some cells)
    (htaps : es.filterMap Event.tapped = (FilterCell.opened opened).reports buttons) :
    ∃ s₁, Runs.run (App.step P) s (es.filter Event.ofNetwork) = some s₁ ∧ s₁.screen = none ∧
      s' = { s₁ with screen := some cells.obsRoles } := by
  obtain ⟨opened', roles, s₁, hopened', hroles, hs₁, hnone, rfl⟩ := session_split hes hrun hs'
  obtain rfl : opened = opened' := Option.some.inj (hopened.symm.trans hopened')
  have hreports := FilterCell.run_reports (FilterCell.rows_opened opened) hcells
  rw [htaps] at hroles
  obtain rfl : roles = cells.obsRoles := Option.some.inj (hroles.symm.trans hreports)
  exact ⟨s₁, hs₁, hnone, rfl⟩

/-! ## What Save shows -/

/-- The entry `k` is a role that is selected after the toggles. -/
def Chosen (opened : List RoleFilter) (rows : List ℕ) (k : ℕ) : Prop :=
  1 ≤ k ∧ k < opened.length ∧ (flag opened k ^^ decide (rows.count k % 2 = 1)) = true

/-- Entries that are the same have the same names. -/
theorem name_of_entries {fs gs : List RoleFilter}
    (h : fs.map RoleFilter.entry = gs.map RoleFilter.entry) {k : ℕ} {f : RoleFilter}
    (hf : fs[k]? = some f) : ∃ g, gs[k]? = some g ∧ g.name = f.name := by
  have hget := congrArg (fun l => l[k]?) h
  simp only [List.getElem?_map, hf, Option.map_some] at hget
  obtain ⟨g, hg, hentry⟩ := Option.map_eq_some_iff.1 hget.symm
  exact ⟨g, hg, congrArg Prod.snd hentry⟩

/-- What a screen with All in front and derived shows. -/
theorem mem_ids_shown_screen {S : Sorter} {masterHeroes : List Hero} {roles : List RoleFilter}
    (hopen : Opened S masterHeroes roles) (hAll : AllSortsFirst masterHeroes)
    (hderived : AllDerived roles) (hsel : ∃ role ∈ roles, role.isSelected = true)
    (heroes : List Hero) {id : Int} :
    id ∈ (shown (getSelectedFilters roles) heroes).map Hero.id ↔
      ∃ hero ∈ heroes, hero.id = id ∧
        ((∀ k, 1 ≤ k → k < roles.length → flag roles k = true) ∨
          ∃ k role, 1 ≤ k ∧ roles[k]? = some role ∧ flag roles k = true ∧
            role.name ∈ hero.roles) := by
  obtain ⟨all, rest, rfl, hentry, hrest⟩ := hopen.head hAll
  rw [← show _ ↔ _ from hderived, flag_cons_zero, getSelectedFilters_cons]
  have hid : all.id = 0 := congrArg Prod.fst hentry
  by_cases hall : all.isSelected = true
  · have hwide : ¬ Narrowing [all] := by simp [Narrowing, headedByAll, hid, hall]
    rw [if_pos hall, shown_not_narrowing hwide]
    simp [hall]
  · rw [if_neg hall, List.filter_cons_of_neg hall]
    have hnar : Narrowing (rest.filter fun role => role.isSelected) := by
      obtain ⟨role, hrole, hsel⟩ := hsel
      refine narrowing_of_unselected (List.ne_nil_of_mem (List.mem_filter.2 ⟨?_, hsel⟩)) ?_
      · rcases List.mem_cons.1 hrole with rfl | hrole
        · exact absurd hsel hall
        · exact hrole
      · exact fun f hf hid => absurd hid (hrest f (List.mem_filter.1 hf).1).1
    rw [mem_ids_shown hnar]
    refine exists_congr fun hero => and_congr_right fun _ => ?_
    rw [and_comm, or_iff_right hall]
    refine and_congr_right fun _ => ⟨?_, ?_⟩
    · rintro ⟨f, hf, hname⟩
      obtain ⟨hf, hsel⟩ := List.mem_filter.1 hf
      obtain ⟨k, hk, rfl⟩ := List.getElem_of_mem hf
      exact ⟨k + 1, rest[k], by omega, by simp, by rw [flag_cons_succ, flag_eq_getElem hk, hsel],
        hname⟩
    · rintro ⟨k, role, hk, hrole, hflag, hname⟩
      obtain ⟨k, rfl⟩ : ∃ j, k = j + 1 := ⟨k - 1, by omega⟩
      rw [List.getElem?_cons_succ] at hrole
      rw [flag_cons_succ, flag, hrole] at hflag
      exact ⟨role, List.mem_filter.2 ⟨List.mem_of_getElem? hrole, hflag⟩, hname⟩

/-- **Save shows what the user toggled.**  The screen is opened in a reachable state, no role that
    was delivered before sorts before All, and the user taps on roles only, and on none while an
    update of the screen waits or is in flight.  Then, whatever refreshes and completion handlers
    come in between, Save shows the ids of just those heroes of the master list, as it is then, that
    have a chosen role; and all of them if all roles are chosen. -/
theorem toggled_session (hU : BatchUpdate.Documented U) {realm : RealmStore} {past : List Event}
    {s s' : App} (hpast : Runs.run (App.step P) (App.launched realm) past = some s)
    (hfirst : ∀ response ∈ delivered past, AllSortsFirst response)
    {opened : List RoleFilter} (hopened : getRoles P.toSorter s.interactor = some opened)
    {fs : List RenderedFilterEvent} {filter : RenderedFilter}
    (hfilter : Runs.run (RenderedFilter.step U) (.opened opened) fs = some filter)
    (hpatient : Runs.EachStep (RenderedFilter.step U) (.opened opened) fs fun _ s e =>
      e.tapped ≠ none → s.adapter.Settled U)
    (hzero : ∀ row ∈ fs.filterMap RenderedFilterEvent.tapped, row ≠ 0)
    (hne : fs.filterMap RenderedFilterEvent.tapped ≠ [])
    {es : List Event} (hes : ∀ e ∈ es, e.inSession = true)
    (htaps : es.filterMap Event.tapped =
      (FilterCell.opened opened).reports (fs.filterMap RenderedFilterEvent.cellEvent))
    (hrun : Runs.run (App.step P) s (.filterButtonTapped :: es ++ [.saveButtonTapped]) = some s')
    (hs' : s'.screen = none) (id : Int) :
    let rows := fs.filterMap RenderedFilterEvent.tapped
    id ∈ s'.interactor.obsHeroes.map Hero.id ↔
      ∃ hero ∈ s'.interactor.masterHeroes, hero.id = id ∧
        ((∀ k, 1 ≤ k → k < opened.length → Chosen opened rows k) ∨
          ∃ k role, Chosen opened rows k ∧ opened[k]? = some role ∧ role.name ∈ hero.roles) := by
  intro rows
  obtain ⟨s₂, hsession, hsave⟩ := (Runs.run_snoc (App.step P)).1 hrun
  obtain ⟨htouch, hlen, hlt⟩ := patient_run hU hfilter hpatient
  have hcells := (renderedFilter_run hU hfilter).2
  obtain ⟨roles, hroles, hent, hflag, hderived⟩ := touches_parity opened
    (fun row hrow => ⟨Nat.one_le_iff_ne_zero.2 (hzero row hrow), hlt row hrow⟩)
  obtain rfl : roles = filter.cell.obsRoles := Option.some.inj (hroles.symm.trans htouch)
  have hopen : Opened P.toSorter s.interactor.masterHeroes filter.cell.obsRoles :=
    hent.trans (entries_of_getRoles hopened)
  cases step_transition hsave with
  | alerted hscreen _ => rw [hs'] at hscreen; cases hscreen
  | @saved roles₂ hscreen hsel =>
    obtain ⟨s₁, hs₁, hnone, rfl⟩ :=
      screen_of_cells hes hsession (by simp [hscreen]) hopened hcells htaps
    obtain rfl : filter.cell.obsRoles = roles₂ := Option.some.inj hscreen
    -- the flags of the roles, as toggled
    have hchosen : ∀ k, 1 ≤ k → k < opened.length →
        (flag filter.cell.obsRoles k = true ↔ Chosen opened rows k) := by
      intro k hk hkn
      rw [hflag k hk hkn, Chosen, and_iff_right hk, and_iff_right hkn]
    have hAll := (filtersInv_run hpast hfirst).master
    have hsome : ∃ role ∈ filter.cell.obsRoles, role.isSelected = true := by
      simpa [getSelectedFilters_eq_nil_iff] using hsel
    refine (mem_ids_shown_screen hopen hAll (hderived hne) hsome _).trans ?_
    refine exists_congr fun hero => and_congr_right fun _ => and_congr_right fun _ => or_congr ?_ ?_
    · rw [hlen]
      exact forall_congr' fun k => imp_congr_right fun hk => imp_congr_right fun hkn =>
        hchosen k hk hkn
    · constructor
      · rintro ⟨k, role, hk, hrole, hflag, hname⟩
        obtain ⟨role', hrole', hname'⟩ := name_of_entries hent hrole
        have hkn : k < opened.length := (List.getElem?_eq_some_iff.1 hrole').1
        exact ⟨k, role', (hchosen k hk hkn).1 hflag, hrole', hname' ▸ hname⟩
      · rintro ⟨k, role', hk, hrole', hname⟩
        obtain ⟨role, hrole, hname'⟩ := name_of_entries hent.symm hrole'
        exact ⟨k, role, hk.1, hrole, (hchosen k hk.1 hk.2.1).2 hk, hname' ▸ hname⟩

/-- Carry, tapped twice, stays as it was, Escape is chosen, and Nuker is not any more; a refresh in
    between brings two heroes, one of which has the role Escape. -/
theorem toggled_session_escape :
    let U := BatchUpdate.perform
    let past := [.fetchHeroes .ok true, .complete 0 (HeroService.answer [antiMage]) .ok,
      .filterButtonTapped, .roleButtonTapped 0 false, .roleButtonTapped 3 true, .saveButtonTapped]
    let opened := [⟨0, "All", false⟩, ⟨10, "Carry", false⟩, ⟨11, "Escape", false⟩,
      ⟨12, "Nuker", true⟩]
    let fs := .adapter (.moveToWindow true) :: [1, 2, 1, 3].flatMap fun row =>
      [.adapter .blockRuns, .adapter (.batchUpdateEnds true), .adapter .blockRuns,
        .cell (.cellForItemAt row), .cell (.buttonTapped row)]
    let es := [.roleButtonTapped 1 true, .fetchHeroes .ok true, .roleButtonTapped 2 true,
      .roleButtonTapped 1 false, .roleButtonTapped 3 false,
      .complete 1 (HeroService.answer [bloodseeker, juggernaut]) .ok]
    ∃ s s' filter, Runs.run (App.step .insertion) .installed past = some s ∧
      getRoles Sorter.insertion s.interactor = some opened ∧
      Runs.run (RenderedFilter.step U) (.opened opened) fs = some filter ∧
      Runs.run (App.step .insertion) s (.filterButtonTapped :: es ++ [.saveButtonTapped]) =
        some s' ∧
      s'.interactor.obsHeroes = [juggernaut] ∧
      ∀ id : Int,
        let rows := fs.filterMap RenderedFilterEvent.tapped
        id ∈ s'.interactor.obsHeroes.map Hero.id ↔
          ∃ hero ∈ s'.interactor.masterHeroes, hero.id = id ∧
            ((∀ k, 1 ≤ k → k < opened.length → Chosen opened rows k) ∨
              ∃ k role, Chosen opened rows k ∧ opened[k]? = some role ∧
                role.name ∈ hero.roles) := by
  intro U past opened fs es
  have hpast : Runs.run (App.step .insertion) (App.launched []) past = some _ := rfl
  have hfirst : ∀ response ∈ delivered past, AllSortsFirst response := by
    unfold AllSortsFirst
    decide
  have hes : ∀ e ∈ es, e.inSession = true := by decide
  have hsome : (Runs.run (RenderedFilter.step U) (.opened opened) fs).isSome := by decide +kernel
  obtain ⟨filter, hfilter⟩ := Option.isSome_iff_exists.1 hsome
  exact ⟨_, _, filter, rfl, by decide, hfilter, rfl, by decide,
    toggled_session BatchUpdate.documented_perform hpast hfirst (by decide) hfilter
      (by decide +kernel) (by decide) (by decide) hes (by decide) rfl rfl⟩

end HeroQ
