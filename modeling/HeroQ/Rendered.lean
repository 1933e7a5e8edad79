/-
  The hero list on IGListKit.

  The hero list is updated through the updater of IGListKit; a tap reads the hero from what the
  collection view shows, whose batch updates are a parameter.  The screens, which apply updates at
  will, are this with the updater left out:

  * `rendered_refines`: every run is one of the screens, with an `updatesApplied` wherever the
    updater updates or reloads the collection view;
  * `rendered_settles`: once no call is made, the blocks and the updates end, and then the grid
    shows the list.
-/
import HeroQ.Screens
import HeroQ.ListAdapter

namespace HeroQ

/-- The app, the adapter of the hero list, and the detail screens. -/
structure Rendered where
  app : App
  adapter : ListAdapter ListDiffable := .connected
  details : List HeroDetailInteractor := []
  deriving DecidableEq

/-- The events of the hero list and of its adapter. -/
inductive RenderedEvent where
  | app (event : Event)
  /-- `viewWillAppear`, or a rotation -/
  | performUpdates
  | adapter (event : AdapterEvent)
  | heroTapped (row : ℕ)
  | backButtonTapped
  deriving DecidableEq

namespace Rendered

variable (P : Platform) (U : UICollectionView (Reference ListDiffable))

/-- The hero list at a launch. -/
def launched (realm : RealmStore) : Rendered := { app := App.launched realm }

/-- `performUpdates` of `HeroListViewController` -/
def performUpdates (r : Rendered) : Rendered :=
  { r with
    adapter := r.adapter.performUpdates
      (HeroListAdapter.setupListDiffable (some r.app.interactor.obsHeroes)) }

/-- One event. -/
def step (r : Rendered) : RenderedEvent → Option Rendered
  | .app .launch => some (launched r.app.realm)
  | .app event => (App.step P r.app event).map fun app =>
    if r.app.acceptsHeroes event then performUpdates { r with app := app }
    else { r with app := app }
  | .performUpdates => some r.performUpdates
  | .adapter event => (r.adapter.step U event).map fun adapter => { r with adapter := adapter }
  | .heroTapped row =>
    match GridCollectionViewCell.didSelectItemAt (gridItems r.adapter.sections) row with
    | some hero =>
      let heroes := HeroListInteractor.getSimilarHeroes P.toSorter r.app.interactor hero
      some { r with details := r.details ++ [HeroDetailModule.init hero heroes] }
    | none => some r
  | .backButtonTapped =>
    if r.details = [] then none else some { r with details := r.details.dropLast }

/-- The screens. -/
def screens (r : Rendered) : Screens where
  app := r.app
  listDiffable := r.adapter.listDiffable.map Reference.object
  sections := r.adapter.sections
  details := r.details

end Rendered

/-- What the screens see of an event, but for the updates that are applied. -/
def RenderedEvent.screenEvent : RenderedEvent → Option ScreenEvent
  | .app event => some (.app event)
  | .performUpdates => some .performUpdates
  | .heroTapped row => some (.heroTapped row)
  | .backButtonTapped => some .backButtonTapped
  | _ => none

variable {P : Platform} {U : UICollectionView (Reference ListDiffable)}

/-! ## The screens -/

/-- The screens see an update when the sections become those of the adapter. -/
theorem screens_adapter {r : Rendered} {e : AdapterEvent} {adapter : ListAdapter ListDiffable}
    (hstep : AdapterStep U r.adapter e adapter) :
    ∃ es, Runs.run (Screens.step P) r.screens es =
        some ({ r with adapter := adapter } : Rendered).screens ∧
      es.filter (· ≠ .updatesApplied) = [] := by
  rcases hstep.shown with hsame | hlist
  · refine ⟨[], ?_, rfl⟩
    simp [Rendered.screens, ListAdapter.sections, hsame, hstep.listDiffable]
  · refine ⟨[.updatesApplied], ?_, rfl⟩
    simp [Rendered.screens, ListAdapter.sections, Screens.step, hlist, hstep.listDiffable]

theorem screens_performUpdates {r : Rendered} (h : AdapterSound U r.adapter) :
    r.performUpdates.screens = r.screens.performUpdates := by
  have hsections := h.sections_performUpdates
    (HeroListAdapter.setupListDiffable (some r.app.interactor.obsHeroes))
  have hobjects := map_object_references r.adapter.made
    (HeroListAdapter.setupListDiffable (some r.app.interactor.obsHeroes))
  simp only [Rendered.screens, Rendered.performUpdates, Screens.performUpdates, hsections]
  rw [ListAdapter.performUpdates, hobjects]

/-- An event of the app is the same event of the screens. -/
theorem screens_app (hU : BatchUpdate.Documented U) {r r' : Rendered} {event : Event}
    (h : AdapterSound U r.adapter)
    (hstep : Rendered.step P U r (.app event) = some r') :
    AdapterSound U r'.adapter ∧ Screens.step P r.screens (.app event) = some r'.screens := by
  by_cases hlaunch : event = .launch
  · subst hlaunch
    cases hstep
    exact ⟨adapterSound_connected hU, rfl⟩
  · have hrendered : Rendered.step P U r (.app event) = (App.step P r.app event).map fun app =>
        if r.app.acceptsHeroes event then Rendered.performUpdates { r with app := app }
        else { r with app := app } := by
      cases event <;> first | exact absurd rfl hlaunch | rfl
    have hscreens : Screens.step P r.screens (.app event) = (App.step P r.app event).map fun app =>
        if r.app.acceptsHeroes event then Screens.performUpdates { r.screens with app := app }
        else { r.screens with app := app } := by
      cases event <;> first | exact absurd rfl hlaunch | rfl
    rw [hrendered] at hstep
    obtain ⟨app, happ, rfl⟩ := Option.map_eq_some_iff.1 hstep
    rw [hscreens, happ]
    cases r.app.acceptsHeroes event with
    | true =>
      refine ⟨h.performUpdates hU _, ?_⟩
      exact congrArg some (screens_performUpdates (r := { r with app := app }) h).symm
    | false => exact ⟨h, rfl⟩

/-- One event of the hero list is one of the screens, with or without updates that are applied. -/
theorem screens_step (hU : BatchUpdate.Documented U) {r r' : Rendered} {e : RenderedEvent}
    (h : AdapterSound U r.adapter)
    (hstep : Rendered.step P U r e = some r') :
    AdapterSound U r'.adapter ∧ ∃ es, Runs.run (Screens.step P) r.screens es = some r'.screens ∧
      es.filter (· ≠ .updatesApplied) = e.screenEvent.toList := by
  cases e with
  | app event =>
    obtain ⟨hsound, hscreens⟩ := screens_app hU h hstep
    exact ⟨hsound, [.app event], by rw [Runs.run_cons, hscreens]; rfl, rfl⟩
  | performUpdates =>
    cases hstep
    refine ⟨h.performUpdates hU _, [.performUpdates], ?_, rfl⟩
    exact congrArg some (screens_performUpdates h).symm
  | adapter event =>
    obtain ⟨adapter, hadapter, rfl⟩ := Option.map_eq_some_iff.1 hstep
    exact ⟨(adapter_step hU h hadapter).sound, screens_adapter (adapter_step hU h hadapter)⟩
  | heroTapped row =>
    have hsections : r.screens.sections = r.adapter.sections := rfl
    rw [Rendered.step] at hstep
    cases hhero : GridCollectionViewCell.didSelectItemAt (gridItems r.adapter.sections) row with
    | none =>
      rw [hhero] at hstep
      cases hstep
      refine ⟨h, [.heroTapped row], ?_, rfl⟩
      rw [Runs.run_cons, Screens.step, hsections, hhero]
      rfl
    | some hero =>
      rw [hhero] at hstep
      cases hstep
      refine ⟨h, [.heroTapped row], ?_, rfl⟩
      rw [Runs.run_cons, Screens.step, hsections, hhero]
      rfl
  | backButtonTapped =>
    rw [Rendered.step] at hstep
    split_ifs at hstep with hdetails
    cases hstep
    refine ⟨h, [.backButtonTapped], ?_, rfl⟩
    rw [Runs.run_cons, Screens.step, if_neg (show r.screens.details ≠ [] from hdetails)]
    rfl

theorem rendered_run (hU : BatchUpdate.Documented U) {realm : RealmStore}
    {es : List RenderedEvent} {r : Rendered}
    (hrun : Runs.run (Rendered.step P U) (Rendered.launched realm) es = some r) :
    AdapterSound U r.adapter ∧
      ∃ es', Runs.run (Screens.step P) (Screens.launched realm) es' = some r.screens ∧
        es'.filter (· ≠ .updatesApplied) = es.filterMap RenderedEvent.screenEvent := by
  refine Runs.run_induct (I := fun past r => AdapterSound U r.adapter ∧ ∃ es',
    Runs.run (Screens.step P) (Screens.launched realm) es' = some r.screens ∧
      es'.filter (· ≠ .updatesApplied) = past.filterMap RenderedEvent.screenEvent)
    ⟨adapterSound_connected hU, [], rfl, rfl⟩ ?_ es r hrun
  rintro past e r r' _ hstep ⟨h, es', hes', hfilter⟩
  obtain ⟨h', es₁, hes₁, hfilter₁⟩ := screens_step hU h hstep
  refine ⟨h', es' ++ es₁, by rw [Runs.run_append, hes']; exact hes₁, ?_⟩
  rw [List.filter_append, hfilter, hfilter₁, Runs.filterMap_snoc]

/-- **IGListKit refines the screens.**  Every run of the hero list with its updater is a run of the
    screens, with the same events but for the updates that are applied. -/
theorem rendered_refines (P : Platform) (hU : BatchUpdate.Documented U) {realm : RealmStore}
    {es : List RenderedEvent} {r : Rendered}
    (hrun : Runs.run (Rendered.step P U) (Rendered.launched realm) es = some r) :
    ∃ es', Runs.run (Screens.step P) (Screens.launched realm) es' = some r.screens ∧
      es'.filter (· ≠ .updatesApplied) = es.filterMap RenderedEvent.screenEvent :=
  (rendered_run hU hrun).2

/-- The response arrives while the grid of the stored heroes is being inserted. -/
theorem rendered_refines_antiMage :
    let step := Rendered.step .insertion BatchUpdate.perform
    let es := [.adapter (.moveToWindow true), .performUpdates, .app (.fetchHeroes .ok true),
      .adapter .blockRuns, .app (.complete 0 (HeroService.answer [antiMage, bloodseeker]) .ok),
      .adapter .blockRuns, .heroTapped 1]
    ∃ r, Runs.run step (Rendered.launched []) es = some r ∧ r.adapter.sections = [] ∧
      ∃ es', Runs.run (Screens.step .insertion) (Screens.launched []) es' = some r.screens ∧
        es'.filter (· ≠ .updatesApplied) = es.filterMap RenderedEvent.screenEvent :=
  ⟨_, rfl, rfl, rendered_refines .insertion BatchUpdate.documented_perform rfl⟩

/-! ## The grid catches up -/

/-- The events that go on with the updates asked for. -/
def RenderedEvent.internal : RenderedEvent → Bool
  | .adapter event => event.internal
  | _ => false

theorem weight_step (hU : BatchUpdate.Documented U) {r r' : Rendered} {e : RenderedEvent}
    (h : AdapterSound U r.adapter)
    (he : e.screenEvent = none) (hstep : Rendered.step P U r e = some r') :
    AdapterSound U r'.adapter ∧
      r'.adapter.updater.weight + (if e.internal then 1 else 0) ≤ r.adapter.updater.weight := by
  cases e with
  | adapter event =>
    obtain ⟨adapter, hadapter, rfl⟩ := Option.map_eq_some_iff.1 hstep
    exact ⟨(adapter_step hU h hadapter).sound, (adapter_step hU h hadapter).weight⟩
  | _ => cases he

/-- **The grid catches up with the list.**  After any run, while the user and the app do nothing:
    the blocks and the updates come to an end, however the collection view gets into windows and out
    of them; and then the grid shows the list. -/
theorem rendered_settles (P : Platform) (hU : BatchUpdate.Documented U) {realm : RealmStore}
    {es es' : List RenderedEvent} {r r' : Rendered}
    (hrun : Runs.run (Rendered.step P U) (Rendered.launched realm) es = some r)
    (hes' : ∀ e ∈ es', e.screenEvent = none)
    (hrun' : Runs.run (Rendered.step P U) r es' = some r') :
    es'.countP RenderedEvent.internal ≤ r.adapter.updater.weight ∧
      (r'.adapter.Settled U → r'.adapter.sections =
        HeroListAdapter.setupListDiffable (some r'.app.interactor.obsHeroes)) := by
  have hbound := Runs.run_countP_le (I := fun r : Rendered => AdapterSound U r.adapter)
    (H := fun e => e.screenEvent = none) RenderedEvent.internal (fun r => r.adapter.updater.weight)
    (fun _ _ _ h he hstep => weight_step hU h he hstep) es' r r' (rendered_run hU hrun).1 hes' hrun'
  have hall : Runs.run (Rendered.step P U) (Rendered.launched realm) (es ++ es') = some r' := by
    rw [Runs.run_append, hrun]
    exact hrun'
  obtain ⟨h', es₁, hscreens, _⟩ := rendered_run hU hall
  refine ⟨by omega, fun hsettled => ?_⟩
  have hcurrent : r'.screens.listDiffable = _ := adapterCurrent_run hscreens
  rw [ListAdapter.sections, h'.settled hsettled]
  exact hcurrent

/-- Nobody waits for the batch update: the second update of the list is taken when it ends. -/
theorem rendered_settles_antiMage :
    let step := Rendered.step .insertion BatchUpdate.perform
    let es := [.adapter (.moveToWindow true), .app (.fetchHeroes .ok true),
      .app (.complete 0 (HeroService.answer [antiMage]) .ok), .adapter .blockRuns,
      .app (.fetchHeroes .ok true),
      .app (.complete 1 (HeroService.answer [antiMage, bloodseeker]) .ok)]
    let es' := [.adapter .blockRuns, .adapter (.batchUpdateEnds true), .adapter .blockRuns]
    ∃ r r', Runs.run step (Rendered.launched []) es = some r ∧ Runs.run step r es' = some r' ∧
      r.adapter.sections = [.grid [antiMage]] ∧
      r'.adapter.sections = [.grid [antiMage, bloodseeker]] ∧
      es'.countP RenderedEvent.internal ≤ r.adapter.updater.weight ∧
      (r'.adapter.Settled BatchUpdate.perform → r'.adapter.sections =
        HeroListAdapter.setupListDiffable (some r'.app.interactor.obsHeroes)) := by
  intro step es es'
  have hsections : ((Runs.run step (Rendered.launched []) es).bind fun r =>
      (Runs.run step r es').map fun r' => (r.adapter.sections, r'.adapter.sections)) =
        some ([.grid [antiMage]], [.grid [antiMage, bloodseeker]]) := by decide +kernel
  obtain ⟨r, hrun, hrest⟩ := Option.bind_eq_some_iff.1 hsections
  obtain ⟨r', hrun', heq⟩ := Option.map_eq_some_iff.1 hrest
  obtain ⟨hr, hr'⟩ := Prod.mk.inj heq
  exact ⟨r, r', hrun, hrun', hr, hr',
    rendered_settles .insertion BatchUpdate.documented_perform hrun (by decide) hrun'⟩

end HeroQ
