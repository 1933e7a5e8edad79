/-
  The hero list and the detail screens over the app.

  The adapter of the hero list keeps a copy of the list, made whenever the relay accepts one, and
  the grid shows a copy of that, since IGListKit applies updates later.  A tap reads the hero from
  the grid and its similar heroes from the list.  So the grid may lag behind, but it shows what the
  list once was (`grid_was_list`); once the updates are applied a tap opens the hero of that row of
  the list (`tap_opens_hero`); and whatever the user taps when, a detail screen shows only delivered
  heroes and fitting suggestions (`details_sound`).
-/
import HeroQ.Provenance
import HeroQ.Lib.Traces

namespace HeroQ

open HeroListInteractor

/-! ## The adapters -/

/-- The objects that the adapters hand to IGListKit. -/
inductive ListDiffable where
  /-- `GridIdentifier` -/
  | grid (heroes : List Hero)
  /-- `HeroIdentifier` -/
  | hero (height : ℕ) (hero : Hero)
  /-- `SimilarHeroesIdentifier` -/
  | similarHeroes (height : ℕ) (heroes : List Hero)
  deriving DecidableEq, Repr

/-- `setupListDiffable` of `HeroListAdapter`, on the value of `obsHeroes` if it is set. -/
def HeroListAdapter.setupListDiffable (obsHeroes : Option (List Hero)) : List ListDiffable :=
  let list : List ListDiffable := []
  if (obsHeroes.map List.length).getD 0 > 0 then list ++ [.grid (obsHeroes.getD [])] else list

/-- `HeroDetailInteractor`: the values of its relays. -/
structure HeroDetailInteractor where
  obsHero : Option Hero
  obsHeroes : List Hero
  deriving DecidableEq, Repr

/-- `HeroDetailModule.init(hero:heroes:)` -/
def HeroDetailModule.init (hero : Hero) (heroes : List Hero) : HeroDetailInteractor :=
  ⟨some hero, heroes⟩

/-- `setupListDiffable` of `HeroDetailAdapter` -/
def HeroDetailAdapter.setupListDiffable (obsHero : Option Hero) (obsHeroes : Option (List Hero)) :
    List ListDiffable :=
  let list : List ListDiffable := []
  let list := match obsHero with
    | some hero => list ++ [.hero 452 hero]
    | none => list
  if (obsHeroes.map List.length).getD 0 > 0 then list ++ [.similarHeroes 136 (obsHeroes.getD [])]
  else list

/-- What a detail screen shows. -/
def HeroDetailInteractor.sections (detail : HeroDetailInteractor) : List ListDiffable :=
  HeroDetailAdapter.setupListDiffable detail.obsHero (some detail.obsHeroes)

/-- The `items` of the cell of the grid, if there is one. -/
def gridItems (sections : List ListDiffable) : Option (List Hero) :=
  sections.findSome? fun
    | .grid heroes => some heroes
    | _ => none

/-- `collectionView(_:didSelectItemAt:)` of `GridCollectionViewCell`: the hero that the view is told
    of. -/
def GridCollectionViewCell.didSelectItemAt (items : Option (List Hero)) (row : ℕ) : Option Hero :=
  match items with
  | some items => if items.length > row then items[row]? else none
  | none => none

/-! ## The screens -/

/-- The app, what the adapter of the hero list holds, what its collection view shows, and the detail
    screens pushed over it. -/
structure Screens where
  app : App
  listDiffable : List ListDiffable := []
  sections : List ListDiffable := []
  details : List HeroDetailInteractor := []
  deriving DecidableEq

/-- The events of the screens. -/
inductive ScreenEvent where
  | app (event : Event)
  /-- `viewWillAppear`, or a rotation -/
  | performUpdates
  /-- IGListKit applies the last update that it was given -/
  | updatesApplied
  | heroTapped (row : ℕ)
  | backButtonTapped
  deriving DecidableEq

/-- Whether `obsHeroes` accepts a list during the event. -/
def App.acceptsHeroes (s : App) : Event → Bool
  | .fetchHeroes io _ => decide ((RealmHelper.getHeroes io s.realm).length > 0)
  | .complete _ result _ => (HeroService.completion result).toOption.isSome
  | .saveButtonTapped =>
    (s.screen.bind fun roles => FilterViewController.saveButtonTapped roles).isSome
  | _ => false

namespace Screens

variable (P : Platform)

/-- The screens at a launch. -/
def launched (realm : RealmStore) : Screens := { app := App.launched realm }

/-- The screens at the first launch. -/
def installed : Screens := launched []

/-- `performUpdates` of `HeroListViewController` -/
def performUpdates (s : Screens) : Screens :=
  { s with listDiffable := HeroListAdapter.setupListDiffable (some s.app.interactor.obsHeroes) }

/-- `didHeroTapped` of `HeroListViewController` -/
def didHeroTapped (hero : Hero) (s : Screens) : Screens :=
  let heroes := getSimilarHeroes P.toSorter s.app.interactor hero
  { s with details := s.details ++ [HeroDetailModule.init hero heroes] }

/-- One event.  When the relay accepts a list, the interactor has the view perform its updates. -/
def step (s : Screens) : ScreenEvent → Option Screens
  | .app .launch => some (launched s.app.realm)
  | .app event => (App.step P s.app event).map fun app =>
    if s.app.acceptsHeroes event then performUpdates { s with app := app }
    else { s with app := app }
  | .performUpdates => some s.performUpdates
  | .updatesApplied => some { s with sections := s.listDiffable }
  | .heroTapped row =>
    match GridCollectionViewCell.didSelectItemAt (gridItems s.sections) row with
    | some hero => some (s.didHeroTapped P hero)
    | none => some s
  | .backButtonTapped =>
    if s.details = [] then none else some { s with details := s.details.dropLast }

end Screens

/-- What the app sees of an event of the screens. -/
def ScreenEvent.appEvents : ScreenEvent → List Event
  | .app event => [event]
  | _ => []

variable {P : Platform}

/-! ## What one event does -/

theorem setupListDiffable_list (heroes : List Hero) :
    HeroListAdapter.setupListDiffable (some heroes) =
      if heroes = [] then [] else [.grid heroes] := by
  cases heroes <;> rfl

/-- The grid has a row for each hero of the list. -/
theorem didSelectItemAt_list (heroes : List Hero) (row : ℕ) :
    GridCollectionViewCell.didSelectItemAt
      (gridItems (HeroListAdapter.setupListDiffable (some heroes))) row = heroes[row]? := by
  rw [setupListDiffable_list]
  split_ifs with hnil
  · rw [hnil]; rfl
  · have hgrid : gridItems [.grid heroes] = some heroes := rfl
    rw [hgrid, GridCollectionViewCell.didSelectItemAt]
    split_ifs with hrow
    · rfl
    · exact (List.getElem?_eq_none (not_lt.1 hrow)).symm

theorem grid_mem_of_gridItems {sections : List ListDiffable} {heroes : List Hero}
    (h : gridItems sections = some heroes) : .grid heroes ∈ sections := by
  obtain ⟨item, hitem, hgrid⟩ := List.exists_of_findSome?_eq_some h
  cases item with
  | grid heroes' => cases hgrid; exact hitem
  | hero height hero => cases hgrid
  | similarHeroes height heroes' => cases hgrid

/-- A hero that is tapped is on the grid. -/
theorem mem_of_didSelectItemAt {sections : List ListDiffable} {row : ℕ} {hero : Hero}
    (h : GridCollectionViewCell.didSelectItemAt (gridItems sections) row = some hero) :
    ∃ heroes, .grid heroes ∈ sections ∧ hero ∈ heroes := by
  cases hitems : gridItems sections with
  | none => rw [hitems] at h; cases h
  | some heroes =>
    rw [hitems, GridCollectionViewCell.didSelectItemAt] at h
    split_ifs at h
    exact ⟨heroes, grid_mem_of_gridItems hitems, List.mem_of_getElem? h⟩

/-- The list changes only when the relay accepts one. -/
theorem obsHeroes_of_not_accepts {s s' : App} {e : Event} (hstep : App.step P s e = some s')
    (hlaunch : e ≠ .launch) (h : s.acceptsHeroes e = false) :
    s'.interactor.obsHeroes = s.interactor.obsHeroes := by
  have hreload : ∀ io, (decide ((RealmHelper.getHeroes io s.realm).length > 0)) = false →
      reloaded io s.realm s.interactor.obsHeroes = s.interactor.obsHeroes := by
    intro io hnone
    rw [reloaded, if_pos (List.length_eq_zero_iff.1 (by simpa using hnone))]
  cases step_transition hstep with
  | launch => exact absurd rfl hlaunch
  | request => exact hreload _ h
  | noInternet => exact hreload _ h
  | success _ hresult =>
    rw [App.acceptsHeroes, hresult] at h
    cases h
  | failure _ _ => rfl
  | saved hscreen hsome =>
    rw [App.acceptsHeroes, hscreen, Option.bind_some, FilterViewController.saveButtonTapped,
      if_pos (List.length_pos_iff.2 hsome)] at h
    cases h
  | opened _ _ | tapped _ _ | alerted _ _ | closed _ => rfl

/-- What the events do, from the screens `s`. -/
inductive ScreenTransition (P : Platform) (s : Screens) : ScreenEvent → Screens → Prop
  | launch : ScreenTransition P s (.app .launch) (Screens.launched s.app.realm)
  | app {event app} (hlaunch : event ≠ .launch) (happ : App.step P s.app event = some app)
      {listDiffable} (hlist : s.listDiffable =
        HeroListAdapter.setupListDiffable (some s.app.interactor.obsHeroes) →
          listDiffable = HeroListAdapter.setupListDiffable (some app.interactor.obsHeroes)) :
      ScreenTransition P s (.app event) { s with app := app, listDiffable := listDiffable }
  | performUpdates : ScreenTransition P s .performUpdates
      { s with
        listDiffable := HeroListAdapter.setupListDiffable (some s.app.interactor.obsHeroes) }
  | updatesApplied : ScreenTransition P s .updatesApplied { s with sections := s.listDiffable }
  | heroTapped {row hero}
      (hhero : GridCollectionViewCell.didSelectItemAt (gridItems s.sections) row = some hero) :
      ScreenTransition P s (.heroTapped row)
        { s with
          details := s.details ++
            [HeroDetailModule.init hero (getSimilarHeroes P.toSorter s.app.interactor hero)] }
  | pastTheEnd {row} (hnone :
      GridCollectionViewCell.didSelectItemAt (gridItems s.sections) row = none) :
      ScreenTransition P s (.heroTapped row) s
  | back : ScreenTransition P s .backButtonTapped { s with details := s.details.dropLast }

theorem screen_step_transition {s s' : Screens} {e : ScreenEvent}
    (h : Screens.step P s e = some s') : ScreenTransition P s e s' := by
  cases e with
  | app event =>
    by_cases hlaunch : event = .launch
    · subst hlaunch
      cases h
      exact .launch
    · have hstep : Screens.step P s (.app event) = (App.step P s.app event).map fun app =>
          if s.app.acceptsHeroes event then Screens.performUpdates { s with app := app }
          else { s with app := app } := by
        cases event <;> first | exact absurd rfl hlaunch | rfl
      rw [hstep] at h
      obtain ⟨app, happ, rfl⟩ := Option.map_eq_some_iff.1 h
      cases haccepts : s.app.acceptsHeroes event with
      | true => exact .app hlaunch happ fun _ => rfl
      | false =>
        refine .app hlaunch happ fun hlist => ?_
        rw [obsHeroes_of_not_accepts happ hlaunch haccepts]
        exact hlist
  | performUpdates =>
    cases h
    exact .performUpdates
  | updatesApplied =>
    cases h
    exact .updatesApplied
  | heroTapped row =>
    rw [Screens.step] at h
    split at h
    next hero hhero => cases h; exact .heroTapped hhero
    next hnone => cases h; exact .pastTheEnd hnone
  | backButtonTapped =>
    rw [Screens.step] at h
    split_ifs at h
    cases h
    exact .back

/-- A run of the screens is one of the app. -/
theorem app_of_screens {realm : RealmStore} {es : List ScreenEvent} {s : Screens}
    (hrun : Runs.run (Screens.step P) (Screens.launched realm) es = some s) :
    Runs.run (App.step P) (App.launched realm) (es.flatMap ScreenEvent.appEvents) =
      some s.app := by
  have hstep : ∀ (s s' : Screens) (app : App) (e : ScreenEvent), s.app = app →
      Screens.step P s e = some s' →
        ∃ app', Runs.run (App.step P) app e.appEvents = some app' ∧ s'.app = app' := by
    rintro s s' _ e rfl hstep
    refine ⟨s'.app, ?_, rfl⟩
    cases screen_step_transition hstep with
    | launch => rfl
    | app _ happ _ => rw [ScreenEvent.appEvents, Runs.run_cons, happ]; rfl
    | performUpdates | updatesApplied | back => rfl
    | heroTapped _ | pastTheEnd _ => rfl
  obtain ⟨app, happ, rfl⟩ := Runs.run_flatMap ScreenEvent.appEvents
    (fun (s : Screens) app => s.app = app) hstep es _ _ (App.launched realm) rfl hrun
  exact happ

/-! ## The grid -/

/-- The adapter holds the list. -/
def AdapterCurrent (s : Screens) : Prop :=
  s.listDiffable = HeroListAdapter.setupListDiffable (some s.app.interactor.obsHeroes)

theorem adapterCurrent_launched (realm : RealmStore) : AdapterCurrent (Screens.launched realm) :=
  rfl

theorem adapterCurrent_step {s s' : Screens} {e : ScreenEvent}
    (hstep : Screens.step P s e = some s') (hI : AdapterCurrent s) : AdapterCurrent s' := by
  cases screen_step_transition hstep with
  | launch => rfl
  | app _ _ hlist => exact hlist hI
  | performUpdates => rfl
  | updatesApplied | back => exact hI
  | heroTapped _ | pastTheEnd _ => exact hI

theorem adapterCurrent_run {realm : RealmStore} {es : List ScreenEvent} {s : Screens}
    (hrun : Runs.run (Screens.step P) (Screens.launched realm) es = some s) : AdapterCurrent s :=
  Runs.run_induct (I := fun _ s => AdapterCurrent s) (adapterCurrent_launched realm)
    (fun _ _ _ _ _ hstep hI => adapterCurrent_step hstep hI) es s hrun

/-- The grid shows the list as it was after some initial part of the run. -/
def GridWasList (P : Platform) (realm : RealmStore) (es : List ScreenEvent) (s : Screens) : Prop :=
  ∃ past s', past <+: es ∧ Runs.run (Screens.step P) (Screens.launched realm) past = some s' ∧
    s.sections = HeroListAdapter.setupListDiffable (some s'.app.interactor.obsHeroes)

theorem GridWasList.snoc {realm : RealmStore} {es : List ScreenEvent} {s s' : Screens}
    (h : GridWasList P realm es s) (hsections : s'.sections = s.sections) (e : ScreenEvent) :
    GridWasList P realm (es ++ [e]) s' := by
  obtain ⟨past, s₀, hpast, hs₀, hgrid⟩ := h
  exact ⟨past, s₀, hpast.trans (List.prefix_append es [e]), hs₀, hsections.trans hgrid⟩

/-- **The adapter never lags behind the list, and the grid shows what the list once was.** -/
theorem grid_was_list (P : Platform) {realm : RealmStore} {es : List ScreenEvent} {s : Screens}
    (hrun : Runs.run (Screens.step P) (Screens.launched realm) es = some s) :
    s.listDiffable = HeroListAdapter.setupListDiffable (some s.app.interactor.obsHeroes) ∧
      ∃ past s', past <+: es ∧ Runs.run (Screens.step P) (Screens.launched realm) past = some s' ∧
        s.sections = HeroListAdapter.setupListDiffable (some s'.app.interactor.obsHeroes) := by
  refine ⟨adapterCurrent_run hrun, Runs.run_induct (I := GridWasList P realm)
    ⟨[], Screens.launched realm, List.prefix_refl _, rfl, rfl⟩ ?_ es s hrun⟩
  intro past e s s' hpast hstep hI
  cases screen_step_transition hstep with
  | launch => exact ⟨[], Screens.launched realm, List.nil_prefix, rfl, rfl⟩
  | updatesApplied =>
    exact ⟨past, s, List.prefix_append _ _, hpast, adapterCurrent_run hpast⟩
  | app _ _ _ => exact hI.snoc rfl _
  | performUpdates | back => exact hI.snoc rfl _
  | heroTapped _ | pastTheEnd _ => exact hI.snoc rfl _

/-- The response has arrived, and its update has not been applied. -/
theorem grid_was_list_antiMage :
    let es := [.app (.fetchHeroes .ok true),
      .app (.complete 0 (HeroService.answer [antiMage, bloodseeker]) .ok), .updatesApplied,
      .app (.fetchHeroes .ok true), .app (.complete 1 (HeroService.answer [juggernaut]) .ok)]
    ∃ s, Runs.run (Screens.step .insertion) .installed es = some s ∧
      s.listDiffable = HeroListAdapter.setupListDiffable (some s.app.interactor.obsHeroes) ∧
      s.listDiffable = [.grid [juggernaut]] ∧ s.sections = [.grid [antiMage, bloodseeker]] := by
  intro es
  have hrun : Runs.run (Screens.step .insertion) (Screens.launched []) es = some _ := rfl
  exact ⟨_, rfl, (grid_was_list .insertion hrun).1, by decide, by decide⟩

/-- **A tap opens the hero of its row**, once the updates are applied, with the heroes of the list
    that are similar to it; and past the end of the list it opens nothing. -/
theorem tap_opens_hero (P : Platform) {realm : RealmStore} {es : List ScreenEvent} {s : Screens}
    (hrun : Runs.run (Screens.step P) (Screens.launched realm) es = some s) (row : ℕ) :
    Runs.run (Screens.step P) s [.updatesApplied, .heroTapped row] =
      some { s with
        sections := s.listDiffable
        details := s.details ++ ((s.app.interactor.obsHeroes[row]?).map fun hero =>
          HeroDetailModule.init hero
            (getSimilarHeroes P.toSorter s.app.interactor hero)).toList } := by
  have hlist : s.listDiffable = _ := adapterCurrent_run hrun
  simp only [Runs.run_cons, Runs.run_nil, Screens.step, Option.bind_some, hlist,
    didSelectItemAt_list]
  cases s.app.interactor.obsHeroes[row]? with
  | none => simp
  | some hero => rfl

theorem tap_opens_hero_antiMage :
    let es := [.app (.fetchHeroes .ok true),
      .app (.complete 0 (HeroService.answer [antiMage, bloodseeker]) .ok)]
    ∃ s s', Runs.run (Screens.step .insertion) .installed es = some s ∧
      Runs.run (Screens.step .insertion) s [.updatesApplied, .heroTapped 1] = some s' ∧
      s'.details = [⟨some bloodseeker, []⟩] := by
  intro es
  have hrun : Runs.run (Screens.step .insertion) (Screens.launched []) es = some _ := rfl
  exact ⟨_, _, rfl, tap_opens_hero .insertion hrun 1, by decide⟩

/-! ## The detail screens -/

/-- A detail screen shows a hero and at most three others, by decreasing statistic, all of them
    delivered; and the others have another id, the same attribute and all of its roles. -/
def DetailSound (es : List Event) (detail : HeroDetailInteractor) : Prop :=
  ∃ hero, detail.obsHero = some hero ∧ Delivered es hero ∧ detail.obsHeroes.length ≤ 3 ∧
    (detail.obsHeroes.Pairwise fun a b => similarityKey hero b ≤ similarityKey hero a) ∧
    ∀ similar ∈ detail.obsHeroes, Delivered es similar ∧ similar.id ≠ hero.id ∧
      similar.primaryAttr = hero.primaryAttr ∧ ∀ role ∈ hero.roles, role ∈ similar.roles

theorem isEligible_iff {hero other : Hero} :
    isEligible hero other = true ↔ other.id ≠ hero.id ∧ other.primaryAttr = hero.primaryAttr ∧
      ∀ role ∈ hero.roles, role ∈ other.roles := by
  simp [isEligible, and_assoc]

/-- A detail screen of a delivered hero is sound. -/
theorem detailSound_init {es : List Event} {s : App} (hfrom : FromResponses es s) {hero : Hero}
    (hhero : Delivered es hero) : DetailSound es
      (HeroDetailModule.init hero (getSimilarHeroes P.toSorter s.interactor hero)) := by
  let heroes := getSimilarHeroes P.toSorter s.interactor hero
  have heq : heroes = (P.sort (Sorter.byKey (· > ·) (similarityKey hero))
      (eligible s.interactor.obsHeroes hero)).take 3 := getSimilarHeroes_eq P.toSorter _ hero
  refine ⟨hero, rfl, hhero, ?_, ?_, fun similar hs => ?_⟩
  · show heroes.length ≤ 3
    rw [heq]
    exact List.length_take_le 3 _
  · have hordered := P.sort_ordered (· > ·) (similarityKey hero)
      (eligible s.interactor.obsHeroes hero)
    show heroes.Pairwise _
    rw [heq]
    exact (hordered.sublist (List.take_sublist 3 _)).imp fun {a b} h => not_lt.1 h
  · have hmem : similar ∈ heroes := hs
    rw [heq] at hmem
    have helig := P.mem_sort.1 (List.mem_of_mem_take hmem)
    exact ⟨hfrom.getSimilarHeroes P.toSorter hero similar hs,
      isEligible_iff.1 (List.mem_filter.1 helig).2⟩

theorem DetailSound.append {es : List Event} {detail : HeroDetailInteractor}
    (h : DetailSound es detail) (es' : List Event) : DetailSound (es ++ es') detail := by
  have hmono : ∀ {hero}, Delivered es hero → Delivered (es ++ es') hero := by
    rintro hero ⟨response, hresponse, hh⟩
    refine ⟨response, ?_, hh⟩
    rw [delivered, List.filterMap_append]
    exact List.mem_append_left _ hresponse
  obtain ⟨hero, hobs, hhero, hlen, hordered, hsimilar⟩ := h
  exact ⟨hero, hobs, hmono hhero, hlen, hordered, fun similar hs =>
    ⟨hmono (hsimilar similar hs).1, (hsimilar similar hs).2⟩⟩

/-- The heroes of the grid were delivered, and the detail screens are sound. -/
structure ScreensSound (es : List Event) (s : Screens) : Prop where
  grid : ∀ heroes, .grid heroes ∈ s.sections → ∀ hero ∈ heroes, Delivered es hero
  details : ∀ detail ∈ s.details, DetailSound es detail

theorem ScreensSound.append {es : List Event} {s s' : Screens} (h : ScreensSound es s)
    (hsections : s'.sections = s.sections) (hdetails : s'.details = s.details)
    (es' : List Event) : ScreensSound (es ++ es') s' where
  grid heroes hgrid hero hh := by
    obtain ⟨response, hresponse, hmem⟩ := h.grid heroes (hsections ▸ hgrid) hero hh
    refine ⟨response, ?_, hmem⟩
    rw [delivered, List.filterMap_append]
    exact List.mem_append_left _ hresponse
  details detail hdetail := (h.details detail (hdetails ▸ hdetail)).append es'

theorem screensSound_run {es : List ScreenEvent} {s : Screens}
    (hrun : Runs.run (Screens.step P) .installed es = some s) :
    ScreensSound (es.flatMap ScreenEvent.appEvents) s := by
  refine Runs.run_induct
    (I := fun past s => ScreensSound (past.flatMap ScreenEvent.appEvents) s)
    ⟨fun _ h => absurd h List.not_mem_nil, fun _ h => absurd h List.not_mem_nil⟩ ?_ es s hrun
  intro past e s s' hpast hstep hI
  have hfrom := fromResponses (app_of_screens hpast)
  rw [List.flatMap_append, List.flatMap_singleton]
  cases screen_step_transition hstep with
  | launch => exact ⟨fun _ h => absurd h List.not_mem_nil, fun _ h => absurd h List.not_mem_nil⟩
  | app _ _ _ => exact hI.append (by rfl) (by rfl) _
  | performUpdates => exact hI.append (by rfl) (by rfl) _
  | pastTheEnd _ => exact hI.append (by rfl) (by rfl) _
  | updatesApplied =>
    have hI' := hI.append rfl rfl []
    refine ⟨fun heroes hgrid hero hh => ?_, hI'.details⟩
    rw [show s.listDiffable = _ from adapterCurrent_run hpast, setupListDiffable_list] at hgrid
    split_ifs at hgrid
    · exact absurd hgrid List.not_mem_nil
    · obtain rfl : heroes = s.app.interactor.obsHeroes := by simpa using hgrid
      simpa [ScreenEvent.appEvents] using hfrom.obsHeroes hero hh
  | heroTapped hhero =>
    have hI' := hI.append rfl rfl []
    refine ⟨hI'.grid, fun detail hdetail => ?_⟩
    rcases List.mem_append.1 hdetail with hold | hnew
    · exact hI'.details detail hold
    · obtain rfl := List.mem_singleton.1 hnew
      obtain ⟨heroes, hgrid, hmem⟩ := mem_of_didSelectItemAt hhero
      exact (detailSound_init hfrom (hI.grid heroes hgrid _ hmem)).append []
  | back =>
    have hI' := hI.append rfl rfl []
    exact ⟨hI'.grid, fun detail hdetail => hI'.details detail (List.mem_of_mem_dropLast hdetail)⟩

/-- **Whatever the user taps when, a detail screen is sound**: it shows a hero that was delivered
    and at most three similar ones, in order, also when the grid is behind the list or a response
    arrives while it is open. -/
theorem details_sound (P : Platform) {es : List ScreenEvent} {s : Screens}
    (hrun : Runs.run (Screens.step P) .installed es = some s) :
    ∀ detail ∈ s.details, DetailSound (es.flatMap ScreenEvent.appEvents) detail :=
  (screensSound_run hrun).details

/-- Anti-Mage is tapped on a grid that is behind the list: the similar heroes are those of the new
    list. -/
theorem details_sound_antiMage :
    let es := [.app (.fetchHeroes .ok true),
      .app (.complete 0 (HeroService.answer [antiMage]) .ok), .updatesApplied,
      .app (.fetchHeroes .ok true),
      .app (.complete 1 (HeroService.answer [{ antiMage with id := 2 }]) .ok), .heroTapped 0]
    ∃ s, Runs.run (Screens.step .insertion) .installed es = some s ∧
      s.details = [⟨some antiMage, [{ antiMage with id := 2 }]⟩] ∧
      ∀ detail ∈ s.details, DetailSound (es.flatMap ScreenEvent.appEvents) detail :=
  ⟨_, rfl, by decide, details_sound .insertion rfl⟩

end HeroQ
