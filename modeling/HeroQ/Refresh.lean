/-
  The refresh of the list against its filters, its master list and the cache.

  The list on screen, the master list, the active filters and the stored heroes are separate
  variables, and each event writes some of them.  The theorems say which steps of a run keep them
  together: `list_shows_filtered_iff` (the list is what the filters select), `filter_covers_iff`
  (the filter screen covers the list) and `failed_refresh_unchanged_iff` (a refresh that fails
  changes nothing).
-/
import HeroQ.Transitions
import HeroQ.Roles

namespace HeroQ

open HeroListInteractor

variable {P : Platform}

/-! ## The list and the active filters -/

/-- The list is what the active filters select from the master list. -/
def ShowsFiltered (i : HeroListInteractor) : Prop :=
  i.obsHeroes = shown i.obsActiveFilters i.masterHeroes

/-- If the filters narrow a list at all, they keep this one as it is: no id repeats, every hero has
    one of the roles, and the heroes come in the order of the first role they have. -/
def KeptByFilters (filters : List RoleFilter) (heroes : List Hero) : Prop :=
  Narrowing filters →
    (heroes.map Hero.id).Nodup ∧
      (∀ hero ∈ heroes, ∃ f ∈ filters, f.name ∈ hero.roles) ∧
      heroes.Pairwise fun hero hero' => firstAdmitting filters hero ≤ firstAdmitting filters hero'

theorem shown_eq_self_iff {filters : List RoleFilter} {heroes : List Hero} :
    shown filters heroes = heroes ↔ KeptByFilters filters heroes := by
  by_cases h : Narrowing filters
  · rw [shown_narrowing h, KeptByFilters, imp_iff_right h]
    constructor
    · intro heq
      have hids : (heroes.map Hero.id).Nodup := heq ▸ FirstOcc.nodup_anyOf _ _ heroes
      rw [FirstOcc.anyOf_eq_self_iff hids] at heq
      simpa only [rank_map_admits, List.mem_map, exists_exists_and_eq_and, admits_iff] using
        And.intro hids heq
    · rintro ⟨hids, hadm, hord⟩
      rw [FirstOcc.anyOf_eq_self_iff hids]
      simpa only [rank_map_admits, List.mem_map, exists_exists_and_eq_and, admits_iff] using
        And.intro hadm hord
  · exact iff_of_true (shown_not_narrowing h heroes) fun h' => absurd h' h

/-- The steps that keep the list at what the filters select: a refresh reads nothing from the cache
    that is not on the list, and a response is one that the active filters keep as it is. -/
def KeepsFiltered (past : List Event) (s : App) : Event → Prop
  | .fetchHeroes io _ => fetched past = true → ReloadKeeps io s.realm s.interactor.obsHeroes
  | .complete _ result _ => ∀ response, HeroService.completion result = .ok response →
      KeptByFilters s.interactor.obsActiveFilters response
  | _ => True

theorem showsFiltered_step {past : List Event} {s s' : App} {e : Event}
    (hstep : App.step P s e = some s') (hI : fetched past = true → ShowsFiltered s.interactor) :
    (fetched (past ++ [e]) = true → ShowsFiltered s'.interactor) ↔ KeepsFiltered past s e := by
  -- the list after a reload is what the filters select iff the reload leaves it as it is
  have hreload : ∀ io, (fetched past = true →
      reloaded io s.realm s.interactor.obsHeroes =
        shown s.interactor.obsActiveFilters s.interactor.masterHeroes) ↔
      (fetched past = true → ReloadKeeps io s.realm s.interactor.obsHeroes) := by
    intro io
    refine imp_congr_right fun hf => ?_
    rw [← reloaded_eq_self_iff, ← show _ = _ from hI hf]
  cases step_transition hstep with
  | launch => simp [KeepsFiltered]
  | @request io =>
    rw [fetched_silent (by simp) rfl]
    exact hreload io
  | @noInternet io =>
    rw [fetched_silent (by simp) rfl]
    exact hreload io
  | success _ hresult =>
    rw [fetched_success hresult, imp_iff_right rfl, KeepsFiltered, hresult]
    simp only [Except.ok.injEq, forall_eq', ← shown_eq_self_iff]
    exact eq_comm
  | failure _ hresult =>
    rw [fetched_silent (by simp) (response_failure hresult), KeepsFiltered, hresult]
    exact iff_of_true hI fun _ h => nomatch h
  | opened _ _ | tapped _ _ | alerted _ _ | closed _ =>
    rw [fetched_silent (by simp) rfl]
    exact iff_of_true hI trivial
  | saved _ _ => exact iff_of_true (fun _ => rfl) trivial

/-- **The list shows what the filters select**, throughout a run and after a success since the
    launch, iff no refresh brings other heroes out of the cache and no response is one that the
    active filters would change. -/
theorem list_shows_filtered_iff (P : Platform) (realm : RealmStore) {es : List Event} {s : App}
    (hrun : Runs.run (App.step P) (App.launched realm) es = some s) :
    Runs.Throughout (App.step P) (App.launched realm) es
        (fun past s => fetched past = true → ShowsFiltered s.interactor) ↔
      Runs.EachStep (App.step P) (App.launched realm) es KeepsFiltered :=
  Runs.throughout_iff (fun h => nomatch h) (fun _ _ _ _ _ => showsFiltered_step) hrun

theorem list_shows_filtered_iff_antiMage :
    let es := [.fetchHeroes .ok true, .complete 0 (HeroService.answer [antiMage]) .ok,
      .fetchHeroes .ok false]
    Runs.Throughout (App.step .insertion) .installed es
        (fun past s => fetched past = true → ShowsFiltered s.interactor) ↔
      Runs.EachStep (App.step .insertion) .installed es KeepsFiltered :=
  list_shows_filtered_iff .insertion [] rfl

/-- With the filter Disabler saved, which only Bloodseeker passes, a refresh shows both heroes
    again, and the filter stays active. -/
theorem refresh_drops_filter :
    ∃ es s, Runs.run (App.step .insertion) .installed es = some s ∧
      es = [.fetchHeroes .ok true,
        .complete 0 (HeroService.answer [antiMage, bloodseeker]) .ok,
        .filterButtonTapped, .roleButtonTapped 0 false, .roleButtonTapped 2 true,
        .saveButtonTapped, .fetchHeroes .ok true,
        .complete 1 (HeroService.answer [antiMage, bloodseeker]) .ok] ∧
      fetched es = true ∧
      s.interactor.masterHeroes = [antiMage, bloodseeker] ∧
      s.interactor.obsHeroes = [antiMage, bloodseeker] ∧
      s.interactor.obsActiveFilters.map RoleFilter.name = ["Disabler"] ∧
      ¬ ShowsFiltered s.interactor := by
  refine ⟨_, _, rfl, rfl, ?_⟩
  unfold ShowsFiltered
  decide

/-! ## The list and the filter screen -/

/-- The filter screen covers the list: every role on the list is offered, and the All filter loses
    no id. -/
def FilterCovers (S : Sorter) (i : HeroListInteractor) : Prop :=
  ∃ roles, getRoles S i = some roles ∧
    (∀ hero ∈ i.obsHeroes, ∀ role ∈ hero.roles, role ∈ roles.map RoleFilter.name) ∧
    ∀ hero ∈ i.obsHeroes,
      hero.id ∈ (filterHeroes [allFilter.select true] i).obsHeroes.map Hero.id

/-- The master list has the hero's id and each of its roles (All is offered anyway). -/
def CoveredBy (masterHeroes : List Hero) (hero : Hero) : Prop :=
  hero.id ∈ masterHeroes.map Hero.id ∧
    ∀ role ∈ hero.roles, role = "All" ∨ ∃ hero' ∈ masterHeroes, role ∈ hero'.roles

theorem filterHeroes_all (i : HeroListInteractor) :
    (filterHeroes [allFilter.select true] i).obsHeroes = i.masterHeroes := by
  have hwide : ¬ Narrowing [allFilter.select true] := by decide
  rw [filterHeroes_eq (List.cons_ne_nil _ _)]
  exact shown_not_narrowing hwide _

theorem filterCovers_iff {S : Sorter} {i : HeroListInteractor} :
    FilterCovers S i ↔ ∀ hero ∈ i.obsHeroes, CoveredBy i.masterHeroes hero := by
  obtain ⟨roles, hroles, hnames⟩ := getRoles_names S i
  unfold FilterCovers CoveredBy
  simp only [hroles, Option.some.injEq, exists_eq_left', hnames, filterHeroes_all]
  constructor
  · rintro ⟨hrole, hid⟩ hero hh
    exact ⟨hid hero hh, hrole hero hh⟩
  · intro h
    exact ⟨fun hero hh => (h hero hh).2, fun hero hh => (h hero hh).1⟩

/-- The steps that keep the list covered: a refresh reads only heroes from the cache that the
    master list covers. -/
def KeepsCovered (_ : List Event) (s : App) : Event → Prop
  | .fetchHeroes io _ => io.opens = true →
      ∀ hero ∈ s.realm.map RealmHelper.setHero, CoveredBy s.interactor.masterHeroes hero
  | _ => True

/-- A reload keeps the list covered iff the heroes it reads are covered. -/
theorem covered_reloaded {io : RealmIO} {realm : RealmStore} {heroes masterHeroes : List Hero}
    (h : ∀ hero ∈ heroes, CoveredBy masterHeroes hero) :
    (∀ hero ∈ reloaded io realm heroes, CoveredBy masterHeroes hero) ↔
      (io.opens = true → ∀ hero ∈ realm.map RealmHelper.setHero, CoveredBy masterHeroes hero) := by
  unfold reloaded
  cases hio : io.opens
  · rw [RealmHelper.getHeroes_closed hio, if_pos rfl]
    exact iff_of_true h fun h' => nomatch h'
  · rw [RealmHelper.getHeroes_open hio, imp_iff_right rfl]
    split_ifs with hnil
    · rw [hnil]
      exact iff_of_true h fun _ h' => nomatch h'
    · rfl

theorem filterCovers_step {past : List Event} {s s' : App} {e : Event}
    (hstep : App.step P s e = some s') (hI : FilterCovers P.toSorter s.interactor) :
    FilterCovers P.toSorter s'.interactor ↔ KeepsCovered past s e := by
  rw [filterCovers_iff] at hI ⊢
  cases step_transition hstep with
  | launch => exact iff_of_true (fun _ h => absurd h List.not_mem_nil) trivial
  | request => exact covered_reloaded hI
  | noInternet => exact covered_reloaded hI
  | success _ _ =>
    refine iff_of_true (fun hero hh => ⟨List.mem_map_of_mem hh, fun role hrole => ?_⟩) trivial
    exact Or.inr ⟨hero, hh, hrole⟩
  | failure _ _ => exact iff_of_true hI trivial
  | opened _ _ | tapped _ _ | alerted _ _ | closed _ => exact iff_of_true hI trivial
  | saved _ _ =>
    refine iff_of_true (fun hero hh => ?_) trivial
    have hmem : hero ∈ s.interactor.masterHeroes := shown_subset _ _ hh
    exact ⟨List.mem_map_of_mem hmem, fun role hrole => Or.inr ⟨hero, hmem, hrole⟩⟩

/-- **The filter screen covers the list**, throughout a run, iff no refresh brings heroes out of the
    cache that the master list does not cover. -/
theorem filter_covers_iff (P : Platform) (realm : RealmStore) {es : List Event} {s : App}
    (hrun : Runs.run (App.step P) (App.launched realm) es = some s) :
    Runs.Throughout (App.step P) (App.launched realm) es
        (fun _ s => FilterCovers P.toSorter s.interactor) ↔
      Runs.EachStep (App.step P) (App.launched realm) es KeepsCovered :=
  Runs.throughout_iff (filterCovers_iff.2 fun _ h => absurd h List.not_mem_nil)
    (fun _ _ _ _ _ => filterCovers_step) hrun

theorem filter_covers_iff_antiMage :
    let es := [.fetchHeroes .ok true, .complete 0 (HeroService.answer [antiMage]) .ok,
      .fetchHeroes .ok false]
    Runs.Throughout (App.step .insertion) .installed es
        (fun _ s => FilterCovers Sorter.insertion s.interactor) ↔
      Runs.EachStep (App.step .insertion) .installed es KeepsCovered :=
  filter_covers_iff .insertion [] rfl

/-- After a launch without a connection the list comes from the cache, and the master list is
    empty: the filter screen offers only All, and All shows nothing. -/
theorem offline_launch_uncovered :
    ∃ es s, Runs.run (App.step .insertion) .installed es = some s ∧
      es = [.fetchHeroes .ok true, .complete 0 (HeroService.answer [antiMage]) .ok,
        .launch, .fetchHeroes .ok false] ∧
      s.interactor.obsHeroes = [antiMage] ∧
      s.interactor.masterHeroes = [] ∧
      getRoles Sorter.insertion s.interactor = some [allFilter.select true] ∧
      (filterHeroes [allFilter.select true] s.interactor).obsHeroes = [] ∧
      ¬ FilterCovers Sorter.insertion s.interactor := by
  refine ⟨_, _, rfl, rfl, ?_⟩
  rw [filterCovers_iff]
  unfold CoveredBy
  decide

/-! ## A refresh that fails -/

/-- A refresh from the state `s` that finds no connection, or whose request ends in an error. -/
inductive FailedRefresh (s : App) (io : RealmIO) : List Event → Prop
  | noInternet : FailedRefresh s io [.fetchHeroes io false]
  | error {result io' error} (hresult : HeroService.completion result = .error error) :
      FailedRefresh s io [.fetchHeroes io true, .complete s.issued result io']

/-- The list, the master list, the active filters and the stored heroes are as they were. -/
def Unchanged (s s' : App) : Prop :=
  s'.interactor.obsHeroes = s.interactor.obsHeroes ∧
    s'.interactor.masterHeroes = s.interactor.masterHeroes ∧
    s'.interactor.obsActiveFilters = s.interactor.obsActiveFilters ∧ s'.realm = s.realm

/-- **A refresh that fails changes nothing** iff it reads nothing from the cache that is not on the
    list. -/
theorem failed_refresh_unchanged_iff (P : Platform) {s : App} {io : RealmIO} {refresh : List Event}
    (hrefresh : FailedRefresh s io refresh) :
    ∃ s', Runs.run (App.step P) s refresh = some s' ∧
      (Unchanged s s' ↔ ReloadKeeps io s.realm s.interactor.obsHeroes) := by
  cases hrefresh with
  | noInternet =>
    refine ⟨s.fetchHeroes io false, rfl, ?_⟩
    rw [fetchHeroes_offline]
    simp only [Unchanged, reloaded_eq_self_iff, and_true]
  | @error result io' _ hresult =>
    have hissued : s.issued ∈ (s.fetchHeroes io true).requests := by
      rw [fetchHeroes_online]; simp
    refine ⟨(s.fetchHeroes io true).complete P s.issued result io', ?_, ?_⟩
    · rw [Runs.run_cons, App.step, Option.bind_some, Runs.run_cons, App.step, if_pos hissued]
      rfl
    · rw [complete_failure P hresult, fetchHeroes_online]
      simp only [Unchanged, reloaded_eq_self_iff, and_true]

/-- The list is filtered by Disabler, and the refresh that fails reads both heroes from the
    cache. -/
theorem failed_refresh_unchanged_iff_disabler :
    let es := [.fetchHeroes .ok true,
      .complete 0 (HeroService.answer [antiMage, bloodseeker]) .ok, .filterButtonTapped,
      .roleButtonTapped 0 false, .roleButtonTapped 2 true, .saveButtonTapped]
    let refresh := [.fetchHeroes .ok true, .complete 1 ⟨false, some 500, none⟩ .ok]
    ∃ s s', Runs.run (App.step .insertion) .installed es = some s ∧
      s.interactor.obsHeroes = [bloodseeker] ∧
      Runs.run (App.step .insertion) s refresh = some s' ∧
      s'.interactor.obsHeroes = [antiMage, bloodseeker] ∧
      (Unchanged s s' ↔ ReloadKeeps .ok s.realm s.interactor.obsHeroes) := by
  intro es refresh
  have hlists : ((Runs.run (App.step .insertion) .installed es).bind fun s =>
      (Runs.run (App.step .insertion) s refresh).map fun s' =>
        (s.issued, s.interactor.obsHeroes, s'.interactor.obsHeroes)) =
          some (1, [bloodseeker], [antiMage, bloodseeker]) := by decide
  obtain ⟨s, hrun, hrest⟩ := Option.bind_eq_some_iff.1 hlists
  obtain ⟨s', hrun', heq⟩ := Option.map_eq_some_iff.1 hrest
  obtain ⟨hissued, heq⟩ := Prod.mk.inj heq
  obtain ⟨hheroes, hheroes'⟩ := Prod.mk.inj heq
  have hrefresh : FailedRefresh s .ok [.fetchHeroes .ok true,
      .complete s.issued ⟨false, some 500, none⟩ .ok] := .error rfl
  rw [hissued] at hrefresh
  obtain ⟨s'', hs'', hiff⟩ := failed_refresh_unchanged_iff .insertion hrefresh
  obtain rfl := Option.some.inj (hs''.symm.trans hrun')
  exact ⟨s, _, hrun, hheroes, hrun', hheroes', hiff⟩

/-- With the filter Disabler saved, which only Bloodseeker passes, a refresh without a connection
    shows both heroes. -/
theorem failed_refresh_drops_filter :
    ∃ es s s', Runs.run (App.step .insertion) .installed es = some s ∧
      es = [.fetchHeroes .ok true,
        .complete 0 (HeroService.answer [antiMage, bloodseeker]) .ok,
        .filterButtonTapped, .roleButtonTapped 0 false, .roleButtonTapped 2 true,
        .saveButtonTapped] ∧
      fetched es = true ∧
      Runs.run (App.step .insertion) s [.fetchHeroes .ok false] = some s' ∧
      s.interactor.obsHeroes = [bloodseeker] ∧
      s'.interactor.obsHeroes = [antiMage, bloodseeker] ∧
      ¬ Unchanged s s' := by
  refine ⟨_, _, _, rfl, rfl, rfl, rfl, ?_⟩
  unfold Unchanged
  decide

end HeroQ
