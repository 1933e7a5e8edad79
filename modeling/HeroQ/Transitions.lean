/-
  What one event does, and the history of a run.

  * `Transition`: one constructor for each way an event can go, with its guards and the whole state
    after it; `step_transition` reads it off `step`, so that no later proof unfolds `step`;
  * `reloaded`: what the reload of the cache makes of the list, and `ReloadKeeps`, when it leaves
    the list as it is;
  * `delivered`, `fetched`: the responses delivered so far, and whether one came since the launch.
-/
import HeroQ.App
import HeroQ.Display

namespace HeroQ

open HeroListInteractor FilterInteractor

/-! ## The reload of the cache -/

/-- The list after `_getLocalHeroes`. -/
def reloaded (io : RealmIO) (realm : RealmStore) (heroes : List Hero) : List Hero :=
  if RealmHelper.getHeroes io realm = [] then heroes else RealmHelper.getHeroes io realm

theorem getLocalHeroes_eq (io : RealmIO) (realm : RealmStore) (i : HeroListInteractor) :
    getLocalHeroes io realm i = { i with obsHeroes := reloaded io realm i.obsHeroes } := by
  rw [getLocalHeroes, reloaded]
  split_ifs with hpos hnil hnil
  · exact absurd (List.length_pos_iff.1 hpos) (not_not.2 hnil)
  · rfl
  · rfl
  · exact absurd (List.length_pos_iff.2 hnil) hpos

/-- The store cannot be opened, is empty, or holds just the heroes of the list. -/
def ReloadKeeps (io : RealmIO) (realm : RealmStore) (heroes : List Hero) : Prop :=
  io.opens = false ∨ realm = [] ∨ realm.map RealmHelper.setHero = heroes

/-- **The reload leaves the list as it is** iff there is nothing to read or nothing new. -/
theorem reloaded_eq_self_iff {io : RealmIO} {realm : RealmStore} {heroes : List Hero} :
    reloaded io realm heroes = heroes ↔ ReloadKeeps io realm heroes := by
  unfold reloaded ReloadKeeps
  cases hio : io.opens
  · simp [RealmHelper.getHeroes_closed hio]
  · rw [RealmHelper.getHeroes_open hio]
    cases realm <;> simp

/-! ## What the handlers do -/

theorem fetchHeroes_online (io : RealmIO) (s : App) :
    s.fetchHeroes io true =
      { s with
        interactor :=
          { s.interactor with obsHeroes := reloaded io s.realm s.interactor.obsHeroes }
        requests := s.requests ++ [s.issued]
        issued := s.issued + 1 } := by
  simp only [App.fetchHeroes, HeroListInteractor.fetchHeroes, getLocalHeroes_eq, if_true]

theorem fetchHeroes_offline (io : RealmIO) (s : App) :
    s.fetchHeroes io false =
      { s with
        interactor :=
          { s.interactor with obsHeroes := reloaded io s.realm s.interactor.obsHeroes } } := by
  simp only [App.fetchHeroes, HeroListInteractor.fetchHeroes, getLocalHeroes_eq,
    Bool.false_eq_true, if_false]

/-- Save with nothing selected only shows the alert. -/
theorem saveButtonTapped_alert {roles : List RoleFilter} (h : getSelectedFilters roles = [])
    (s : App) : s.saveButtonTapped roles = s := by
  rw [App.saveButtonTapped, FilterViewController.saveButtonTapped, h]
  rfl

/-- Save with something selected shows what the filters select, and leaves the screen. -/
theorem saveButtonTapped_filters {roles : List RoleFilter} (h : getSelectedFilters roles ≠ [])
    (s : App) :
    s.saveButtonTapped roles =
      { s with
        interactor :=
          { s.interactor with
            obsHeroes := shown (getSelectedFilters roles) s.interactor.masterHeroes
            obsActiveFilters := getSelectedFilters roles }
        screen := none } := by
  rw [App.saveButtonTapped, FilterViewController.saveButtonTapped,
    if_pos (List.length_pos_iff.2 h)]
  simp only [filterHeroes_eq h]

variable (P : Platform)

theorem complete_success {result : TaskResult} {response : List Hero}
    (h : HeroService.completion result = .ok response) (request : ℕ) (io : RealmIO) (s : App) :
    s.complete P request result io =
      { s with
        interactor :=
          { s.interactor with
            isFetching := false
            obsHeroes := response
            masterHeroes := response }
        realm := RealmHelper.saveHeroes io response s.realm
        requests := s.requests.erase request } := by
  rw [App.complete, h]
  rfl

theorem complete_failure {result : TaskResult} {error : HeroError}
    (h : HeroService.completion result = .error error) (request : ℕ) (io : RealmIO) (s : App) :
    s.complete P request result io =
      { s with
        interactor :=
          { s.interactor with
            isFetching := false
            error := some (P.localizedDescription error) }
        requests := s.requests.erase request } := by
  rw [App.complete, h]
  rfl

/-! ## Transitions -/

/-- What the events do, from the state `s`. -/
inductive Transition (s : App) : Event → App → Prop
  | launch : Transition s .launch (App.launched s.realm)
  | request {io} : Transition s (.fetchHeroes io true)
      { s with
        interactor :=
          { s.interactor with obsHeroes := reloaded io s.realm s.interactor.obsHeroes }
        requests := s.requests ++ [s.issued]
        issued := s.issued + 1 }
  | noInternet {io} : Transition s (.fetchHeroes io false)
      { s with
        interactor :=
          { s.interactor with obsHeroes := reloaded io s.realm s.interactor.obsHeroes } }
  | success {request result io response} (hrequest : request ∈ s.requests)
      (hresult : HeroService.completion result = .ok response) :
      Transition s (.complete request result io)
        { s with
          interactor :=
            { s.interactor with
              isFetching := false
              obsHeroes := response
              masterHeroes := response }
          realm := RealmHelper.saveHeroes io response s.realm
          requests := s.requests.erase request }
  | failure {request result io error} (hrequest : request ∈ s.requests)
      (hresult : HeroService.completion result = .error error) :
      Transition s (.complete request result io)
        { s with
          interactor :=
            { s.interactor with
              isFetching := false
              error := some (P.localizedDescription error) }
          requests := s.requests.erase request }
  | opened {roles} (hscreen : s.screen = none)
      (hroles : getRoles P.toSorter s.interactor = some roles) :
      Transition s .filterButtonTapped { s with screen := some roles }
  | tapped {roles roles'} {row : ℕ} {isSelected} (hscreen : s.screen = some roles)
      (hroles : didRoleButtonTapped roles row isSelected = some roles') :
      Transition s (.roleButtonTapped row isSelected) { s with screen := some roles' }
  | alerted {roles} (hscreen : s.screen = some roles) (hnone : getSelectedFilters roles = []) :
      Transition s .saveButtonTapped s
  | saved {roles} (hscreen : s.screen = some roles) (hsome : getSelectedFilters roles ≠ []) :
      Transition s .saveButtonTapped
        { s with
          interactor :=
            { s.interactor with
              obsHeroes := shown (getSelectedFilters roles) s.interactor.masterHeroes
              obsActiveFilters := getSelectedFilters roles }
          screen := none }
  | closed {roles} (hscreen : s.screen = some roles) :
      Transition s .closeButtonTapped { s with screen := none }

variable {P}

/-- **Every step is a transition.** -/
theorem step_transition {s s' : App} {e : Event} (h : App.step P s e = some s') :
    Transition P s e s' := by
  cases e with
  | launch =>
    cases h
    exact .launch
  | fetchHeroes io isConnectedToInternet =>
    cases h
    cases isConnectedToInternet
    · rw [fetchHeroes_offline]
      exact .noInternet
    · rw [fetchHeroes_online]
      exact .request
  | complete request result io =>
    rw [App.step] at h
    split_ifs at h with hrequest
    cases h
    cases hresult : HeroService.completion result with
    | ok response =>
      rw [complete_success P hresult]
      exact .success hrequest hresult
    | error error =>
      rw [complete_failure P hresult]
      exact .failure hrequest hresult
  | filterButtonTapped =>
    rw [App.step] at h
    split at h
    next hscreen =>
      obtain ⟨roles, hroles, rfl⟩ := Option.map_eq_some_iff.1 h
      exact .opened hscreen hroles
    next => cases h
  | roleButtonTapped row isSelected =>
    rw [App.step] at h
    split at h
    next roles hscreen =>
      obtain ⟨roles', hroles, rfl⟩ := Option.map_eq_some_iff.1 h
      exact .tapped hscreen hroles
    next => cases h
  | saveButtonTapped =>
    obtain ⟨roles, hscreen, rfl⟩ := Option.map_eq_some_iff.1 h
    by_cases hnone : getSelectedFilters roles = []
    · rw [saveButtonTapped_alert hnone]
      exact .alerted hscreen hnone
    · rw [saveButtonTapped_filters hnone]
      exact .saved hscreen hnone
  | closeButtonTapped =>
    obtain ⟨roles, hscreen, rfl⟩ := Option.map_eq_some_iff.1 h
    exact .closed hscreen

/-! ## Histories -/

/-- The response that an event delivers. -/
def Event.response : Event → Option (List Hero)
  | .complete _ result _ => (HeroService.completion result).toOption
  | _ => none

/-- The responses delivered so far, in order. -/
def delivered (es : List Event) : List (List Hero) := es.filterMap Event.response

/-- Whether a fetch has succeeded since the last launch. -/
def fetched (es : List Event) : Bool :=
  es.foldl (fun b e => match e with
    | .launch => false
    | e => b || e.response.isSome) false

theorem delivered_snoc (es : List Event) (e : Event) :
    delivered (es ++ [e]) = delivered es ++ e.response.toList :=
  Runs.filterMap_snoc Event.response es e

theorem response_success {request : ℕ} {result : TaskResult} {io : RealmIO} {response : List Hero}
    (h : HeroService.completion result = .ok response) :
    (Event.complete request result io).response = some response := by
  rw [Event.response, h]; rfl

theorem response_failure {request : ℕ} {result : TaskResult} {io : RealmIO} {error : HeroError}
    (h : HeroService.completion result = .error error) :
    (Event.complete request result io).response = none := by
  rw [Event.response, h]; rfl

/-- A response is shown when it is delivered. -/
theorem obsHeroes_of_response {s s' : App} {e : Event} {response : List Hero}
    (hstep : App.step P s e = some s') (h : e.response = some response) :
    s'.interactor.obsHeroes = response := by
  cases step_transition hstep with
  | success _ hresult =>
    rw [response_success hresult] at h
    exact Option.some.inj h
  | failure _ hresult =>
    rw [response_failure hresult] at h
    cases h
  | launch | request | noInternet => cases h
  | opened _ _ | tapped _ _ | alerted _ _ | saved _ _ | closed _ => cases h

/-- Every response delivered in a run was shown. -/
theorem delivered_shown {s₀ s : App} {es : List Event} {response : List Hero}
    (hrun : Runs.run (App.step P) s₀ es = some s) (h : response ∈ delivered es) :
    ∃ past s', past <+: es ∧ Runs.run (App.step P) s₀ past = some s' ∧
      s'.interactor.obsHeroes = response := by
  obtain ⟨e, he, hresponse⟩ := List.mem_filterMap.1 h
  obtain ⟨before, after, rfl⟩ := List.append_of_mem he
  have hprefix : before ++ [e] <+: before ++ e :: after := ⟨after, by simp⟩
  obtain ⟨s', hs'⟩ := Runs.run_prefix (App.step P) hrun hprefix
  obtain ⟨s₁, -, hstep⟩ := (Runs.run_snoc (App.step P)).1 hs'
  exact ⟨before ++ [e], s', hprefix, hs', obsHeroes_of_response hstep hresponse⟩

@[simp] theorem fetched_launch (es : List Event) : fetched (es ++ [.launch]) = false := by
  simp [fetched]

theorem fetched_snoc {e : Event} (h : e ≠ .launch) (es : List Event) :
    fetched (es ++ [e]) = (fetched es || e.response.isSome) := by
  cases e <;> first | exact absurd rfl h | simp [fetched]

/-- An event that delivers nothing leaves it at that. -/
theorem fetched_silent {e : Event} (h : e ≠ .launch) (hr : e.response = none) (es : List Event) :
    fetched (es ++ [e]) = fetched es := by
  rw [fetched_snoc h, hr, Option.isSome_none, Bool.or_false]

theorem fetched_success {request : ℕ} {result : TaskResult} {io : RealmIO} {response : List Hero}
    (h : HeroService.completion result = .ok response) (es : List Event) :
    fetched (es ++ [.complete request result io]) = true := by
  rw [fetched_snoc (by simp), response_success h, Option.isSome_some, Bool.or_true]

end HeroQ
