/-
  The loading state and the error state.

  Both are written by the completion handlers only: the loading state is set to false and never to
  true, and the error is set and never cleared.  So the loading state is truthful just as long as
  no request is issued (`loading_state_iff`), and the error state is current just as long as no
  success follows an error (`error_state_iff`).
-/
import HeroQ.Transitions

namespace HeroQ

open HeroListInteractor

variable {P : Platform}

/-! ## The loading state -/

/-- The loading state is true iff some request has not completed. -/
def LoadingTruthful (s : App) : Prop :=
  getFetchingState s.interactor = true ↔ s.requests ≠ []

/-- The steps that keep the loading state truthful: those that issue no request. -/
def IssuesNothing (_ : List Event) (_ : App) : Event → Prop
  | .fetchHeroes _ isConnectedToInternet => isConnectedToInternet = false
  | _ => True

/-- **The loading state is never true.** -/
theorem not_fetching {realm : RealmStore} {es : List Event} {s : App}
    (hrun : Runs.run (App.step P) (App.launched realm) es = some s) :
    getFetchingState s.interactor = false := by
  refine Runs.run_induct (I := fun _ s => getFetchingState s.interactor = false) rfl ?_ es s hrun
  intro past e s s' _ hstep hI
  cases step_transition hstep with
  | launch => rfl
  | success _ _ => rfl
  | failure _ _ => rfl
  | request | noInternet => exact hI
  | opened _ _ | tapped _ _ | alerted _ _ | saved _ _ | closed _ => exact hI

theorem loadingTruthful_step {past : List Event} {s s' : App} {e : Event}
    (hidle : getFetchingState s.interactor = false) (hstep : App.step P s e = some s')
    (hI : LoadingTruthful s) : LoadingTruthful s' ↔ IssuesNothing past s e := by
  have hnone : s.requests = [] := by
    by_contra hsome
    rw [hI.2 hsome] at hidle
    cases hidle
  cases step_transition hstep with
  | launch => exact iff_of_true (iff_of_false Bool.false_ne_true (not_not.2 rfl)) trivial
  | request =>
    -- a request is in flight, and the loading state is still false
    refine iff_of_false (fun h => ?_) Bool.noConfusion
    have htrue : getFetchingState s.interactor = true := h.2 (by simp)
    rw [hidle] at htrue
    cases htrue
  | noInternet => exact iff_of_true hI rfl
  | success hrequest _ => exact absurd (hnone ▸ hrequest) List.not_mem_nil
  | failure hrequest _ => exact absurd (hnone ▸ hrequest) List.not_mem_nil
  | opened _ _ | tapped _ _ | alerted _ _ | saved _ _ | closed _ => exact iff_of_true hI trivial

/-- **The loading state is truthful**, throughout a run, iff no fetch of the run finds a
    connection. -/
theorem loading_state_iff (P : Platform) (realm : RealmStore) {es : List Event} {s : App}
    (hrun : Runs.run (App.step P) (App.launched realm) es = some s) :
    Runs.Throughout (App.step P) (App.launched realm) es (fun _ s => LoadingTruthful s) ↔
      Runs.EachStep (App.step P) (App.launched realm) es IssuesNothing :=
  Runs.throughout_iff (iff_of_false Bool.false_ne_true (not_not.2 rfl))
    (fun _ _ _ _ hpast => loadingTruthful_step (not_fetching hpast)) hrun

theorem loading_state_iff_offline :
    let es := [.fetchHeroes .ok false, .launch, .fetchHeroes .ok false]
    Runs.Throughout (App.step .insertion) .installed es (fun _ s => LoadingTruthful s) ↔
      Runs.EachStep (App.step .insertion) .installed es IssuesNothing :=
  loading_state_iff .insertion [] rfl

/-- While the first request is in flight the loading state is false. -/
theorem request_without_loading :
    ∃ s, Runs.run (App.step .insertion) .installed [.fetchHeroes .ok true] = some s ∧
      s.requests = [0] ∧ getFetchingState s.interactor = false ∧ ¬ LoadingTruthful s := by
  refine ⟨_, rfl, rfl, rfl, ?_⟩
  unfold LoadingTruthful
  decide

/-! ## The error state -/

/-- Whether the request that completes at an event ends in an error. -/
def Event.failed : Event → Option Bool
  | .complete _ result _ =>
    match HeroService.completion result with
    | .ok _ => some false
    | .error _ => some true
  | _ => none

/-- Whether the request that completed last, since the launch, ended in an error. -/
def lastFailed (es : List Event) : Bool :=
  es.foldl (fun b e => match e with
    | .launch => false
    | e => e.failed.getD b) false

@[simp] theorem lastFailed_launch (es : List Event) : lastFailed (es ++ [.launch]) = false := by
  simp [lastFailed]

theorem lastFailed_snoc {e : Event} (h : e ≠ .launch) (es : List Event) :
    lastFailed (es ++ [e]) = e.failed.getD (lastFailed es) := by
  cases e <;> first | exact absurd rfl h | simp [lastFailed]

theorem lastFailed_success {request : ℕ} {result : TaskResult} {io : RealmIO}
    {response : List Hero} (h : HeroService.completion result = .ok response) (es : List Event) :
    lastFailed (es ++ [.complete request result io]) = false := by
  rw [lastFailed_snoc (by simp), Event.failed, h]
  rfl

theorem lastFailed_failure {request : ℕ} {result : TaskResult} {io : RealmIO} {error : HeroError}
    (h : HeroService.completion result = .error error) (es : List Event) :
    lastFailed (es ++ [.complete request result io]) = true := by
  rw [lastFailed_snoc (by simp), Event.failed, h]
  rfl

/-- The error state is true iff the request that completed last ended in an error. -/
def ErrorCurrent (past : List Event) (s : App) : Prop :=
  getErrorState s.interactor = true ↔ lastFailed past = true

/-- The steps that keep the error state current: no request succeeds after one that failed. -/
def NoSuccessAfterError (past : List Event) (_ : App) : Event → Prop
  | .complete _ result _ =>
    (∃ response, HeroService.completion result = .ok response) → lastFailed past = false
  | _ => True

theorem errorCurrent_step {past : List Event} {s s' : App} {e : Event}
    (hstep : App.step P s e = some s') (hI : ErrorCurrent past s) :
    ErrorCurrent (past ++ [e]) s' ↔ NoSuccessAfterError past s e := by
  unfold ErrorCurrent at hI ⊢
  cases step_transition hstep with
  | launch =>
    rw [lastFailed_launch]
    exact iff_of_true (iff_of_false Bool.false_ne_true Bool.false_ne_true) trivial
  | @success _ _ _ response _ hresult =>
    -- the error stays as it was
    rw [lastFailed_success hresult, NoSuccessAfterError, imp_iff_right ⟨response, hresult⟩]
    show (getErrorState s.interactor = true ↔ false = true) ↔ _
    rw [hI, Bool.false_eq_true, iff_false, Bool.not_eq_true]
  | failure _ hresult =>
    rw [lastFailed_failure hresult, NoSuccessAfterError]
    refine iff_of_true (iff_of_true rfl rfl) ?_
    rintro ⟨response, hok⟩
    rw [hresult] at hok
    cases hok
  | request | noInternet =>
    rw [lastFailed_snoc (by simp)]
    exact iff_of_true hI trivial
  | opened _ _ | tapped _ _ | alerted _ _ | saved _ _ | closed _ =>
    rw [lastFailed_snoc (by simp)]
    exact iff_of_true hI trivial

/-- **The error state is current**, throughout a run, iff no request succeeds as the next one to
    complete after a request that ended in an error. -/
theorem error_state_iff (P : Platform) (realm : RealmStore) {es : List Event} {s : App}
    (hrun : Runs.run (App.step P) (App.launched realm) es = some s) :
    Runs.Throughout (App.step P) (App.launched realm) es ErrorCurrent ↔
      Runs.EachStep (App.step P) (App.launched realm) es NoSuccessAfterError :=
  Runs.throughout_iff (iff_of_false Bool.false_ne_true Bool.false_ne_true)
    (fun _ _ _ _ _ => errorCurrent_step) hrun

theorem error_state_iff_apiError :
    let es := [.fetchHeroes .ok true, .complete 0 ⟨true, none, none⟩ .ok]
    Runs.Throughout (App.step .insertion) .installed es ErrorCurrent ↔
      Runs.EachStep (App.step .insertion) .installed es NoSuccessAfterError :=
  error_state_iff .insertion [] rfl

/-- The first request ends in an error and the second one succeeds: the error stays. -/
theorem error_outlives_success :
    ∃ es s, Runs.run (App.step .insertion) .installed es = some s ∧
      es = [.fetchHeroes .ok true, .complete 0 ⟨true, none, none⟩ .ok,
        .fetchHeroes .ok true, .complete 1 (HeroService.answer [antiMage]) .ok] ∧
      s.interactor.obsHeroes = [antiMage] ∧ lastFailed es = false ∧
      getErrorState s.interactor = true ∧ ¬ ErrorCurrent es s := by
  refine ⟨_, _, rfl, rfl, rfl, rfl, rfl, ?_⟩
  unfold ErrorCurrent
  decide

end HeroQ
