/-
  Overlapping requests.

  A request carries no mark of the call that issued it, and its completion handler overwrites the
  list whatever has happened since.  So after any number of overlapping calls the list holds the
  response that arrived last (`last_arrival_shown`), which need not be that of the last call.
-/
import HeroQ.Transitions

namespace HeroQ

variable {P : Platform}

/-- The request that succeeds at an event, with its response. -/
def Event.arrival : Event → Option (ℕ × List Hero)
  | .complete request result _ =>
    (HeroService.completion result).toOption.map fun response => (request, response)
  | _ => none

/-- The requests that succeeded, in the order in which their responses arrived. -/
def arrivals (es : List Event) : List (ℕ × List Hero) := es.filterMap Event.arrival

/-- The filter screen is opened, used or closed, without Save. -/
def Event.onScreen : Event → Bool
  | .filterButtonTapped | .roleButtonTapped _ _ | .closeButtonTapped => true
  | _ => false

/-- A call of `fetchHeroes`, or an event of the filter screen. -/
def Event.isCall : Event → Bool
  | .fetchHeroes _ _ => true
  | e => e.onScreen

/-- The completion of a request, or an event of the filter screen. -/
def Event.isCompletion : Event → Bool
  | .complete _ _ _ => true
  | e => e.onScreen

theorem arrivals_snoc (es : List Event) (e : Event) :
    arrivals (es ++ [e]) = arrivals es ++ e.arrival.toList :=
  Runs.filterMap_snoc Event.arrival es e

/-- The list and the master list hold the response. -/
def Holds (response : List Hero) (i : HeroListInteractor) : Prop :=
  i.masterHeroes = response ∧ i.obsHeroes = response

/-- The list and the master list hold the response of the last call that succeeded. -/
def HoldsNewest (es : List Event) (i : HeroListInteractor) : Prop :=
  ∀ request response, (request, response) ∈ arrivals es →
    (∀ arrival ∈ arrivals es, arrival.1 ≤ request) → Holds response i

/-- The list and the master list hold the response that arrived last. -/
def HoldsLastArrival (es : List Event) (i : HeroListInteractor) : Prop :=
  ∀ request response, (arrivals es).getLast? = some (request, response) → Holds response i

theorem holdsLastArrival_step {past : List Event} {s s' : App} {e : Event}
    (hstep : App.step P s e = some s') (he : e.isCompletion = true)
    (hI : HoldsLastArrival past s.interactor) : HoldsLastArrival (past ++ [e]) s'.interactor := by
  intro request response hlast
  rw [arrivals_snoc] at hlast
  cases step_transition hstep with
  | success _ hresult =>
    simp only [Event.arrival, hresult, Except.toOption, Option.map_some, Option.toList_some,
      List.getLast?_concat, Option.some.injEq, Prod.mk.injEq] at hlast
    obtain ⟨-, rfl⟩ := hlast
    exact ⟨rfl, rfl⟩
  | failure _ hresult =>
    simp only [Event.arrival, hresult, Except.toOption, Option.map_none, Option.toList_none,
      List.append_nil] at hlast
    exact hI request response hlast
  | opened _ _ | tapped _ _ | closed _ =>
    simp only [Event.arrival, Option.toList_none, List.append_nil] at hlast
    exact hI request response hlast
  | launch => cases he
  | request | noInternet => cases he
  | alerted _ _ | saved _ _ => cases he

theorem arrivals_calls {calls : List Event} (h : ∀ e ∈ calls, e.isCall = true) :
    arrivals calls = [] := by
  rw [arrivals, List.filterMap_eq_nil_iff]
  intro e he
  have hcall := h e he
  cases e <;> first | rfl | cases hcall

/-- **The last response to arrive is shown**: after any calls of `fetchHeroes` and then any
    completions of their requests, the list and the master list hold the response that arrived
    last, if there is one. -/
theorem last_arrival_shown (P : Platform) {s s' : App} {calls completions : List Event}
    (hcalls : ∀ e ∈ calls, e.isCall = true)
    (hcompletions : ∀ e ∈ completions, e.isCompletion = true)
    (hrun : Runs.run (App.step P) s (calls ++ completions) = some s') :
    HoldsLastArrival (calls ++ completions) s'.interactor := by
  rw [Runs.run_append, Option.bind_eq_some_iff] at hrun
  obtain ⟨s₁, -, hrun⟩ := hrun
  refine Runs.run_induct_each (I := fun past s => HoldsLastArrival (calls ++ past) s.interactor)
    ?_ ?_ hcompletions hrun
  · intro request response hlast
    rw [List.append_nil, arrivals_calls hcalls] at hlast
    cases hlast
  · intro past e s s' hstep he hI
    rw [← List.append_assoc]
    exact holdsLastArrival_step hstep he hI

theorem last_arrival_shown_antiMage :
    let calls := [.fetchHeroes .ok true, .fetchHeroes .ok true]
    let completions := [.complete 1 (HeroService.answer [antiMage]) .ok,
      .complete 0 (HeroService.answer [bloodseeker]) .ok]
    ∃ s, Runs.run (App.step .insertion) .installed (calls ++ completions) = some s ∧
      HoldsLastArrival (calls ++ completions) s.interactor :=
  ⟨_, rfl, last_arrival_shown .insertion (s := .installed) (by decide) (by decide) rfl⟩

/-- The request of the second call is answered first, and the answer to the first call
    overwrites it. -/
theorem older_response_shown :
    ∃ calls completions s, Runs.run (App.step .insertion) .installed (calls ++ completions) =
        some s ∧
      calls = [.fetchHeroes .ok true, .fetchHeroes .ok true] ∧
      completions = [.complete 1 (HeroService.answer [antiMage]) .ok,
        .complete 0 (HeroService.answer [bloodseeker]) .ok] ∧
      s.requests = [] ∧
      s.interactor.masterHeroes = [bloodseeker] ∧
      ¬ HoldsNewest (calls ++ completions) s.interactor := by
  refine ⟨_, _, _, rfl, rfl, rfl, by decide, by decide, fun h => ?_⟩
  have hnew : Holds [antiMage] _ := h 1 [antiMage] (by decide) (by decide)
  exact absurd hnew.1 (by decide)

end HeroQ
