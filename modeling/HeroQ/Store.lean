/-
  The store over the launches of the app, with writes that may fail.

  `Event.stored` is what an event writes: the heroes of its response up to the first write that
  throws.  The store is what was there at first, followed by what every event wrote
  (`store_append_only`), and that is what the list shows when the app is launched again without a
  connection (`offline_relaunch`).
-/
import HeroQ.Transitions

namespace HeroQ

variable {P : Platform}

/-- The heroes that an event adds to the store. -/
def Event.stored : Event → List Hero
  | .complete _ result io =>
    match HeroService.completion result with
    | .ok response => RealmHelper.written io response
    | .error _ => []
  | _ => []

theorem stored_success {request : ℕ} {result : TaskResult} {io : RealmIO} {response : List Hero}
    (h : HeroService.completion result = .ok response) :
    (Event.complete request result io).stored = RealmHelper.written io response := by
  rw [Event.stored, h]

theorem stored_failure {request : ℕ} {result : TaskResult} {io : RealmIO} {error : HeroError}
    (h : HeroService.completion result = .error error) :
    (Event.complete request result io).stored = [] := by
  rw [Event.stored, h]

/-- An event stores an initial part of what it delivers. -/
theorem stored_prefix (e : Event) : e.stored <+: e.response.toList.flatten := by
  cases e with
  | complete request result io =>
    cases hresult : HeroService.completion result with
    | ok response =>
      rw [stored_success hresult, response_success hresult]
      simpa using RealmHelper.written_prefix io response
    | error error =>
      rw [stored_failure hresult]
      exact List.nil_prefix
  | launch | fetchHeroes _ _ | filterButtonTapped => exact List.nil_prefix
  | roleButtonTapped _ _ | saveButtonTapped | closeButtonTapped => exact List.nil_prefix

/-- **The store after a step**: what the event writes is added at its end. -/
theorem realm_step_stored {s s' : App} {e : Event} (hstep : App.step P s e = some s') :
    s'.realm = s.realm ++ e.stored.map RLMHero.init := by
  cases step_transition hstep with
  | success _ hresult => rw [stored_success hresult, RealmHelper.saveHeroes_eq]
  | failure _ hresult => rw [stored_failure hresult]; exact (List.append_nil _).symm
  | launch => exact (List.append_nil _).symm
  | request | noInternet => exact (List.append_nil _).symm
  | opened _ _ | tapped _ _ => exact (List.append_nil _).symm
  | alerted _ _ | saved _ _ | closed _ => exact (List.append_nil _).symm

theorem realm_run_stored {s s' : App} {es : List Event}
    (hrun : Runs.run (App.step P) s es = some s') :
    s'.realm = s.realm ++ (es.flatMap Event.stored).map RLMHero.init := by
  refine Runs.run_induct
    (I := fun es s' => s'.realm = s.realm ++ (es.flatMap Event.stored).map RLMHero.init)
    (by simp) ?_ es s' hrun
  intro past e s₁ s₂ _ hstep hI
  rw [realm_step_stored hstep, hI, List.flatMap_append, List.flatMap_singleton, List.map_append,
    List.append_assoc]

/-- **The store is append-only**, whatever writes fail and however often the app is launched: it is
    what it was at first, then the heroes that each event wrote, which are an initial part of those
    that it delivered; and at each time of a run it is an initial part of what it is at the end. -/
theorem store_append_only {realm : RealmStore} {es : List Event} {s : App}
    (hrun : Runs.run (App.step P) (App.launched realm) es = some s) :
    s.realm = realm ++ (es.flatMap Event.stored).map RLMHero.init ∧
      (∀ e ∈ es, e.stored <+: e.response.toList.flatten) ∧
      Runs.Throughout (App.step P) (App.launched realm) es fun _ s' => s'.realm <+: s.realm := by
  refine ⟨realm_run_stored hrun, fun e _ => stored_prefix e, ?_⟩
  rintro past s' ⟨rest, rfl⟩ hpast
  rw [Runs.run_append, hpast] at hrun
  exact ⟨_, (realm_run_stored hrun).symm⟩

theorem store_append_only_antiMage :
    let es := [.fetchHeroes .ok true,
      .complete 0 (HeroService.answer [antiMage, bloodseeker]) ⟨true, some 1⟩,
      .launch, .fetchHeroes .ok true, .complete 0 (HeroService.answer [juggernaut]) .ok]
    ∃ s, Runs.run (App.step .insertion) .installed es = some s ∧
      s.realm = (es.flatMap Event.stored).map RLMHero.init ∧
      es.flatMap Event.stored = [antiMage, juggernaut] := by
  intro es
  have hrun : Runs.run (App.step .insertion) .installed es = some _ := rfl
  exact ⟨_, rfl, (store_append_only hrun).1, by decide⟩

/-- **A launch without a connection** shows the heroes that were stored when the first of the runs
    began, and then those that each response since has stored, with all repetitions; no master list
    and no filters are left. -/
theorem offline_relaunch (P : Platform) {realm : RealmStore} {es : List Event} {s : App}
    (hrun : Runs.run (App.step P) (App.launched realm) es = some s) {io : RealmIO}
    (hio : io.opens = true) :
    ∃ s', Runs.run (App.step P) s [.launch, .fetchHeroes io false] = some s' ∧
      s'.interactor =
        { obsHeroes := realm.map RealmHelper.setHero ++ es.flatMap Event.stored } ∧
      s'.realm = s.realm := by
  refine ⟨(App.launched s.realm).fetchHeroes io false, rfl, ?_, ?_⟩
  · rw [fetchHeroes_offline]
    -- a list that starts out empty becomes what is stored, be it empty or not
    have hreload : reloaded io s.realm [] = s.realm.map RealmHelper.setHero := by
      rw [reloaded, RealmHelper.getHeroes_open hio]
      split_ifs with hnil
      · exact hnil.symm
      · rfl
    simp only [App.launched, hreload]
    rw [realm_run_stored hrun, List.map_append, App.launched, RealmHelper.map_setHero_init]
  · rw [fetchHeroes_offline, App.launched]

theorem offline_relaunch_antiMage :
    let es := [.fetchHeroes .ok true,
      .complete 0 (HeroService.answer [antiMage, bloodseeker]) ⟨true, some 1⟩,
      .fetchHeroes .ok true, .complete 1 (HeroService.answer [antiMage]) .ok]
    ∃ s s', Runs.run (App.step .insertion) .installed es = some s ∧
      Runs.run (App.step .insertion) s [.launch, .fetchHeroes .ok false] = some s' ∧
      s'.interactor = { obsHeroes := [antiMage, antiMage] } := by
  intro es
  have hrun : Runs.run (App.step .insertion) .installed es = some _ := rfl
  have hio : RealmIO.ok.opens = true := rfl
  obtain ⟨s', hs', hlist, -⟩ := offline_relaunch .insertion hrun hio
  exact ⟨_, s', rfl, hs', hlist⟩

end HeroQ
