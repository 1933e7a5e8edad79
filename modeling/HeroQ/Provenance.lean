/-
  Where the heroes come from.

  `FromResponses` is the invariant of the runs from the installation: the heroes on the list, in the
  master list and in the store are heroes of the responses delivered so far, whatever the store
  throws.  `no_hero_invented` reads it for the similar heroes and the cache too.
-/
import HeroQ.Transitions
import HeroQ.Similar

namespace HeroQ

open HeroListInteractor

variable {P : Platform}

/-- The hero is in one of the responses delivered so far. -/
def Delivered (es : List Event) (hero : Hero) : Prop := ∃ response ∈ delivered es, hero ∈ response

/-- Every hero of the app, and every stored one, is that of a response. -/
structure FromResponses (es : List Event) (s : App) : Prop where
  obsHeroes : ∀ hero ∈ s.interactor.obsHeroes, Delivered es hero
  masterHeroes : ∀ hero ∈ s.interactor.masterHeroes, Delivered es hero
  realm : ∀ rlmHero ∈ s.realm, ∃ hero, Delivered es hero ∧ rlmHero = RLMHero.init hero

theorem Delivered.snoc {past : List Event} {hero : Hero} (h : Delivered past hero) (e : Event) :
    Delivered (past ++ [e]) hero := by
  obtain ⟨response, hresponse, hh⟩ := h
  refine ⟨response, ?_, hh⟩
  rw [delivered_snoc]
  exact List.mem_append_left _ hresponse

namespace FromResponses
variable {past : List Event} {s : App} (h : FromResponses past s)
include h

theorem snoc (e : Event) : FromResponses (past ++ [e]) s where
  obsHeroes hero hh := (h.obsHeroes hero hh).snoc e
  masterHeroes hero hh := (h.masterHeroes hero hh).snoc e
  realm rlmHero hr := by
    obtain ⟨hero, hd, heq⟩ := h.realm rlmHero hr
    exact ⟨hero, hd.snoc e, heq⟩

/-- What the cache returns was delivered. -/
theorem getHeroes (io : RealmIO) :
    ∀ hero ∈ RealmHelper.getHeroes io s.realm, Delivered past hero := by
  intro hero hh
  obtain ⟨rlmHero, hr, rfl⟩ := List.mem_map.1 (RealmHelper.getHeroes_subset io s.realm hh)
  obtain ⟨hero, hd, rfl⟩ := h.realm rlmHero hr
  rwa [RealmHelper.setHero_init]

theorem reloaded (io : RealmIO) :
    ∀ hero ∈ reloaded io s.realm s.interactor.obsHeroes, Delivered past hero := by
  unfold HeroQ.reloaded
  split_ifs
  exacts [h.obsHeroes, h.getHeroes io]

/-- The similar heroes are on the list. -/
theorem getSimilarHeroes (S : Sorter) (hero : Hero) :
    ∀ similar ∈ getSimilarHeroes S s.interactor hero, Delivered past similar :=
  fun similar hs => h.obsHeroes similar (getSimilarHeroes_subset S s.interactor hero hs)

end FromResponses

theorem fromResponses_step {past : List Event} {s s' : App} {e : Event}
    (hstep : App.step P s e = some s') (hI : FromResponses past s) :
    FromResponses (past ++ [e]) s' := by
  have hI' := hI.snoc e
  cases step_transition hstep with
  | launch =>
    exact ⟨fun _ h => absurd h List.not_mem_nil, fun _ h => absurd h List.not_mem_nil, hI'.realm⟩
  | request => exact ⟨hI'.reloaded _, hI'.masterHeroes, hI'.realm⟩
  | noInternet => exact ⟨hI'.reloaded _, hI'.masterHeroes, hI'.realm⟩
  | @success request result io response _ hresult =>
    have hnew : ∀ hero ∈ response, Delivered (past ++ [.complete request result io]) hero := by
      intro hero hh
      refine ⟨response, ?_, hh⟩
      rw [delivered_snoc, response_success hresult]
      exact List.mem_append_right _ (List.mem_singleton_self _)
    refine ⟨hnew, hnew, fun rlmHero hr => ?_⟩
    -- a write that throws leaves an initial part of the response in the store
    rw [RealmHelper.saveHeroes_eq, List.mem_append, List.mem_map] at hr
    rcases hr with hr | ⟨hero, hh, rfl⟩
    · exact hI'.realm rlmHero hr
    · exact ⟨hero, hnew hero ((RealmHelper.written_prefix io response).subset hh), rfl⟩
  | failure _ _ => exact ⟨hI'.obsHeroes, hI'.masterHeroes, hI'.realm⟩
  | opened _ _ | tapped _ _ => exact ⟨hI'.obsHeroes, hI'.masterHeroes, hI'.realm⟩
  | alerted _ _ | closed _ => exact ⟨hI'.obsHeroes, hI'.masterHeroes, hI'.realm⟩
  | saved _ _ =>
    exact ⟨fun hero hh => hI'.masterHeroes hero (shown_subset _ _ hh), hI'.masterHeroes, hI'.realm⟩

/-- **Heroes come from responses** in every run from the installation. -/
theorem fromResponses {es : List Event} {s : App}
    (hrun : Runs.run (App.step P) .installed es = some s) : FromResponses es s := by
  refine Runs.run_induct ⟨?_, ?_, ?_⟩ (fun _ _ _ _ _ => fromResponses_step) es s hrun
  all_goals exact fun _ h => absurd h List.not_mem_nil

/-- **No hero is invented or altered**: every hero on the list, in the master list, in the store
    (as it is stored and as it is read) and among the similar heroes is a hero of a response
    delivered before. -/
theorem no_hero_invented (P : Platform) {es : List Event} {s : App}
    (hrun : Runs.run (App.step P) .installed es = some s) :
    (∀ hero ∈ s.interactor.obsHeroes, Delivered es hero) ∧
      (∀ hero ∈ s.interactor.masterHeroes, Delivered es hero) ∧
      (∀ rlmHero ∈ s.realm, ∃ hero, Delivered es hero ∧ rlmHero = RLMHero.init hero) ∧
      (∀ io, ∀ hero ∈ RealmHelper.getHeroes io s.realm, Delivered es hero) ∧
      ∀ hero, ∀ similar ∈ getSimilarHeroes P.toSorter s.interactor hero, Delivered es similar := by
  have h := fromResponses hrun
  exact ⟨h.obsHeroes, h.masterHeroes, h.realm, h.getHeroes, h.getSimilarHeroes P.toSorter⟩

theorem no_hero_invented_offline :
    let es := [.fetchHeroes .ok true,
      .complete 0 (HeroService.answer [antiMage, bloodseeker]) ⟨true, some 1⟩,
      .launch, .fetchHeroes .ok false]
    ∃ s, Runs.run (App.step .insertion) .installed es = some s ∧
      s.interactor.obsHeroes = [antiMage] ∧
      ∀ hero ∈ s.interactor.obsHeroes, Delivered es hero :=
  ⟨_, rfl, by decide, (no_hero_invented .insertion rfl).1⟩

end HeroQ
