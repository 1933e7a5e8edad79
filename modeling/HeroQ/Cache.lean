/-
  The local cache over the launches of the app.

  Every delivered response is appended to the store (`realm_eq_delivered`), and nothing is ever
  replaced or deleted.  So the store holds one current copy of each hero iff no two responses share
  an id (`cache_current_iff`).
-/
import HeroQ.Transitions
import HeroQ.Lib.LastWrite

namespace HeroQ

variable {P : Platform}

/-- No write to the store fails during the event. -/
def Event.WritesSucceed : Event → Prop
  | .complete _ _ io => io = .ok
  | _ => True

/-- **The store after a step** without a failing write: what the event delivered is added. -/
theorem realm_step {s s' : App} {e : Event} (hstep : App.step P s e = some s')
    (hio : e.WritesSucceed) :
    s'.realm = s.realm ++ e.response.toList.flatten.map RLMHero.init := by
  cases step_transition hstep with
  | success _ hresult =>
    rw [response_success hresult, show _ = RealmIO.ok from hio, RealmHelper.saveHeroes_eq,
      RealmHelper.written_eq_self (RealmHelper.noWriteFails_ok _)]
    simp
  | failure _ hresult =>
    rw [response_failure hresult]
    simp
  | launch => exact (List.append_nil _).symm
  | request | noInternet => exact (List.append_nil _).symm
  | opened _ _ | tapped _ _ => exact (List.append_nil _).symm
  | alerted _ _ | saved _ _ | closed _ => exact (List.append_nil _).symm

/-- **The store after a run** without a failing write: the responses delivered, one after
    another. -/
theorem realm_eq_delivered {es : List Event} {s : App}
    (hrun : Runs.run (App.step P) .installed es = some s) (hio : ∀ e ∈ es, e.WritesSucceed) :
    s.realm = (delivered es).flatten.map RLMHero.init := by
  refine Runs.run_induct_each
    (I := fun past s => s.realm = (delivered past).flatten.map RLMHero.init) rfl ?_ hio hrun
  intro past e s s' hstep he hI
  rw [realm_step hstep he, hI, delivered_snoc, List.flatten_append, List.map_append]

/-! ## One current copy of each hero -/

/-- The hero with the id in the last response that contains it. -/
def latest (responses : List (List Hero)) (id : Int) : Option Hero :=
  LastWrite.last (fun (response : List Hero) id => response.find? fun hero => hero.id = id)
    responses id

/-- One copy of each hero, as the last response that contains its id has it. -/
def Current (responses : List (List Hero)) (heroes : List Hero) : Prop :=
  (heroes.map Hero.id).Nodup ∧ ∀ hero ∈ heroes, latest responses hero.id = some hero

/-- Of responses without a common id, every hero is the latest with its id. -/
theorem latest_of_nodup {responses : List (List Hero)}
    (hids : (responses.flatten.map Hero.id).Nodup) {hero : Hero} (hh : hero ∈ responses.flatten) :
    latest responses hero.id = some hero := by
  cases hlast : latest responses hero.id with
  | none =>
    -- some response contains the hero
    obtain ⟨response, hresponse, hh⟩ := List.mem_flatten.1 hh
    have hnone := (LastWrite.last_eq_none_iff _).1 hlast response hresponse
    simpa using List.find?_eq_none.1 hnone hero hh
  | some hero' =>
    obtain ⟨response, hresponse, hfind⟩ := LastWrite.mem_of_last _ hlast
    have hid : hero'.id = hero.id := by simpa using List.find?_some hfind
    have hh' : hero' ∈ responses.flatten :=
      List.mem_flatten.2 ⟨response, hresponse, List.mem_of_find?_eq_some hfind⟩
    rw [List.inj_on_of_nodup_map hids hh' hh hid]

/-- No id occurs in two responses. -/
def NoCommonId (responses : List (List Hero)) : Prop :=
  responses.Pairwise fun response response' =>
    List.Disjoint (response.map Hero.id) (response'.map Hero.id)

theorem nodup_ids_flatten_iff {responses : List (List Hero)}
    (hids : ∀ response ∈ responses, (response.map Hero.id).Nodup) :
    (responses.flatten.map Hero.id).Nodup ↔ NoCommonId responses := by
  rw [List.map_flatten, List.nodup_flatten, List.forall_mem_map, List.pairwise_map, NoCommonId,
    and_iff_right hids]

/-- **The cache holds one current copy of each hero** iff no id occurs in two of the responses
    delivered since the installation. -/
theorem cache_current_iff (P : Platform) {es : List Event} {s : App}
    (hrun : Runs.run (App.step P) .installed es = some s)
    (hids : ∀ response ∈ delivered es, (response.map Hero.id).Nodup)
    (hio : ∀ e ∈ es, e.WritesSucceed) :
    Current (delivered es) (RealmHelper.getHeroes .ok s.realm) ↔ NoCommonId (delivered es) := by
  rw [RealmHelper.getHeroes_open rfl, realm_eq_delivered hrun hio, RealmHelper.map_setHero_init,
    ← nodup_ids_flatten_iff hids]
  constructor
  · rintro ⟨hnd, -⟩
    exact hnd
  · intro hnd
    exact ⟨hnd, fun hero hh => latest_of_nodup hnd hh⟩

/-- Two responses with different heroes, and the second with two of them. -/
theorem cache_current_iff_antiMage :
    let es := [.fetchHeroes .ok true, .fetchHeroes .ok true,
      .complete 1 (HeroService.answer [antiMage, juggernaut]) .ok,
      .complete 0 (HeroService.answer [bloodseeker]) .ok]
    ∃ s, Runs.run (App.step .insertion) .installed es = some s ∧
      RealmHelper.getHeroes .ok s.realm = [antiMage, juggernaut, bloodseeker] ∧
      Current (delivered es) (RealmHelper.getHeroes .ok s.realm) := by
  intro es
  have hrun : Runs.run (App.step .insertion) .installed es = some _ := rfl
  refine ⟨_, rfl, by decide, (cache_current_iff .insertion hrun (by decide)
    (by simp [es, Event.WritesSucceed])).2 ?_⟩
  rw [NoCommonId, show delivered es = [[antiMage, juggernaut], [bloodseeker]] from rfl,
    List.pairwise_pair, List.disjoint_left]
  decide

/-- Two fetches of the same hero leave two copies of it in the store. -/
theorem cache_keeps_two_copies :
    ∃ es s, Runs.run (App.step .insertion) .installed es = some s ∧
      es = [.fetchHeroes .ok true, .complete 0 (HeroService.answer [antiMage]) .ok,
        .launch, .fetchHeroes .ok true, .complete 0 (HeroService.answer [antiMage]) .ok] ∧
      (∀ response ∈ delivered es, (response.map Hero.id).Nodup) ∧
      (∀ e ∈ es, e.WritesSucceed) ∧
      RealmHelper.getHeroes .ok s.realm = [antiMage, antiMage] ∧
      ¬ Current (delivered es) (RealmHelper.getHeroes .ok s.realm) := by
  refine ⟨_, _, rfl, rfl, by decide, by simp [Event.WritesSucceed], by decide, ?_⟩
  unfold Current
  decide

end HeroQ
