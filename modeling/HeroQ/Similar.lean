/-
  The similar heroes.

  `getSimilarHeroes` takes the first three of the eligible heroes, sorted by the statistic of the
  hero's attribute (`getSimilarHeroes_eq`).  It looks for them on the list, which an active filter
  has narrowed; but a filter that admits the hero admits every eligible one, so nothing is lost
  (`similar_heroes_filtered`).
-/
import HeroQ.Display
import HeroQ.Lib.Sorter

namespace HeroQ

open HeroListInteractor

/-- `other` may be suggested for `hero`: it has another id, the same attribute and all of the hero's
    roles. -/
def isEligible (hero other : Hero) : Bool :=
  (decide (other.id ≠ hero.id) && decide (other.primaryAttr = hero.primaryAttr)) &&
    hero.roles.all fun role => other.roles.contains role

/-- The heroes that pass the eligibility filters. -/
def eligible (heroes : List Hero) (hero : Hero) : List Hero := heroes.filter (isEligible hero)

/-- The statistic that the suggestions for `hero` are sorted by. -/
def similarityKey (hero other : Hero) : Int :=
  if hero.primaryAttr = "agi" then other.moveSpeed
  else if hero.primaryAttr = "str" then other.baseAttackMax
  else other.baseMana

/-- Filters one after another are one filter. -/
theorem foldl_filter_roles (roles : List String) : ∀ heroes : List Hero,
    roles.foldl (fun heroes role => heroes.filter fun h => h.roles.contains role) heroes =
      heroes.filter fun h => roles.all fun role => h.roles.contains role := by
  induction roles with
  | nil => intro heroes; simp
  | cons role roles ih =>
    intro heroes
    rw [List.foldl_cons, ih, List.filter_filter]
    refine List.filter_congr fun h _ => ?_
    rw [List.all_cons, Bool.and_comm]

/-- **The similar heroes** are the first three eligible ones, by decreasing statistic. -/
theorem getSimilarHeroes_eq (S : Sorter) (i : HeroListInteractor) (hero : Hero) :
    getSimilarHeroes S i hero =
      (S.sort (Sorter.byKey (· > ·) (similarityKey hero)) (eligible i.obsHeroes hero)).take 3 := by
  have hsort : ∀ l : List Hero,
      (if hero.primaryAttr = "agi" then S.sort (Sorter.byKey (· > ·) Hero.moveSpeed) l
        else if hero.primaryAttr = "str" then
          S.sort (Sorter.byKey (· > ·) Hero.baseAttackMax) l
        else S.sort (Sorter.byKey (· > ·) Hero.baseMana) l) =
      S.sort (Sorter.byKey (· > ·) (similarityKey hero)) l := by
    intro l
    unfold similarityKey
    split_ifs <;> rfl
  have htake : ∀ l : List Hero, (if l.length > 3 then l.take 3 else l) = l.take 3 := by
    intro l
    split_ifs with h
    · rfl
    · exact (List.take_of_length_le (not_lt.1 h)).symm
  simp only [getSimilarHeroes, foldl_filter_roles, hsort, htake, List.filter_filter]
  congr 2
  unfold eligible isEligible
  refine List.filter_congr fun h _ => ?_
  rw [Bool.and_comm]

/-- The similar heroes are on the list. -/
theorem getSimilarHeroes_subset (S : Sorter) (i : HeroListInteractor) (hero : Hero) :
    getSimilarHeroes S i hero ⊆ i.obsHeroes := by
  intro similar h
  rw [getSimilarHeroes_eq] at h
  exact (List.mem_filter.1 (S.mem_sort.1 (List.mem_of_mem_take h))).1

/-- **The similar heroes are three best eligible ones**: as many as there are up to three, in
    decreasing order of the statistic, and none of the other eligible heroes has a greater one. -/
theorem similar_heroes_top (S : Sorter) (i : HeroListInteractor) (hero : Hero) :
    let similar := getSimilarHeroes S i hero
    let candidates := eligible i.obsHeroes hero
    similar.length = min 3 candidates.length ∧
      (similar.Pairwise fun a b => similarityKey hero b ≤ similarityKey hero a) ∧
      ∃ rest, (similar ++ rest).Perm candidates ∧
        ∀ a ∈ similar, ∀ b ∈ rest, similarityKey hero b ≤ similarityKey hero a := by
  intro similar candidates
  have hsimilar : similar =
      (S.sort (Sorter.byKey (· > ·) (similarityKey hero)) candidates).take 3 :=
    getSimilarHeroes_eq S i hero
  refine ⟨?_, ?_, ?_⟩
  · rw [hsimilar, List.length_take, S.length_sort]
  · rw [hsimilar]
    refine ((S.sort_ordered (· > ·) (similarityKey hero) candidates).sublist
      (List.take_sublist 3 _)).imp fun {a b} h => ?_
    exact not_lt.1 h
  · obtain ⟨rest, hperm, hrest⟩ := S.sort_take (· > ·) (similarityKey hero) 3 candidates
    refine ⟨rest, hsimilar ▸ hperm, fun a ha b hb => ?_⟩
    exact not_lt.1 (hrest a (hsimilar ▸ ha) b hb)

/-! ## Under a filter -/

/-- A filter that admits a hero admits the heroes eligible for it. -/
theorem admits_of_isEligible {f : RoleFilter} {hero other : Hero} (hf : admits f hero = true)
    (h : isEligible hero other = true) : admits f other = true := by
  have hroles : (hero.roles.all fun role => other.roles.contains role) = true :=
    (Bool.and_eq_true_iff.1 h).2
  exact List.all_eq_true.1 hroles f.name (admits_iff.1 hf)

/-- **The eligible heroes of a narrowed list** are those of the whole list, up to order. -/
theorem eligible_shown {filters : List RoleFilter} (hfilters : Narrowing filters)
    {masterHeroes : List Hero} (hids : (masterHeroes.map Hero.id).Nodup) {hero : Hero}
    (hhero : hero ∈ shown filters masterHeroes) :
    (eligible (shown filters masterHeroes) hero).Perm (eligible masterHeroes hero) := by
  rw [shown_narrowing hfilters] at hhero ⊢
  obtain ⟨-, m, hm, hadm⟩ := FirstOcc.mem_of_mem_anyOf Hero.id hhero
  obtain ⟨f, hf, rfl⟩ := List.mem_map.1 hm
  refine ((FirstOcc.anyOf_perm (filters.map admits) hids).filter _).trans (List.Perm.of_eq ?_)
  rw [List.filter_filter]
  refine List.filter_congr fun other _ => ?_
  -- an eligible hero passes the test that the hero passes
  cases h : isEligible hero other with
  | false => rfl
  | true =>
    rw [Bool.true_and, List.any_eq_true]
    exact ⟨admits f, hm, admits_of_isEligible hadm h⟩

/-- **Suggestions do not depend on the active filter**: the eligible heroes are the same up to
    order, so the suggestions have the same statistics, and are the same if the statistics of the
    eligible heroes are distinct. -/
theorem similar_heroes_filtered (S : Sorter) (i : HeroListInteractor)
    (hids : (i.masterHeroes.map Hero.id).Nodup) {filters : List RoleFilter}
    (hfilters : Narrowing filters) {hero : Hero}
    (hhero : hero ∈ (filterHeroes filters i).obsHeroes) :
    let filtered := filterHeroes filters i
    let whole := { i with obsHeroes := i.masterHeroes }
    (eligible filtered.obsHeroes hero).Perm (eligible whole.obsHeroes hero) ∧
      (getSimilarHeroes S filtered hero).map (similarityKey hero) =
        (getSimilarHeroes S whole hero).map (similarityKey hero) ∧
      (((eligible whole.obsHeroes hero).map (similarityKey hero)).Nodup →
        getSimilarHeroes S filtered hero = getSimilarHeroes S whole hero) := by
  intro filtered whole
  have hperm : (eligible filtered.obsHeroes hero).Perm (eligible whole.obsHeroes hero) := by
    simp only [filtered, filterHeroes_eq hfilters.1] at hhero ⊢
    exact eligible_shown hfilters hids hhero
  refine ⟨hperm, ?_, fun hkeys => ?_⟩
  · rw [getSimilarHeroes_eq, getSimilarHeroes_eq, List.map_take, List.map_take,
      S.map_sort_of_perm (· > ·) (similarityKey hero) hperm]
  · rw [getSimilarHeroes_eq, getSimilarHeroes_eq,
      S.sort_eq_of_perm (· > ·) (similarityKey hero) ((hperm.map _).nodup_iff.2 hkeys) hperm]

theorem similar_heroes_filtered_antiMage :
    let i : HeroListInteractor :=
      { masterHeroes := [juggernaut, { bloodseeker with roles := antiMage.roles }, antiMage] }
    getSimilarHeroes Sorter.insertion (filterHeroes [⟨12, "Nuker", true⟩] i) antiMage =
      getSimilarHeroes Sorter.insertion { i with obsHeroes := i.masterHeroes } antiMage :=
  (similar_heroes_filtered Sorter.insertion _ (by decide) (by decide) (by decide)).2.2 (by decide)

/-! ## Against the test -/

/-- `remainingHeroes` of `testGetSimilarHeroes`: of the roles of the hero it looks at the first
    only. -/
def remainingHeroes (heroes : List Hero) (hero : Hero) : List Hero :=
  heroes.filter fun h =>
    (decide (h.id ≠ hero.id) && decide (h.primaryAttr = hero.primaryAttr)) &&
      h.roles.contains (hero.roles.head?.getD "")

/-- The heroes that the test compares the similar ones with, for a hero with the attribute agi. -/
def similarReference (S : Sorter) (heroes : List Hero) (hero : Hero) : List Hero :=
  (S.sort (Sorter.byKey (· > ·) Hero.moveSpeed) (remainingHeroes heroes hero)).take 3

/-- The eligible heroes are a part of those that the test looks at. -/
theorem eligible_eq_filter {hero : Hero} (hroles : hero.roles ≠ []) (heroes : List Hero) :
    eligible heroes hero = (remainingHeroes heroes hero).filter (isEligible hero) := by
  obtain ⟨first, others, hcons⟩ := List.exists_cons_of_ne_nil hroles
  rw [remainingHeroes, List.filter_filter, eligible]
  refine List.filter_congr fun other _ => ?_
  rw [isEligible, hcons, List.head?_cons, Option.getD_some, List.all_cons]
  generalize (decide (other.id ≠ hero.id) && decide (other.primaryAttr = hero.primaryAttr)) = b
  cases b <;> cases other.roles.contains first <;> simp

/-- **`getSimilarHeroes` agrees with its test** iff every hero that the test looks at and that lacks
    a role of the given hero has three eligible heroes that are at least as fast. -/
theorem similar_reference_iff (S : Sorter) (i : HeroListInteractor) {hero : Hero}
    (hagi : hero.primaryAttr = "agi") (hroles : hero.roles ≠ []) :
    (getSimilarHeroes S i hero).map Hero.moveSpeed =
        (similarReference S i.obsHeroes hero).map Hero.moveSpeed ↔
      ∀ other ∈ remainingHeroes i.obsHeroes hero, isEligible hero other = false →
        3 ≤ (eligible i.obsHeroes hero).countP fun h => decide (other.moveSpeed ≤ h.moveSpeed) := by
  have hkey : similarityKey hero = Hero.moveSpeed := funext fun other => if_pos hagi
  rw [getSimilarHeroes_eq, hkey, eligible_eq_filter hroles, similarReference,
    S.sort_take_filter_iff (· > ·) Hero.moveSpeed]
  simp only [gt_iff_lt, not_lt]

theorem similar_reference_iff_antiMage :
    let i : HeroListInteractor :=
      { obsHeroes := [antiMage, juggernaut, { antiMage with id := 2 }, { antiMage with id := 3 },
          { antiMage with id := 5 }] }
    (getSimilarHeroes Sorter.insertion i antiMage).map Hero.moveSpeed =
      (similarReference Sorter.insertion i.obsHeroes antiMage).map Hero.moveSpeed :=
  (similar_reference_iff Sorter.insertion _ rfl (by decide)).2 (by decide)

/-- Juggernaut and Bloodseeker have the first role of Anti-Mage, but not all of them. -/
theorem similar_misses_reference :
    let i : HeroListInteractor := { obsHeroes := [antiMage, juggernaut, bloodseeker] }
    antiMage.primaryAttr = "agi" ∧ antiMage.roles ≠ [] ∧
      getSimilarHeroes Sorter.insertion i antiMage = [] ∧
      (similarReference Sorter.insertion i.obsHeroes antiMage).map Hero.moveSpeed = [305, 300] ∧
      (getSimilarHeroes Sorter.insertion i antiMage).map Hero.moveSpeed ≠
        (similarReference Sorter.insertion i.obsHeroes antiMage).map Hero.moveSpeed := by
  decide

end HeroQ
