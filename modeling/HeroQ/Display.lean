/-
  What the filters select from the master list.

  `shown filters masterHeroes` is the abstract reading of the active filters: everything if there
  are none or the selected All entry heads them, else the heroes with one of their roles.
  `filterHeroes_eq` connects it to `filterHeroes`, and `anyRole_eq` the selection by roles to the
  any-of selections of the library.
-/
import HeroQ.HeroListInteractor
import HeroQ.Lib.FirstOcc

namespace HeroQ

open HeroListInteractor

/-- The selected All entry heads the filters. -/
def headedByAll (filters : List RoleFilter) : Bool :=
  match filters.head? with
  | some all => decide (all.id = 0) && all.isSelected
  | none => false

/-- The filters narrow the list: there are some, and All does not head them. -/
def Narrowing (filters : List RoleFilter) : Prop := filters ≠ [] ∧ headedByAll filters = false

instance (filters : List RoleFilter) : Decidable (Narrowing filters) :=
  inferInstanceAs (Decidable (_ ∧ _))

/-- Filters narrow the list if none of them is the selected All entry. -/
theorem narrowing_of_unselected {filters : List RoleFilter} (hne : filters ≠ [])
    (h : ∀ f ∈ filters, f.id = 0 → f.isSelected = false) : Narrowing filters := by
  refine ⟨hne, ?_⟩
  obtain ⟨f, fs, rfl⟩ := List.exists_cons_of_ne_nil hne
  rw [headedByAll, List.head?_cons, Bool.and_eq_false_iff, decide_eq_false_iff_not]
  by_cases hid : f.id = 0
  · exact Or.inr (h f List.mem_cons_self hid)
  · exact Or.inl hid

/-- What the filters select from the master list. -/
def shown (filters : List RoleFilter) (masterHeroes : List Hero) : List Hero :=
  if Narrowing filters then anyRole filters masterHeroes else masterHeroes

/-- The filter `f` admits the hero. -/
def admits (f : RoleFilter) (hero : Hero) : Bool := hero.roles.contains f.name

theorem admits_iff {f : RoleFilter} {hero : Hero} : admits f hero = true ↔ f.name ∈ hero.roles := by
  simp [admits]

/-- **`filterHeroes` shows what the filters select.** -/
theorem filterHeroes_eq {filters : List RoleFilter} (h : filters ≠ []) (i : HeroListInteractor) :
    filterHeroes filters i =
      { i with obsHeroes := shown filters i.masterHeroes, obsActiveFilters := filters } := by
  cases filters with
  | nil => exact absurd rfl h
  | cons all rest =>
    by_cases hall : all.id = 0 ∧ all.isSelected = true
    · have hnot : ¬ Narrowing (all :: rest) := by simp [Narrowing, headedByAll, hall]
      simp [filterHeroes, shown, hnot, hall]
    · have hnar : Narrowing (all :: rest) := by
        refine ⟨h, ?_⟩
        rw [headedByAll, List.head?_cons]
        simpa using hall
      simp [filterHeroes, shown, hnar, hall]

theorem anyRole_eq (filters : List RoleFilter) (masterHeroes : List Hero) :
    anyRole filters masterHeroes = FirstOcc.anyOf Hero.id (filters.map admits) masterHeroes := by
  rw [anyRole, Loops.foldl_concats, List.nil_append, unique_eq_firstOcc, FirstOcc.anyOf,
    List.flatMap_map]
  rfl

theorem shown_not_narrowing {filters : List RoleFilter} (h : ¬ Narrowing filters)
    (masterHeroes : List Hero) : shown filters masterHeroes = masterHeroes := if_neg h

theorem shown_narrowing {filters : List RoleFilter} (h : Narrowing filters)
    (masterHeroes : List Hero) :
    shown filters masterHeroes = FirstOcc.anyOf Hero.id (filters.map admits) masterHeroes := by
  rw [shown, if_pos h, anyRole_eq]

theorem shown_subset (filters : List RoleFilter) (masterHeroes : List Hero) :
    shown filters masterHeroes ⊆ masterHeroes := by
  by_cases h : Narrowing filters
  · rw [shown_narrowing h]
    exact fun hero hh => (FirstOcc.mem_of_mem_anyOf _ hh).1
  · rw [shown_not_narrowing h]
    exact List.Subset.refl _

/-- **The ids that narrowing filters show** are those of the heroes with one of their roles. -/
theorem mem_ids_shown {filters : List RoleFilter} (h : Narrowing filters) {masterHeroes : List Hero}
    {id : Int} :
    id ∈ (shown filters masterHeroes).map Hero.id ↔
      ∃ hero ∈ masterHeroes, (∃ f ∈ filters, f.name ∈ hero.roles) ∧ hero.id = id := by
  rw [shown_narrowing h, FirstOcc.mem_map_anyOf]
  simp only [List.mem_map, exists_exists_and_eq_and, admits_iff]

/-- Of heroes with distinct ids, narrowing filters select those with one of their roles, each
    once. -/
theorem count_shown {filters : List RoleFilter} (h : Narrowing filters) {masterHeroes : List Hero}
    (hids : (masterHeroes.map Hero.id).Nodup) (hero : Hero) :
    (shown filters masterHeroes).count hero =
      if hero ∈ masterHeroes ∧ ∃ f ∈ filters, f.name ∈ hero.roles then 1 else 0 := by
  have hnd : (shown filters masterHeroes).Nodup := by
    rw [shown_narrowing h]
    exact (FirstOcc.nodup_anyOf _ _ _).of_map
  rw [hnd.count]
  refine if_congr ?_ rfl rfl
  rw [shown_narrowing h, FirstOcc.mem_anyOf hids]
  simp only [List.mem_map, exists_exists_and_eq_and, admits_iff]

/-! ## The order of the list -/

/-- The position of the first filter that admits the hero. -/
def firstAdmitting (filters : List RoleFilter) (hero : Hero) : ℕ :=
  filters.findIdx fun f => admits f hero

theorem rank_map_admits (filters : List RoleFilter) (hero : Hero) :
    FirstOcc.rank (filters.map admits) hero = firstAdmitting filters hero := by
  rw [FirstOcc.rank, firstAdmitting, List.findIdx_map]
  rfl

/-- The elements of a list without repetitions come in the order of their positions. -/
theorem pairwise_idxOf {heroes : List Hero} (h : heroes.Nodup) :
    heroes.Pairwise fun hero hero' => heroes.idxOf hero < heroes.idxOf hero' := by
  rw [List.pairwise_iff_getElem]
  intro k l hk hl hkl
  rw [h.idxOf_getElem, h.idxOf_getElem]
  exact hkl

/-- **What narrowing filters show**: no id twice, only heroes of the master list with one of the
    roles, and the id of each of them; if the ids of the master list are distinct, in the order of
    the first filter that admits the hero and then of the master list. -/
theorem narrowed_list (i : HeroListInteractor) {filters : List RoleFilter}
    (hfilters : Narrowing filters) :
    let heroes := (filterHeroes filters i).obsHeroes
    (heroes.map Hero.id).Nodup ∧
      (∀ hero ∈ heroes, hero ∈ i.masterHeroes ∧ ∃ f ∈ filters, f.name ∈ hero.roles) ∧
      (∀ hero ∈ i.masterHeroes, (∃ f ∈ filters, f.name ∈ hero.roles) →
        hero.id ∈ heroes.map Hero.id) ∧
      ((i.masterHeroes.map Hero.id).Nodup → heroes.Pairwise fun hero hero' =>
        firstAdmitting filters hero < firstAdmitting filters hero' ∨
          firstAdmitting filters hero = firstAdmitting filters hero' ∧
            i.masterHeroes.idxOf hero < i.masterHeroes.idxOf hero') := by
  intro heroes
  have hheroes : heroes = FirstOcc.anyOf Hero.id (filters.map admits) i.masterHeroes := by
    rw [← shown_narrowing hfilters]
    simp only [heroes, filterHeroes_eq hfilters.1]
  have hadmits : ∀ hero, (∃ m ∈ filters.map admits, m hero = true) ↔
      ∃ f ∈ filters, f.name ∈ hero.roles := by
    intro hero
    simp only [List.mem_map, exists_exists_and_eq_and, admits_iff]
  rw [hheroes]
  refine ⟨FirstOcc.nodup_anyOf _ _ _, fun hero hh => ?_, fun hero hh hrole => ?_, fun hids => ?_⟩
  · obtain ⟨hmaster, hadm⟩ := FirstOcc.mem_of_mem_anyOf _ hh
    exact ⟨hmaster, (hadmits hero).1 hadm⟩
  · exact FirstOcc.key_mem_anyOf _ hh ((hadmits hero).2 hrole)
  · simpa only [rank_map_admits] using
      FirstOcc.anyOf_lex (filters.map admits) hids (pairwise_idxOf hids.of_map)

/-- Two heroes are shown by the first filter, in their order, and the third by the second. -/
theorem narrowed_list_nuker :
    let i : HeroListInteractor := { masterHeroes := [bloodseeker, antiMage, juggernaut] }
    let filters := [⟨11, "Escape", true⟩, ⟨12, "Nuker", true⟩]
    let heroes := (filterHeroes filters i).obsHeroes
    heroes = [antiMage, juggernaut, bloodseeker] ∧ (heroes.map Hero.id).Nodup ∧
      (∀ hero ∈ heroes, hero ∈ i.masterHeroes ∧ ∃ f ∈ filters, f.name ∈ hero.roles) ∧
      (∀ hero ∈ i.masterHeroes, (∃ f ∈ filters, f.name ∈ hero.roles) →
        hero.id ∈ heroes.map Hero.id) ∧
      heroes.Pairwise fun hero hero' =>
        firstAdmitting filters hero < firstAdmitting filters hero' ∨
          firstAdmitting filters hero = firstAdmitting filters hero' ∧
            i.masterHeroes.idxOf hero < i.masterHeroes.idxOf hero' := by
  intro i filters heroes
  obtain ⟨hnodup, hsound, hcomplete, horder⟩ :=
    narrowed_list i (show Narrowing filters by decide)
  exact ⟨by decide, hnodup, hsound, hcomplete, horder (by decide)⟩

end HeroQ
