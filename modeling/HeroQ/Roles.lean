/-
  The filters that `getRoles` offers.

  * `offered`: the entries, all unselected, in the order of their names;
  * `getRoles_active`, `getRoles_none`: `getRoles` never traps, and returns these entries with the
    flags of the last active filters of their names, or with the first entry selected if there are
    no active filters.
-/
import HeroQ.HeroListInteractor
import HeroQ.FilterScreen

namespace HeroQ

open HeroListInteractor

variable (S : Sorter)

/-- The All entry. -/
def allFilter : RoleFilter := ⟨0, "All", false⟩

/-! ## Collecting the roles -/

/-- The filters for the roles of a hero at the position `indexA` of the master list. -/
def heroFilters (x : Hero × ℕ) : List RoleFilter :=
  x.1.roles.zipIdx.map fun y =>
    ⟨(Numeral.intOfString s!"{x.2 + 1}{y.2}").getD (-1), y.1, false⟩

theorem roleFilters_eq (masterHeroes : List Hero) :
    roleFilters masterHeroes = allFilter :: masterHeroes.zipIdx.flatMap heroFilters := by
  have hinner : ∀ (x : Hero × ℕ) (filters : List RoleFilter),
      ([] ++ x.1.roles).zipIdx.foldl (fun filters (y : String × ℕ) =>
        filters ++ [(⟨(Numeral.intOfString s!"{x.2 + 1}{y.2}").getD (-1), y.1, false⟩ :
          RoleFilter)]) filters = filters ++ heroFilters x :=
    fun x filters => Loops.foldl_concat _ _ filters
  unfold roleFilters
  simp only [hinner]
  exact Loops.foldl_concats heroFilters _ _

theorem mem_heroFilters {x : Hero × ℕ} {f : RoleFilter} (h : f ∈ heroFilters x) :
    f.name ∈ x.1.roles ∧ f.id ≠ 0 ∧ f.isSelected = false := by
  obtain ⟨y, hy, rfl⟩ := List.mem_map.1 h
  exact ⟨List.fst_mem_of_mem_zipIdx hy, Numeral.getD_intOfString_concat_ne (Nat.succ_pos _) _, rfl⟩

theorem map_name_heroFilters (x : Hero × ℕ) : (heroFilters x).map RoleFilter.name = x.1.roles := by
  rw [heroFilters, List.map_map]
  exact List.zipIdx_map_fst 0 x.1.roles

/-- The names collected are All and the roles of the heroes, in order. -/
theorem map_name_roleFilters (masterHeroes : List Hero) :
    (roleFilters masterHeroes).map RoleFilter.name =
      "All" :: masterHeroes.flatMap fun hero => hero.roles := by
  rw [roleFilters_eq, List.map_cons, List.map_flatMap]
  simp only [map_name_heroFilters]
  congr 1
  conv_rhs => rw [← List.zipIdx_map_fst 0 masterHeroes, List.flatMap_map]

/-! ## The entries offered -/

/-- The entries of the filter screen, before the active filters are applied. -/
def offered (masterHeroes : List Hero) : List RoleFilter :=
  S.sort (Sorter.byKey (· < ·) RoleFilter.name) (unique RoleFilter.name (roleFilters masterHeroes))

variable {S}

theorem mem_offered {masterHeroes : List Hero} {f : RoleFilter} (h : f ∈ offered S masterHeroes) :
    f = allFilter ∨ (f.name ≠ "All" ∧ f.id ≠ 0 ∧ f.isSelected = false) := by
  rw [offered, S.mem_sort, unique_eq_firstOcc, roleFilters_eq, FirstOcc.firstOcc_cons] at h
  rcases List.mem_cons.1 h with h | h
  · exact Or.inl h
  · obtain ⟨hf, hname⟩ := List.mem_filter.1 h
    obtain ⟨x, -, hx⟩ := List.mem_flatMap.1 ((FirstOcc.firstOcc_sublist _ _).subset hf)
    exact Or.inr ⟨of_decide_eq_true hname, (mem_heroFilters hx).2⟩

theorem allFilter_mem_offered (masterHeroes : List Hero) :
    allFilter ∈ offered S masterHeroes := by
  rw [offered, S.mem_sort, unique_eq_firstOcc, roleFilters_eq, FirstOcc.firstOcc_cons]
  exact List.mem_cons_self

theorem offered_ne_nil (masterHeroes : List Hero) :
    ∃ first rest, offered S masterHeroes = first :: rest :=
  List.exists_cons_of_ne_nil (List.ne_nil_of_mem (allFilter_mem_offered masterHeroes))

theorem offered_isSelected {masterHeroes : List Hero} {f : RoleFilter}
    (h : f ∈ offered S masterHeroes) : f.isSelected = false := by
  rcases mem_offered h with rfl | h
  exacts [rfl, h.2.2]

/-- The names offered are All and the roles of the heroes. -/
theorem mem_map_name_offered {masterHeroes : List Hero} {name : String} :
    name ∈ (offered S masterHeroes).map RoleFilter.name ↔
      name = "All" ∨ ∃ hero ∈ masterHeroes, name ∈ hero.roles := by
  rw [offered, ((S.perm _ _).map _).mem_iff, unique_eq_firstOcc, FirstOcc.mem_map_firstOcc,
    map_name_roleFilters, List.mem_cons, List.mem_flatMap]

/-- An entry other than All is for a role of a hero. -/
theorem role_of_mem_offered {masterHeroes : List Hero} {f : RoleFilter}
    (hf : f ∈ offered S masterHeroes) (hname : f.name ≠ "All") :
    ∃ hero ∈ masterHeroes, f.name ∈ hero.roles :=
  (mem_map_name_offered.1 (List.mem_map_of_mem hf)).resolve_left hname

/-- The names offered are in strictly increasing order. -/
theorem offered_sorted (masterHeroes : List Hero) :
    (offered S masterHeroes).Pairwise fun f g => f.name < g.name := by
  refine S.sort_strict (· < ·) RoleFilter.name ?_
  rw [unique_eq_firstOcc]
  exact FirstOcc.nodup_firstOcc _ _

theorem nodup_map_name_offered (masterHeroes : List Hero) :
    ((offered S masterHeroes).map RoleFilter.name).Nodup :=
  List.pairwise_map.2 ((offered_sorted masterHeroes).imp fun h => ne_of_lt h)

/-- **All comes first** if no role name sorts before it. -/
theorem offered_head {masterHeroes : List Hero}
    (hAll : ∀ hero ∈ masterHeroes, ∀ role ∈ hero.roles, "All" ≤ role) :
    ∃ rest, offered S masterHeroes = allFilter :: rest := by
  have hmem := allFilter_mem_offered (S := S) masterHeroes
  have hsort := offered_sorted (S := S) masterHeroes
  cases h : offered S masterHeroes with
  | nil => rw [h] at hmem; simp at hmem
  | cons f rest =>
    refine ⟨rest, ?_⟩
    rw [h] at hmem hsort
    rcases List.mem_cons.1 hmem with rfl | hrest
    · rfl
    · -- an entry in front of All would have a smaller name
      have hlt : f.name < "All" := (List.pairwise_cons.1 hsort).1 _ hrest
      have hf : f ∈ offered S masterHeroes := h ▸ List.mem_cons_self
      obtain ⟨hero, hhero, hrole⟩ := role_of_mem_offered hf (ne_of_lt hlt)
      exact absurd hlt (not_lt.2 (hAll hero hhero f.name hrole))

/-- The first entry has the least name. -/
theorem offered_head_le {masterHeroes : List Hero} {first : RoleFilter} {rest : List RoleFilter}
    (hoff : offered S masterHeroes = first :: rest) {name : String}
    (hname : name ∈ (offered S masterHeroes).map RoleFilter.name) : first.name ≤ name := by
  have hsort := offered_sorted (S := S) masterHeroes
  rw [hoff] at hsort hname
  rcases List.mem_cons.1 hname with rfl | hrest
  · exact le_rfl
  · obtain ⟨f, hf, rfl⟩ := List.mem_map.1 hrest
    exact le_of_lt ((List.pairwise_cons.1 hsort).1 f hf)

theorem offered_head_iff {masterHeroes : List Hero} {first : RoleFilter} {rest : List RoleFilter}
    (hoff : offered S masterHeroes = first :: rest) :
    first.name = "All" ↔ ∀ hero ∈ masterHeroes, ∀ role ∈ hero.roles, "All" ≤ role := by
  constructor
  · intro hname hero hhero role hrole
    exact hname ▸ offered_head_le hoff (mem_map_name_offered.2 (Or.inr ⟨hero, hhero, hrole⟩))
  · intro hAll
    obtain ⟨rest', hoff'⟩ := offered_head (S := S) hAll
    rw [hoff] at hoff'
    cases hoff'
    rfl

/-! ## Applying the active filters -/

/-- What an active filter writes to the flag of the entries with its name. -/
def activeWrite (activeFilter : RoleFilter) (name : String) : Option Bool :=
  if activeFilter.name = name then some activeFilter.isSelected else none

/-- The flag that the active filters give to the entry `name`: that of the last of them with this
    name, or unselected if there is none. -/
def activeFlag (activeFilters : List RoleFilter) (name : String) : Bool :=
  (LastWrite.last activeWrite activeFilters name).getD false

/-- Selected active filters select the entries with their names. -/
theorem activeFlag_iff {activeFilters : List RoleFilter}
    (h : ∀ f ∈ activeFilters, f.isSelected = true) (name : String) :
    activeFlag activeFilters name = true ↔ ∃ f ∈ activeFilters, f.name = name := by
  rw [activeFlag]
  cases hlast : LastWrite.last activeWrite activeFilters name with
  | none =>
    refine iff_of_false (by simp) ?_
    rintro ⟨f, hf, rfl⟩
    have := (LastWrite.last_eq_none_iff activeWrite).1 hlast f hf
    simp [activeWrite] at this
  | some b =>
    obtain ⟨f, hf, hwrite⟩ := LastWrite.mem_of_last activeWrite hlast
    rw [activeWrite] at hwrite
    split_ifs at hwrite with hname
    refine iff_of_true ?_ ⟨f, hf, hname⟩
    rw [← Option.some.inj hwrite]
    exact h f hf

theorem applyActive_eq (filters : List RoleFilter) (activeFilter : RoleFilter) :
    applyActive filters activeFilter = some (filters.map fun f =>
      if f.name = activeFilter.name then f.select activeFilter.isSelected else f) := by
  have := Loops.forEach_update (fun f : RoleFilter => decide (f.name = activeFilter.name))
    (RoleFilter.select activeFilter.isSelected) filters
  simpa only [applyActive, setSelected, decide_eq_true_eq] using this

theorem select_select (b c : Bool) (f : RoleFilter) : (f.select b).select c = f.select c := rfl

/-- The loop over the active filters leaves each entry with the last flag written to its name. -/
theorem foldlM_applyActive (activeFilters : List RoleFilter) : ∀ filters : List RoleFilter,
    activeFilters.foldlM applyActive filters = some (filters.map fun f =>
      f.select ((LastWrite.last activeWrite activeFilters f.name).getD f.isSelected)) := by
  induction activeFilters with
  | nil =>
    intro filters
    simp only [List.foldlM_nil, LastWrite.last_nil, Option.getD_none]
    exact congrArg some (List.map_id' filters).symm
  | cons activeFilter activeFilters ih =>
    intro filters
    rw [List.foldlM_cons, applyActive_eq, Option.bind_eq_bind, Option.bind_some, ih, List.map_map]
    congr 1
    refine List.map_congr_left fun f _ => ?_
    rw [LastWrite.last_cons, Function.comp_apply]
    by_cases h : f.name = activeFilter.name
    · rw [if_pos h, activeWrite, if_pos h.symm, select_select, RoleFilter.select_name,
        RoleFilter.select_isSelected]
      cases LastWrite.last activeWrite activeFilters f.name <;> rfl
    · rw [if_neg h, activeWrite, if_neg (Ne.symm h), Option.or_none]

/-- **With active filters**, each entry has the flag of the last one with its name. -/
theorem getRoles_active {i : HeroListInteractor} (h : i.obsActiveFilters ≠ []) :
    getRoles S i = some ((offered S i.masterHeroes).map fun f =>
      f.select (activeFlag i.obsActiveFilters f.name)) := by
  rw [getRoles, if_pos (List.length_pos_iff.2 h), foldlM_applyActive]
  congr 1
  refine List.map_congr_left fun f hf => ?_
  rw [offered_isSelected hf]
  rfl

/-- **Without active filters**, the first entry is selected. -/
theorem getRoles_none {i : HeroListInteractor} (h : i.obsActiveFilters = []) :
    ∃ first rest, offered S i.masterHeroes = first :: rest ∧
      getRoles S i = some (first.select true :: rest) := by
  obtain ⟨first, rest, hoff⟩ := offered_ne_nil (S := S) i.masterHeroes
  refine ⟨first, rest, hoff, ?_⟩
  unfold offered at hoff
  rw [getRoles, h, if_neg (by simp), hoff, setSelected_zero]

/-- **`getRoles` never traps** and returns the entries offered, up to their flags. -/
theorem getRoles_entries (S : Sorter) (i : HeroListInteractor) :
    ∃ roles, getRoles S i = some roles ∧
      roles.map RoleFilter.entry = (offered S i.masterHeroes).map RoleFilter.entry := by
  by_cases h : i.obsActiveFilters = []
  · obtain ⟨first, rest, hoff, hroles⟩ := getRoles_none (S := S) h
    exact ⟨_, hroles, by simp [hoff]⟩
  · exact ⟨_, getRoles_active h, by simp [Function.comp_def]⟩

theorem entries_of_getRoles {i : HeroListInteractor} {roles : List RoleFilter}
    (h : getRoles S i = some roles) :
    roles.map RoleFilter.entry = (offered S i.masterHeroes).map RoleFilter.entry := by
  obtain ⟨roles', hroles', hent⟩ := getRoles_entries S i
  obtain rfl : roles = roles' := Option.some.inj (h.symm.trans hroles')
  exact hent

/-- The entries of a screen determine its names. -/
theorem map_name_of_entries {fs gs : List RoleFilter}
    (h : fs.map RoleFilter.entry = gs.map RoleFilter.entry) :
    fs.map RoleFilter.name = gs.map RoleFilter.name := by
  have hsnd := congrArg (List.map Prod.snd) h
  rwa [List.map_map, List.map_map] at hsnd

/-- **`getRoles` offers All and the roles of the master list.** -/
theorem getRoles_names (S : Sorter) (i : HeroListInteractor) :
    ∃ roles, getRoles S i = some roles ∧ ∀ name, name ∈ roles.map RoleFilter.name ↔
      name = "All" ∨ ∃ hero ∈ i.masterHeroes, name ∈ hero.roles := by
  obtain ⟨roles, hroles, hent⟩ := getRoles_entries S i
  refine ⟨roles, hroles, fun name => ?_⟩
  rw [map_name_of_entries hent, mem_map_name_offered]

/-! ## The screen that opens -/

/-- Just the All entry has the id 0. -/
theorem id_eq_zero_of_entry {masterHeroes : List Hero} {f : RoleFilter}
    (h : f.entry ∈ (offered S masterHeroes).map RoleFilter.entry) :
    f.id = 0 ↔ f.name = "All" := by
  obtain ⟨g, hg, hgf⟩ := List.mem_map.1 h
  obtain ⟨hid, hname⟩ : g.id = f.id ∧ g.name = f.name := by
    simpa [RoleFilter.entry] using hgf
  rw [← hid, ← hname]
  rcases mem_offered hg with rfl | hne
  · exact iff_of_true rfl rfl
  · exact iff_of_false hne.2.1 hne.1

section
variable {masterHeroes : List Hero} {roles : List RoleFilter}
  (h : roles.map RoleFilter.entry = (offered S masterHeroes).map RoleFilter.entry)
include h

theorem id_eq_zero_of_entries {f : RoleFilter} (hf : f ∈ roles) : f.id = 0 ↔ f.name = "All" := by
  have hentry : f.entry ∈ (offered S masterHeroes).map RoleFilter.entry :=
    h ▸ List.mem_map_of_mem hf
  exact id_eq_zero_of_entry hentry

theorem names_sorted_of_entries : roles.Pairwise fun f g => f.name < g.name := by
  have hsorted := List.pairwise_map.2 (offered_sorted (S := S) masterHeroes)
  rw [← map_name_of_entries h] at hsorted
  exact List.pairwise_map.1 hsorted

end

/-- The last of the filters with the name. -/
def lastNamed (filters : List RoleFilter) (name : String) : Option RoleFilter :=
  (filters.filter fun f => f.name = name).getLast?

/-- The flag of an entry is that of the last active filter with its name. -/
theorem activeFlag_iff_lastNamed {activeFilters : List RoleFilter} {name : String} :
    activeFlag activeFilters name = true ↔
      ∃ f, lastNamed activeFilters name = some f ∧ f.isSelected = true := by
  have hwrites : activeFilters.filterMap (fun f => activeWrite f name) =
      (activeFilters.filter fun f => f.name = name).map RoleFilter.isSelected := by
    rw [← List.filterMap_eq_map, List.filterMap_filter]
    refine List.filterMap_congr fun f _ => ?_
    simp [activeWrite]
  rw [activeFlag, LastWrite.last, hwrites, List.getLast?_map, lastNamed]
  cases (activeFilters.filter fun f => f.name = name).getLast? <;> simp

/-- With active filters, the flags that the screen opens with. -/
theorem getRoles_flag {i : HeroListInteractor} (h : i.obsActiveFilters ≠ [])
    {roles : List RoleFilter} (hroles : getRoles S i = some roles) {f : RoleFilter}
    (hf : f ∈ roles) : f.isSelected = activeFlag i.obsActiveFilters f.name := by
  rw [getRoles_active h] at hroles
  cases hroles
  obtain ⟨g, -, rfl⟩ := List.mem_map.1 hf
  rfl

/-- **What `getRoles` returns**: the names are All and the roles of the master list, in strictly
    increasing order; just All has the id 0; without active filters just the first entry is
    selected, and with some an entry is selected iff the last active filter with its name is. -/
theorem getRoles_complete (S : Sorter) (i : HeroListInteractor) :
    ∃ roles, getRoles S i = some roles ∧
      (roles.Pairwise fun f g => f.name < g.name) ∧
      (∀ name, name ∈ roles.map RoleFilter.name ↔
        name = "All" ∨ ∃ hero ∈ i.masterHeroes, name ∈ hero.roles) ∧
      (∀ f ∈ roles, f.id = 0 ↔ f.name = "All") ∧
      (i.obsActiveFilters = [] → ∃ first rest, roles = first :: rest ∧
        first.isSelected = true ∧ ∀ f ∈ rest, f.isSelected = false) ∧
      (i.obsActiveFilters ≠ [] → ∀ f ∈ roles, f.isSelected = true ↔
        ∃ a, lastNamed i.obsActiveFilters f.name = some a ∧ a.isSelected = true) := by
  obtain ⟨roles, hroles, hent⟩ := getRoles_entries S i
  refine ⟨roles, hroles, names_sorted_of_entries hent, fun name => ?_,
    fun f hf => id_eq_zero_of_entries hent hf, fun hnone => ?_, fun hsome f hf => ?_⟩
  · rw [map_name_of_entries hent, mem_map_name_offered]
  · obtain ⟨first, rest, hoff, hroles'⟩ := getRoles_none (S := S) hnone
    obtain rfl : roles = first.select true :: rest := Option.some.inj (hroles.symm.trans hroles')
    refine ⟨first.select true, rest, rfl, rfl, fun f hf => ?_⟩
    exact offered_isSelected (hoff ▸ List.mem_cons_of_mem first hf)
  · rw [getRoles_flag hsome hroles hf, activeFlag_iff_lastNamed]

/-- **All comes first** iff no role of the master list sorts before it. -/
theorem all_first_iff (S : Sorter) (i : HeroListInteractor) :
    ∃ roles, getRoles S i = some roles ∧
      ((∃ all rest, roles = all :: rest ∧ all.name = "All" ∧ all.id = 0) ↔
        ∀ hero ∈ i.masterHeroes, ∀ role ∈ hero.roles, "All" ≤ role) := by
  obtain ⟨roles, hroles, hent⟩ := getRoles_entries S i
  obtain ⟨first, rest₀, hoff⟩ := offered_ne_nil (S := S) i.masterHeroes
  refine ⟨roles, hroles, ?_⟩
  rw [← offered_head_iff hoff]
  cases roles with
  | nil => rw [hoff] at hent; cases hent
  | cons all rest =>
    have hname : all.name = first.name := by
      have hent' := hent
      rw [hoff] at hent'
      exact congrArg Prod.snd (List.cons.inj hent').1
    constructor
    · rintro ⟨_, _, heq, hAll, -⟩
      cases heq
      exact hname ▸ hAll
    · intro hAll
      have hAll' : all.name = "All" := hname.trans hAll
      exact ⟨all, rest, rfl, hAll', (id_eq_zero_of_entries hent List.mem_cons_self).2 hAll'⟩

/-- A role that sorts before All takes its place. -/
theorem ace_before_all :
    getRoles Sorter.insertion { masterHeroes := [{ antiMage with roles := ["Ace"] }] } =
      some [⟨10, "Ace", true⟩, ⟨0, "All", false⟩] := by
  decide

end HeroQ
