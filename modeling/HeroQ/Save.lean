/-
  The filter screen from its opening to Save.

  `Opened` is what taps keep: the entries of the screen are those that `getRoles` offered.  With
  it, `filter_end_to_end` says what Save does to the list, and `saved_selection_returns` what the
  screen shows when it is opened again.
-/
import HeroQ.Roles
import HeroQ.Transitions

namespace HeroQ

open HeroListInteractor FilterInteractor

variable {S : Sorter}

/-- The screen shows the entries offered for the master list, with any flags. -/
def Opened (S : Sorter) (masterHeroes : List Hero) (roles : List RoleFilter) : Prop :=
  roles.map RoleFilter.entry = (offered S masterHeroes).map RoleFilter.entry

theorem opened_of_run {i : HeroListInteractor} {opened roles : List RoleFilter}
    {taps : List (ℕ × Bool)} (hopened : getRoles S i = some opened)
    (hrun : Runs.run tap opened taps = some roles) : Opened S i.masterHeroes roles :=
  (taps_entries hrun).trans (entries_of_getRoles hopened)

/-- The screen that `getRoles` opens, after any taps, shows the entries offered. -/
theorem opened_taps (S : Sorter) (i : HeroListInteractor) (taps : List (ℕ × Bool)) :
    ∃ opened roles, getRoles S i = some opened ∧ Runs.run tap opened taps = some roles ∧
      Opened S i.masterHeroes roles := by
  obtain ⟨opened, hopened, -⟩ := getRoles_entries S i
  obtain ⟨roles, hroles, -, -⟩ := taps_refine opened taps
  exact ⟨opened, roles, hopened, hroles, opened_of_run hopened hroles⟩

namespace Opened
variable {masterHeroes : List Hero} {roles : List RoleFilter} (h : Opened S masterHeroes roles)
include h

/-- An entry of the screen has the id 0 iff it is the All entry. -/
theorem id_eq_zero_iff {f : RoleFilter} (hf : f ∈ roles) : f.id = 0 ↔ f.name = "All" :=
  id_eq_zero_of_entries h hf

theorem map_name : roles.map RoleFilter.name = (offered S masterHeroes).map RoleFilter.name :=
  map_name_of_entries h

theorem nodup_map_name : (roles.map RoleFilter.name).Nodup :=
  h.map_name ▸ nodup_map_name_offered masterHeroes

/-- All is on the screen. -/
theorem ne_nil : roles ≠ [] := by
  rintro rfl
  have hmem := allFilter_mem_offered (S := S) masterHeroes
  have hnil : offered S masterHeroes = [] := by
    simpa [Opened, eq_comm] using (show _ = _ from h)
  rw [hnil] at hmem
  simp at hmem

/-- If no role name sorts before All, All is the first entry and the others have other ids and
    names. -/
theorem head (hAll : ∀ hero ∈ masterHeroes, ∀ role ∈ hero.roles, "All" ≤ role) :
    ∃ all rest, roles = all :: rest ∧ all.entry = allFilter.entry ∧
      ∀ f ∈ rest, f.id ≠ 0 ∧ f.name ≠ "All" := by
  obtain ⟨rest₀, hoff⟩ := offered_head (S := S) hAll
  cases roles with
  | nil => exact absurd rfl h.ne_nil
  | cons all rest =>
    have hent : all.entry = allFilter.entry := by
      have h' := h
      rw [Opened, hoff, List.map_cons, List.map_cons, List.cons.injEq] at h'
      exact h'.1
    refine ⟨all, rest, rfl, hent, fun f hf => ?_⟩
    have hname : f.name ≠ "All" := by
      intro hfAll
      have hnd := h.nodup_map_name
      rw [List.map_cons, List.nodup_cons] at hnd
      have hallName : all.name = "All" := congrArg Prod.snd hent
      exact hnd.1 (hallName.trans hfAll.symm ▸ List.mem_map_of_mem hf)
    exact ⟨mt (h.id_eq_zero_iff (List.mem_cons_of_mem _ hf)).1 hname, hname⟩

/-- If All comes first and is selected, Save passes on just All. -/
theorem selected_all (hAll : ∀ hero ∈ masterHeroes, ∀ role ∈ hero.roles, "All" ≤ role)
    (hsel : ∃ role ∈ roles, role.name = "All" ∧ role.isSelected = true) :
    getSelectedFilters roles = [allFilter.select true] := by
  obtain ⟨all, rest, rfl, hent, hrest⟩ := h.head hAll
  obtain ⟨role, hrole, hname, hsel⟩ := hsel
  -- the All entry is the first one
  obtain rfl : role = all := by
    rcases List.mem_cons.1 hrole with h | h
    exacts [h, absurd hname (hrest role h).2]
  rw [getSelectedFilters_cons, if_pos hsel]
  obtain ⟨id, name, isSelected⟩ := role
  cases hent
  cases hsel
  rfl

/-- If All comes first and is not selected, Save passes on the selected entries. -/
theorem selected_roles (hAll : ∀ hero ∈ masterHeroes, ∀ role ∈ hero.roles, "All" ≤ role)
    (hnone : ∀ role ∈ roles, role.name = "All" → role.isSelected = false) :
    getSelectedFilters roles = roles.filter fun role => role.isSelected := by
  obtain ⟨all, rest, rfl, hent, -⟩ := h.head hAll
  have hall : all.isSelected = false := hnone all List.mem_cons_self (congrArg Prod.snd hent)
  rw [getSelectedFilters_cons, hall]
  rfl

end Opened

/-! ## Save -/

theorem getSelectedFilters_ne_nil {roles : List RoleFilter}
    (h : ∃ role ∈ roles, role.isSelected = true) : getSelectedFilters roles ≠ [] := by
  rw [Ne, getSelectedFilters_eq_nil_iff]
  obtain ⟨role, hrole, hsel⟩ := h
  exact fun hnone => by simp [hnone role hrole] at hsel

/-- **The filter works end to end.**  Save with nothing selected changes nothing; with All selected
    it shows the master list in place; otherwise it shows each hero of that list with a selected
    role once, and no other. -/
theorem filter_end_to_end (S : Sorter) (i : HeroListInteractor)
    (hAll : ∀ hero ∈ i.masterHeroes, ∀ role ∈ hero.roles, "All" ≤ role) (taps : List (ℕ × Bool))
    (s : App) (hids : (s.interactor.masterHeroes.map Hero.id).Nodup) :
    ∃ opened roles, getRoles S i = some opened ∧ Runs.run tap opened taps = some roles ∧
      ((∀ role ∈ roles, role.isSelected = false) → s.saveButtonTapped roles = s) ∧
      ((∃ role ∈ roles, role.name = "All" ∧ role.isSelected = true) →
        (s.saveButtonTapped roles).interactor.obsHeroes = s.interactor.masterHeroes ∧
        (s.saveButtonTapped roles).interactor.obsActiveFilters = [allFilter.select true]) ∧
      ((∃ role ∈ roles, role.isSelected = true) →
        (∀ role ∈ roles, role.name = "All" → role.isSelected = false) →
        (∀ hero, (s.saveButtonTapped roles).interactor.obsHeroes.count hero =
          if hero ∈ s.interactor.masterHeroes ∧
            ∃ role ∈ roles, role.isSelected = true ∧ role.name ∈ hero.roles then 1 else 0) ∧
        (s.saveButtonTapped roles).interactor.obsActiveFilters =
          roles.filter fun role => role.isSelected) := by
  obtain ⟨opened, roles, hopened, hroles, hopen⟩ := opened_taps S i taps
  refine ⟨opened, roles, hopened, hroles, fun hnone => ?_, fun hsel => ?_, fun hsome hnone => ?_⟩
  · exact saveButtonTapped_alert ((getSelectedFilters_eq_nil_iff roles).2 hnone) s
  · have hget := hopen.selected_all hAll hsel
    have hwide : ¬ Narrowing [allFilter.select true] := by decide
    rw [saveButtonTapped_filters (hget ▸ List.cons_ne_nil _ _), hget]
    exact ⟨shown_not_narrowing hwide _, rfl⟩
  · have hget := hopen.selected_roles hAll hnone
    have hne : getSelectedFilters roles ≠ [] := getSelectedFilters_ne_nil hsome
    have hnar : Narrowing (getSelectedFilters roles) := by
      refine narrowing_of_unselected hne fun f hf hid => ?_
      have hmem := (mem_getSelectedFilters hf).1
      exact hnone f hmem ((hopen.id_eq_zero_iff hmem).1 hid)
    rw [saveButtonTapped_filters hne]
    refine ⟨fun hero => ?_, hget⟩
    rw [count_shown hnar hids, hget]
    simp only [List.mem_filter, and_assoc]

/-- All is tapped off and Disabler on, and Save shows Bloodseeker, once. -/
theorem filter_end_to_end_antiMage :
    let s : App := { interactor := { masterHeroes := [antiMage, bloodseeker] } }
    let roles : List RoleFilter := [⟨0, "All", false⟩, ⟨10, "Carry", false⟩,
      ⟨21, "Disabler", true⟩, ⟨11, "Escape", false⟩, ⟨24, "Initiator", false⟩,
      ⟨22, "Jungler", false⟩, ⟨12, "Nuker", false⟩]
    ∃ opened, getRoles Sorter.insertion s.interactor = some opened ∧
      Runs.run tap opened [(0, false), (2, true)] = some roles ∧
      (∀ hero, (s.saveButtonTapped roles).interactor.obsHeroes.count hero =
        if hero ∈ s.interactor.masterHeroes ∧
          ∃ role ∈ roles, role.isSelected = true ∧ role.name ∈ hero.roles then 1 else 0) ∧
      (s.saveButtonTapped roles).interactor.obsActiveFilters = [⟨21, "Disabler", true⟩] := by
  intro s roles
  obtain ⟨opened, roles', hopened, hroles, -, -, hsome⟩ := filter_end_to_end Sorter.insertion
    s.interactor (by decide) [(0, false), (2, true)] s (by decide)
  have htapped : ((getRoles Sorter.insertion s.interactor).bind fun opened =>
      Runs.run tap opened [(0, false), (2, true)]) = some roles := by decide
  rw [hopened, Option.bind_some, hroles] at htapped
  obtain rfl := Option.some.inj htapped
  obtain ⟨hcount, hfilters⟩ := hsome (by decide) (by decide)
  exact ⟨opened, hopened, hroles, hcount, hfilters⟩

/-! ## Opening the screen again -/

/-- The screen with only its first entry selected. -/
def onlyFirst : List RoleFilter → List RoleFilter
  | [] => []
  | all :: rest => all.select true :: rest.map (RoleFilter.select false)

theorem select_self {f : RoleFilter} {b : Bool} (h : f.isSelected = b) : f.select b = f := by
  cases f; cases h; rfl

/-- Setting flags by name only reads what taps keep. -/
theorem map_select_of_entries (g : String → Bool) {fs gs : List RoleFilter}
    (h : fs.map RoleFilter.entry = gs.map RoleFilter.entry) :
    (fs.map fun f => f.select (g f.name)) = gs.map fun f => f.select (g f.name) := by
  have := congrArg (List.map fun e : Int × String => (⟨e.1, e.2, g e.2⟩ : RoleFilter)) h
  rw [List.map_map, List.map_map] at this
  exact this

/-- With just the first entry saved, only the first entry comes back selected. -/
theorem map_select_first {all : RoleFilter} {rest : List RoleFilter}
    (hnd : ((all :: rest).map RoleFilter.name).Nodup) (hall : all.isSelected = true) :
    ((all :: rest).map fun f => f.select (activeFlag [all] f.name)) = onlyFirst (all :: rest) := by
  have hiff := activeFlag_iff fun f (hf : f ∈ [all]) => List.mem_singleton.1 hf ▸ hall
  rw [List.map_cons, List.nodup_cons] at hnd
  rw [onlyFirst, List.map_cons, (hiff all.name).2 ⟨all, List.mem_singleton_self all, rfl⟩]
  congr 1
  refine List.map_congr_left fun f hf => ?_
  rw [Bool.eq_false_iff.2 (mt (hiff f.name).1 ?_)]
  rintro ⟨g, hg, hname⟩
  rw [List.mem_singleton.1 hg] at hname
  exact hnd.1 (hname ▸ List.mem_map_of_mem hf)

/-- With the selected entries saved, which are known by their names, all flags come back. -/
theorem map_select_selected {roles : List RoleFilter} (hnd : (roles.map RoleFilter.name).Nodup) :
    (roles.map fun f =>
      f.select (activeFlag (roles.filter fun role => role.isSelected) f.name)) = roles := by
  have hiff := activeFlag_iff fun f (hf : f ∈ roles.filter fun role => role.isSelected) =>
    (List.mem_filter.1 hf).2
  refine (List.map_congr_left fun f hf => ?_).trans (List.map_id _)
  refine select_self (Bool.eq_iff_iff.2 ((hiff f.name).trans ⟨?_, fun h => ?_⟩).symm)
  · rintro ⟨g, hg, hname⟩
    obtain ⟨hg, hgsel⟩ := List.mem_filter.1 hg
    rwa [← List.inj_on_of_nodup_map hnd hg hf hname]
  · exact ⟨f, List.mem_filter.2 ⟨hf, h⟩, rfl⟩

/-- What the screen shows when it is opened again after Save. -/
theorem getRoles_saved {i : HeroListInteractor} {roles : List RoleFilter}
    (h : Opened S i.masterHeroes roles) (hsel : ∃ role ∈ roles, role.isSelected = true) :
    getRoles S (filterHeroes (getSelectedFilters roles) i) = some (roles.map fun f =>
      f.select (activeFlag (getSelectedFilters roles) f.name)) := by
  have hne : getSelectedFilters roles ≠ [] := getSelectedFilters_ne_nil hsel
  rw [filterHeroes_eq hne, getRoles_active hne]
  exact congrArg some (map_select_of_entries _ h).symm

/-- **A saved selection returns**: the same entries, with the same flags if the first entry was not
    selected, and with only the first entry selected if it was. -/
theorem saved_selection_returns (S : Sorter) (i : HeroListInteractor) (taps : List (ℕ × Bool)) :
    ∃ opened roles, getRoles S i = some opened ∧ Runs.run tap opened taps = some roles ∧
      ((∃ role ∈ roles, role.isSelected = true) →
        getRoles S (filterHeroes (getSelectedFilters roles) i) =
          some (if flag roles 0 then onlyFirst roles else roles)) := by
  obtain ⟨opened, roles, hopened, hroles, hopen⟩ := opened_taps S i taps
  refine ⟨opened, roles, hopened, hroles, fun hsel => ?_⟩
  rw [getRoles_saved hopen hsel]
  congr 1
  have hnd := hopen.nodup_map_name
  cases roles with
  | nil => exact absurd rfl hopen.ne_nil
  | cons all rest =>
    rw [flag_cons_zero, getSelectedFilters_cons]
    split_ifs with hall
    · exact map_select_first hnd hall
    · exact map_select_selected hnd

/-- A tap on All selects every role; after Save only All comes back selected. -/
theorem saved_all_returns_alone :
    let i : HeroListInteractor := { masterHeroes := [antiMage] }
    ∃ opened roles reopened, getRoles Sorter.insertion i = some opened ∧
      Runs.run tap opened [(0, true)] = some roles ∧
      (∃ role ∈ roles, role.isSelected = true) ∧
      getRoles Sorter.insertion (filterHeroes (getSelectedFilters roles) i) = some reopened ∧
      roles.map (fun role => role.isSelected) = [true, true, true, true] ∧
      reopened.map (fun role => role.isSelected) = [true, false, false, false] ∧
      reopened ≠ roles := by
  refine ⟨_, _, _, rfl, rfl, ?_, rfl, ?_, ?_, ?_⟩ <;> decide

end HeroQ
