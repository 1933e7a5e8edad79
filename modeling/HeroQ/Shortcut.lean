/-
  The All shortcut against filtering by every role.

  Filtering by every entry of the screen shows the ids of the heroes that have a role
  (`everyRole_shows`).  Once every role is selected, the screen selects its first entry and Save
  passes on just that one (`promoted_selected`): if it is All, the whole master list is shown, which
  differs in no id but those of heroes without roles.  `all_shortcut_iff` says when this is so.
-/
import HeroQ.Save

namespace HeroQ

open HeroListInteractor FilterInteractor

variable {S : Sorter} {i : HeroListInteractor}

/-! ## Filtering by every role -/

/-- All entries of `getRoles`, in any order and with any flags, but with All unselected. -/
def EveryRole (S : Sorter) (i : HeroListInteractor) (filters : List RoleFilter) : Prop :=
  ∃ roles, getRoles S i = some roles ∧
    (filters.map RoleFilter.entry).Perm (roles.map RoleFilter.entry) ∧
    ∀ f ∈ filters, f.name = "All" → f.isSelected = false

theorem EveryRole.entries {filters : List RoleFilter} (h : EveryRole S i filters) :
    (filters.map RoleFilter.entry).Perm ((offered S i.masterHeroes).map RoleFilter.entry) := by
  obtain ⟨roles, hroles, hperm, -⟩ := h
  exact entries_of_getRoles hroles ▸ hperm

theorem EveryRole.mem_name {filters : List RoleFilter} (h : EveryRole S i filters)
    {name : String} : name ∈ filters.map RoleFilter.name ↔
      name = "All" ∨ ∃ hero ∈ i.masterHeroes, name ∈ hero.roles := by
  have hnames := h.entries.map Prod.snd
  rw [List.map_map, List.map_map] at hnames
  rw [← mem_map_name_offered (S := S)]
  exact hnames.mem_iff

/-- Filtering by every role narrows the list: All does not head it as a selected entry. -/
theorem EveryRole.narrowing {filters : List RoleFilter} (h : EveryRole S i filters) :
    Narrowing filters := by
  have hne : filters ≠ [] := by
    rintro rfl
    exact List.not_mem_nil (h.mem_name.2 (Or.inl rfl))
  refine narrowing_of_unselected hne fun f hf hid => ?_
  have hname := (id_eq_zero_of_entry (h.entries.subset (List.mem_map_of_mem hf))).1 hid
  obtain ⟨-, -, -, hunselected⟩ := h
  exact hunselected f hf hname

/-- **Filtering by every role** shows the ids of the heroes that have a role. -/
theorem everyRole_shows {filters : List RoleFilter} (h : EveryRole S i filters) (id : Int) :
    id ∈ (filterHeroes filters i).obsHeroes.map Hero.id ↔
      ∃ hero ∈ i.masterHeroes, hero.roles ≠ [] ∧ hero.id = id := by
  have hrole : ∀ hero ∈ i.masterHeroes, (∃ f ∈ filters, f.name ∈ hero.roles) ↔ hero.roles ≠ [] := by
    intro hero hh
    constructor
    · rintro ⟨f, -, hf⟩
      exact List.ne_nil_of_mem hf
    · intro hne
      obtain ⟨role, hin⟩ := List.exists_mem_of_ne_nil _ hne
      obtain ⟨f, hf, rfl⟩ := List.mem_map.1 (h.mem_name.2 (Or.inr ⟨hero, hh, hin⟩))
      exact ⟨f, hf, hin⟩
  rw [filterHeroes_eq h.narrowing.1, mem_ids_shown h.narrowing]
  exact exists_congr fun hero => and_congr_right fun hh => and_congr_left' (hrole hero hh)

/-! ## The promotion to All -/

/-- A screen on which a tap on a role has just made every role selected. -/
def Promoted (S : Sorter) (i : HeroListInteractor) (screen : List RoleFilter) : Prop :=
  ∃ opened taps row isSelected, getRoles S i = some opened ∧ 1 ≤ row ∧ row < opened.length ∧
    Runs.run tap opened (taps ++ [(row, isSelected)]) = some screen ∧
    ∀ k, 1 ≤ k → k < screen.length → flag screen k = true

section
variable {first : RoleFilter} {rest : List RoleFilter}
  (hoff : offered S i.masterHeroes = first :: rest)
include hoff

/-- **The screen selects its first entry** then, and Save passes on just that one. -/
theorem promoted_selected {screen : List RoleFilter} (h : Promoted S i screen) :
    getSelectedFilters screen = [first.select true] := by
  obtain ⟨opened, taps, row, isSelected, hopened, hpos, hrow, hrun, hflags⟩ := h
  have hent : screen.map RoleFilter.entry = (offered S i.masterHeroes).map RoleFilter.entry :=
    opened_of_run hopened hrun
  have hfirst : flag screen 0 = true :=
    (taps_derived (by omega) _ screen hrun ⟨(row, isSelected), by simp, hrow⟩).2 hflags
  rw [hoff] at hent
  cases screen with
  | nil => cases hent
  | cons all others =>
    rw [flag_cons_zero] at hfirst
    rw [getSelectedFilters_cons, if_pos hfirst]
    obtain ⟨id, name, flag⟩ := all
    obtain ⟨hid, hname⟩ : id = first.id ∧ name = first.name := by
      simpa [RoleFilter.entry] using (List.cons.inj hent).1
    cases hid
    cases hname
    cases hfirst
    rfl

/-- If there is a second entry, selecting All and then the second entry again is such a tap. -/
theorem exists_promoted (hrest : rest ≠ []) : ∃ screen, Promoted S i screen := by
  obtain ⟨opened, hopened, hent⟩ := getRoles_entries S i
  have hlen : opened.length = rest.length + 1 := by
    simpa [hoff] using congrArg List.length hent
  have hpos : 0 < rest.length := List.length_pos_iff.2 hrest
  obtain ⟨screen, hrun, hent', hflags⟩ := taps_refine opened ([(0, true)] ++ [(1, true)])
  have hlen' : screen.length = opened.length := by simpa using congrArg List.length hent'
  refine ⟨screen, opened, [(0, true)], 1, true, hopened, le_rfl, by omega, hrun, ?_⟩
  intro k h1 hk
  -- the first tap selects every role, and the second one its own again
  have hall : LastWrite.last (tapWrite opened.length) [(0, true)] k = some true := by
    have hn : 0 < opened.length := by omega
    simp [LastWrite.last, tapWrite, hn]
  rw [hflags k h1 (hlen' ▸ hk), LastWrite.last_snoc, hall, tapWrite]
  split_ifs <;> rfl

end

/-- Saving one selected filter shows the master list iff the filter is All, or the ids are distinct
    and all heroes have its role. -/
theorem shown_first_iff {first : RoleFilter} (hzero : first.id = 0 ↔ first.name = "All")
    {masterHeroes : List Hero} :
    shown [first.select true] masterHeroes = masterHeroes ↔
      first.name = "All" ∨ ((masterHeroes.map Hero.id).Nodup ∧
        ∀ hero ∈ masterHeroes, first.name ∈ hero.roles) := by
  by_cases hname : first.name = "All"
  · refine iff_of_true (shown_not_narrowing ?_ _) (Or.inl hname)
    simp [Narrowing, headedByAll, hzero.2 hname]
  · have hnar : Narrowing [first.select true] := by
      simp [Narrowing, headedByAll, mt hzero.1 hname]
    rw [shown_narrowing hnar, List.map_singleton, or_iff_right hname]
    constructor
    · intro h
      refine ⟨h ▸ FirstOcc.nodup_anyOf Hero.id _ _, fun hero hh => ?_⟩
      obtain ⟨-, m, hm, hadm⟩ := FirstOcc.mem_of_mem_anyOf Hero.id (h.symm ▸ hh)
      rw [List.mem_singleton.1 hm] at hadm
      exact admits_iff.1 hadm
    · rintro ⟨hids, hall⟩
      have hfilter : masterHeroes.filter (admits (first.select true)) = masterHeroes :=
        List.filter_eq_self.2 fun hero hh => admits_iff.2 (hall hero hh)
      rw [FirstOcc.anyOf_cons _ _ hids, FirstOcc.anyOf_nil, List.append_nil, hfilter]

/-! ## The two paths -/

/-- The list is the whole master list, and its ids differ from those that filtering by every role
    shows only in ids of heroes without roles. -/
def ShortcutAgrees (S : Sorter) (i : HeroListInteractor) (heroes : List Hero) : Prop :=
  heroes = i.masterHeroes ∧ ∀ filters, EveryRole S i filters → ∀ id,
    ¬ (id ∈ heroes.map Hero.id ↔ id ∈ (filterHeroes filters i).obsHeroes.map Hero.id) →
      ∃ hero ∈ i.masterHeroes, hero.roles = [] ∧ hero.id = id

/-- The whole master list agrees with filtering by every role. -/
theorem shortcutAgrees_iff {heroes : List Hero} :
    ShortcutAgrees S i heroes ↔ heroes = i.masterHeroes := by
  refine ⟨And.left, fun heq => ⟨heq, fun filters hfilters id hdiff => ?_⟩⟩
  rw [everyRole_shows hfilters, heq, List.mem_map] at hdiff
  by_contra hnone
  push Not at hnone
  refine hdiff ⟨?_, ?_⟩
  · rintro ⟨hero, hh, hid⟩
    exact ⟨hero, hh, fun hroles => hnone hero hh hroles hid, hid⟩
  · rintro ⟨hero, hh, -, hid⟩
    exact ⟨hero, hh, hid⟩

/-- No role sorts before All, or the role that sorts first is one of every hero, and the ids are
    distinct. -/
def FirstCovers (masterHeroes : List Hero) : Prop :=
  (∀ hero ∈ masterHeroes, ∀ role ∈ hero.roles, "All" ≤ role) ∨
    ((masterHeroes.map Hero.id).Nodup ∧
      ∃ first, ∀ hero ∈ masterHeroes, first ∈ hero.roles ∧ ∀ role ∈ hero.roles, first ≤ role)

theorem firstCovers_iff {first : RoleFilter} {rest : List RoleFilter}
    (hoff : offered S i.masterHeroes = first :: rest) :
    FirstCovers i.masterHeroes ↔ first.name = "All" ∨ ((i.masterHeroes.map Hero.id).Nodup ∧
      ∀ hero ∈ i.masterHeroes, first.name ∈ hero.roles) := by
  have hle : ∀ hero ∈ i.masterHeroes, ∀ role ∈ hero.roles, first.name ≤ role :=
    fun hero hh role hrole =>
      offered_head_le hoff (mem_map_name_offered.2 (Or.inr ⟨hero, hh, hrole⟩))
  unfold FirstCovers
  rw [← offered_head_iff hoff]
  by_cases hname : first.name = "All"
  · exact iff_of_true (Or.inl hname) (Or.inl hname)
  · rw [or_iff_right hname, or_iff_right hname]
    refine and_congr_right fun _ => ⟨?_, fun hall => ?_⟩
    · rintro ⟨role, hrole⟩ hero hh
      have hfirst : first.name ∈ (offered S i.masterHeroes).map RoleFilter.name := by simp [hoff]
      obtain ⟨hero₀, hh₀, hin⟩ := (mem_map_name_offered.1 hfirst).resolve_left hname
      have heq : role = first.name :=
        le_antisymm ((hrole hero₀ hh₀).2 _ hin) (hle hero₀ hh₀ role (hrole hero₀ hh₀).1)
      exact heq ▸ (hrole hero hh).1
    · exact ⟨first.name, fun hero hh => ⟨hall hero hh, hle hero hh⟩⟩

/-- **The All shortcut agrees with filtering by every role** iff the first entry is All, or its role
    is one of every hero: filtering by every role shows the ids of the heroes that have a role, and
    the promotion shows the whole master list. -/
theorem all_shortcut_iff (S : Sorter) (i : HeroListInteractor) :
    (∀ filters, EveryRole S i filters → ∀ id,
      id ∈ (filterHeroes filters i).obsHeroes.map Hero.id ↔
        ∃ hero ∈ i.masterHeroes, hero.roles ≠ [] ∧ hero.id = id) ∧
    ((∀ screen, Promoted S i screen →
        ShortcutAgrees S i (filterHeroes (getSelectedFilters screen) i).obsHeroes) ↔
      FirstCovers i.masterHeroes) := by
  refine ⟨fun filters hfilters => everyRole_shows hfilters, ?_⟩
  obtain ⟨first, rest, hoff⟩ := offered_ne_nil (S := S) i.masterHeroes
  have hfirst : first.entry ∈ (offered S i.masterHeroes).map RoleFilter.entry := by simp [hoff]
  have hzero : first.id = 0 ↔ first.name = "All" := id_eq_zero_of_entry hfirst
  have hshown : ∀ screen, Promoted S i screen →
      (ShortcutAgrees S i (filterHeroes (getSelectedFilters screen) i).obsHeroes ↔
        FirstCovers i.masterHeroes) := by
    intro screen h
    rw [shortcutAgrees_iff, promoted_selected hoff h, filterHeroes_eq (List.cons_ne_nil _ _),
      firstCovers_iff hoff]
    exact shown_first_iff hzero
  constructor
  · intro h
    by_cases hrest : rest = []
    · -- there is only one entry, so it is All
      have hall := allFilter_mem_offered (S := S) i.masterHeroes
      rw [hoff, hrest, List.mem_singleton] at hall
      exact (firstCovers_iff hoff).2 (Or.inl (hall ▸ rfl))
    · obtain ⟨screen, hscreen⟩ := exists_promoted hoff hrest
      exact (hshown screen hscreen).1 (h screen hscreen)
  · exact fun h screen hscreen => (hshown screen hscreen).2 h

/-- With a role Ace, the promotion selects Ace, and Save shows only the heroes with this role. -/
theorem promotion_selects_ace :
    let i : HeroListInteractor := { masterHeroes :=
      [{ antiMage with roles := ["Ace"] }, { bloodseeker with roles := ["Carry"] }] }
    let filters : List RoleFilter := [⟨10, "Ace", true⟩, ⟨0, "All", false⟩, ⟨20, "Carry", true⟩]
    ∃ screen, Promoted Sorter.insertion i screen ∧
      (filterHeroes (getSelectedFilters screen) i).obsHeroes.map Hero.id = [1] ∧
      EveryRole Sorter.insertion i filters ∧
      (filterHeroes filters i).obsHeroes.map Hero.id = [1, 4] ∧
      ¬ ShortcutAgrees Sorter.insertion i
        (filterHeroes (getSelectedFilters screen) i).obsHeroes := by
  refine ⟨[⟨10, "Ace", true⟩, ⟨0, "All", true⟩, ⟨20, "Carry", true⟩],
    ⟨_, [(1, true)], 2, true, rfl, by decide, by decide, by decide, by decide⟩, by decide,
    ⟨_, rfl, by decide, by decide⟩, by decide, fun h => ?_⟩
  exact absurd h.1 (by decide)

end HeroQ
