/-
  The filter screen refines a set of chosen roles with a derived All.

  Entry 0 of the screen stands for All and the others for roles.  A tap writes to the flags of the
  roles (`tapWrite`): a tap on entry 0 to all of them, a tap on a role to its own.  The code keeps
  the flag of entry 0 by counting; `tap_all` and `tap_role` say that after any tap within the
  screen it is selected iff all roles are, and `taps_refine` that the flags of the roles are
  registers in which the last tap wins.
-/
import HeroQ.FilterInteractor
import HeroQ.Lib.Runs
import HeroQ.Lib.LastWrite

namespace HeroQ

open FilterInteractor

/-- What a tap does not change of an entry. -/
def RoleFilter.entry (f : RoleFilter) : Int × String := (f.id, f.name)

@[simp] theorem RoleFilter.select_entry (b : Bool) (f : RoleFilter) :
    (f.select b).entry = f.entry := rfl

/-- Whether the entry `k` is on the screen and selected. -/
def flag (roles : List RoleFilter) (k : ℕ) : Bool :=
  (roles[k]?.map fun role => role.isSelected).getD false

/-- All is derived: entry 0 is selected iff all the others are. -/
def AllDerived (roles : List RoleFilter) : Prop :=
  flag roles 0 = true ↔ ∀ k, 1 ≤ k → k < roles.length → flag roles k = true

/-- What a tap on a screen of `n` entries writes to the flag of the entry `k ≥ 1`. -/
def tapWrite (n : ℕ) (t : ℕ × Bool) (k : ℕ) : Option Bool :=
  if t.1 < n ∧ (t.1 = 0 ∨ t.1 = k) then some t.2 else none

@[simp] theorem flag_cons_succ (f : RoleFilter) (roles : List RoleFilter) (k : ℕ) :
    flag (f :: roles) (k + 1) = flag roles k := rfl

@[simp] theorem flag_cons_zero (f : RoleFilter) (roles : List RoleFilter) :
    flag (f :: roles) 0 = f.isSelected := rfl

theorem flag_eq_getElem {roles : List RoleFilter} {k : ℕ} (hk : k < roles.length) :
    flag roles k = roles[k].isSelected := by
  simp [flag, hk]

theorem all_isSelected_iff {roles : List RoleFilter} :
    roles.all (fun role => role.isSelected) = true ↔ ∀ k < roles.length, flag roles k = true := by
  rw [List.all_eq_true]
  constructor
  · intro h k hk
    rw [flag_eq_getElem hk]
    exact h _ (List.getElem_mem hk)
  · intro h role hrole
    obtain ⟨k, hk, rfl⟩ := List.getElem_of_mem hrole
    rw [← flag_eq_getElem hk]
    exact h k hk

theorem allDerived_cons {all : RoleFilter} {rest : List RoleFilter} :
    AllDerived (all :: rest) ↔ all.isSelected = rest.all fun role => role.isSelected := by
  rw [Bool.eq_iff_iff, all_isSelected_iff, AllDerived, flag_cons_zero]
  refine iff_congr Iff.rfl ⟨fun h k hk => ?_, fun h k hk hlt => ?_⟩
  · exact h (k + 1) (by omega) (by simpa using hk)
  · obtain ⟨k, rfl⟩ : ∃ j, k = j + 1 := ⟨k - 1, by omega⟩
    exact h k (by simpa using hlt)

theorem setSelected_zero (all : RoleFilter) (rest : List RoleFilter) (b : Bool) :
    setSelected (all :: rest) 0 b = some (all.select b :: rest) :=
  Loops.update_append [] all rest _

theorem setSelected_succ (all : RoleFilter) {rest : List RoleFilter} {k : ℕ}
    (hk : k < rest.length) (b : Bool) :
    setSelected (all :: rest) ((k + 1 : ℕ) : Int) b =
      some (all :: rest.modify k (RoleFilter.select b)) := by
  rw [setSelected, Loops.update_nat (by simpa using hk), List.modify_succ_cons]

/-! ## What a tap does -/

/-- A tap past the end of the screen does nothing. -/
theorem tap_out {roles : List RoleFilter} {t : ℕ × Bool} (h : roles.length ≤ t.1) :
    tap roles t = some roles := by
  rw [tap, didRoleButtonTapped, if_neg (by omega)]

/-- A tap on entry 0 sets every flag. -/
theorem tap_all (all : RoleFilter) (rest : List RoleFilter) (b : Bool) :
    tap (all :: rest) (0, b) = some ((all :: rest).map (RoleFilter.select b)) := by
  rw [tap, didRoleButtonTapped, if_pos (by simp), if_pos (by rfl)]
  have := Loops.forEach_update (fun _ => true) (RoleFilter.select b) (all :: rest)
  simpa only [if_true, setSelected] using this

/-- Clearing All makes its flag false, whatever it was. -/
theorem clearAll_cons (all : RoleFilter) (rest : List RoleFilter) :
    clearAll (all :: rest) = some (all.select false :: rest) := by
  simp only [clearAll, List.head?_cons]
  split_ifs with h
  · exact setSelected_zero all rest false
  · cases all; rw [Bool.not_eq_true] at h; cases h; rfl

/-- With All cleared, the count is that of the roles. -/
theorem promoteAll_cons {all : RoleFilter} (hall : all.isSelected = false)
    (rest : List RoleFilter) :
    promoteAll (all :: rest) = some (all.select (rest.all fun role => role.isSelected) :: rest) := by
  have hcount : ((rest.filter fun role => role.isSelected).length : Int) =
      ((all :: rest).length : Int) - 1 ↔ (rest.all fun role => role.isSelected) = true := by
    have hlen := List.length_filter_eq_length_iff (p := fun role => role.isSelected) (l := rest)
    rw [List.all_eq_true, ← hlen, List.length_cons]
    omega
  rw [promoteAll, List.filter_cons_of_neg (by simp [hall])]
  by_cases h : (rest.all fun role => role.isSelected) = true
  · rw [if_pos (hcount.2 h), setSelected_zero, h]
  · rw [if_neg (mt hcount.1 h), Bool.eq_false_iff.2 h]
    cases all; cases hall; rfl

/-- **A tap on a role sets its flag**, and the flag of entry 0 to whether all roles are selected
    then. -/
theorem tap_role (all : RoleFilter) {rest : List RoleFilter} {k : ℕ} (hk : k < rest.length)
    (b : Bool) :
    tap (all :: rest) (k + 1, b) =
      some (all.select ((rest.modify k (RoleFilter.select b)).all fun role => role.isSelected) ::
        rest.modify k (RoleFilter.select b)) := by
  rw [tap, didRoleButtonTapped, if_pos (by simp; omega), if_neg (by simp; omega),
    setSelected_succ all hk b]
  simp only [Option.bind_eq_bind, Option.bind_some, clearAll_cons]
  rw [promoteAll_cons (RoleFilter.select_isSelected false all)]
  rfl

/-- Everything a tap can do. -/
theorem tap_cases (roles : List RoleFilter) (t : ℕ × Bool) :
    (roles.length ≤ t.1 ∧ tap roles t = some roles) ∨
    (∃ all rest b, roles = all :: rest ∧ t = (0, b) ∧
      tap roles t = some ((all :: rest).map (RoleFilter.select b))) ∨
    (∃ all rest k b, roles = all :: rest ∧ t = (k + 1, b) ∧ k < rest.length ∧
      tap roles t = some
        (all.select ((rest.modify k (RoleFilter.select b)).all fun role => role.isSelected) ::
          rest.modify k (RoleFilter.select b))) := by
  rcases Nat.lt_or_ge t.1 roles.length with h | h
  · obtain ⟨k, b⟩ := t
    cases roles with
    | nil => simp at h
    | cons all rest =>
      cases k with
      | zero => exact Or.inr (Or.inl ⟨all, rest, b, rfl, rfl, tap_all all rest b⟩)
      | succ k =>
        have hk : k < rest.length := by simpa using h
        exact Or.inr (Or.inr ⟨all, rest, k, b, rfl, rfl, hk, tap_role all hk b⟩)
  · exact Or.inl ⟨h, tap_out h⟩

theorem flag_modify (rest : List RoleFilter) (j k : ℕ) (b : Bool) (hk : k < rest.length) :
    flag (rest.modify j (RoleFilter.select b)) k = if j = k then b else flag rest k := by
  rw [flag_eq_getElem (by simpa using hk), List.getElem_modify]
  split_ifs
  · rfl
  · rw [flag_eq_getElem hk]

theorem map_entry_modify (rest : List RoleFilter) (j : ℕ) (b : Bool) :
    (rest.modify j (RoleFilter.select b)).map RoleFilter.entry = rest.map RoleFilter.entry := by
  refine List.ext_getElem (by simp) fun k h₁ h₂ => ?_
  rw [List.getElem_map, List.getElem_map, List.getElem_modify]
  split_ifs <;> rfl

/-- A tap never traps, keeps the entries, and writes to the flags of the roles. -/
theorem tap_spec (roles : List RoleFilter) (t : ℕ × Bool) :
    ∃ roles', tap roles t = some roles' ∧
      roles'.map RoleFilter.entry = roles.map RoleFilter.entry ∧
      ∀ k, 1 ≤ k → k < roles.length →
        flag roles' k = (tapWrite roles.length t k).getD (flag roles k) := by
  rcases tap_cases roles t with ⟨h, ht⟩ | ⟨all, rest, b, rfl, rfl, ht⟩ |
      ⟨all, rest, j, b, rfl, rfl, hj, ht⟩
  · refine ⟨_, ht, rfl, fun k _ _ => ?_⟩
    rw [tapWrite, if_neg (by omega)]; rfl
  · refine ⟨_, ht, by simp [Function.comp_def], fun k _ hk => ?_⟩
    rw [tapWrite, if_pos ⟨by simp, Or.inl rfl⟩, flag_eq_getElem (by simpa using hk),
      List.getElem_map]
    rfl
  · refine ⟨_, ht, by simp [map_entry_modify], fun k h1 hk => ?_⟩
    obtain ⟨k, rfl⟩ : ∃ i, k = i + 1 := ⟨k - 1, by omega⟩
    have hk' : k < rest.length := by simpa using hk
    rw [flag_cons_succ, flag_cons_succ, flag_modify rest j k b hk', tapWrite]
    by_cases hjk : j = k
    · subst hjk; simp [hj]
    · simp [hjk]

/-- A tap within the screen leaves All derived, whether or not it was before. -/
theorem tap_derived {roles roles' : List RoleFilter} {t : ℕ × Bool} (h2 : 2 ≤ roles.length)
    (hin : t.1 < roles.length) (h : tap roles t = some roles') : AllDerived roles' := by
  rcases tap_cases roles t with ⟨hout, -⟩ | ⟨all, rest, b, rfl, rfl, ht⟩ |
      ⟨all, rest, j, b, rfl, rfl, hj, ht⟩
  · omega
  · obtain rfl := Option.some.inj (ht.symm.trans h)
    rw [List.map_cons, allDerived_cons, List.all_map]
    -- `rest` is not empty
    cases rest with
    | nil => simp at h2
    | cons role rest => cases b <;> simp [Function.comp_def]
  · obtain rfl := Option.some.inj (ht.symm.trans h)
    exact allDerived_cons.2 rfl

/-! ## What any sequence of taps does -/

/-- **The screen refines registers for the roles**, in which the last tap wins. -/
theorem taps_refine (roles : List RoleFilter) (taps : List (ℕ × Bool)) :
    ∃ roles', Runs.run tap roles taps = some roles' ∧
      roles'.map RoleFilter.entry = roles.map RoleFilter.entry ∧
      ∀ k, 1 ≤ k → k < roles.length → flag roles' k =
        (LastWrite.last (tapWrite roles.length) taps k).getD (flag roles k) := by
  let R (roles₁ : List RoleFilter) (c : ℕ → Bool) : Prop :=
    roles₁.map RoleFilter.entry = roles.map RoleFilter.entry ∧
      ∀ k, 1 ≤ k → k < roles.length → flag roles₁ k = c k
  have hstep : ∀ roles₁ c t, R roles₁ c → ∃ roles₂, tap roles₁ t = some roles₂ ∧
      R roles₂ (LastWrite.apply (tapWrite roles.length) c t) := by
    rintro roles₁ c t ⟨hent, hflag⟩
    have hlen : roles₁.length = roles.length := by simpa using congrArg List.length hent
    obtain ⟨roles₂, ht, hent', hflag'⟩ := tap_spec roles₁ t
    refine ⟨roles₂, ht, hent'.trans hent, fun k h1 hk => ?_⟩
    rw [hflag' k h1 (hlen ▸ hk), hflag k h1 hk, hlen]
    rfl
  obtain ⟨roles', hrun, hent, hflag⟩ :=
    Runs.run_simulates _ R hstep taps roles (flag roles) ⟨rfl, fun _ _ _ => rfl⟩
  refine ⟨roles', hrun, hent, fun k h1 hk => ?_⟩
  rw [hflag k h1 hk, LastWrite.foldl_apply]

/-- No sequence of taps changes the entries. -/
theorem taps_entries {roles roles' : List RoleFilter} {taps : List (ℕ × Bool)}
    (h : Runs.run tap roles taps = some roles') :
    roles'.map RoleFilter.entry = roles.map RoleFilter.entry := by
  obtain ⟨roles'', hrun, hent, -⟩ := taps_refine roles taps
  obtain rfl : roles' = roles'' := Option.some.inj (h.symm.trans hrun)
  exact hent

/-- After a tap within the screen, All stays derived. -/
theorem taps_derived {roles : List RoleFilter} (h2 : 2 ≤ roles.length) :
    ∀ taps roles', Runs.run tap roles taps = some roles' → (∃ t ∈ taps, t.1 < roles.length) →
      AllDerived roles' := by
  refine Runs.run_induct (I := fun (taps : List (ℕ × Bool)) roles' =>
    (∃ t ∈ taps, t.1 < roles.length) → AllDerived roles') (by simp) ?_
  intro past t roles₁ roles₂ hrun ht ih hin
  have hlen : roles₁.length = roles.length := by
    simpa using congrArg List.length (taps_entries hrun)
  by_cases hlt : t.1 < roles.length
  · exact tap_derived (by omega) (by omega) ht
  · rw [tap_out (by omega)] at ht
    obtain rfl := Option.some.inj ht
    obtain ⟨t', ht', hlt'⟩ := hin
    rcases List.mem_append.1 ht' with h | h
    · exact ih ⟨t', h, hlt'⟩
    · rw [List.mem_singleton.1 h] at hlt'; omega

/-! ## What Save sees -/

theorem getSelectedFilters_cons (all : RoleFilter) (rest : List RoleFilter) :
    getSelectedFilters (all :: rest) =
      if all.isSelected then [all] else (all :: rest).filter fun role => role.isSelected := by
  have hloop : ∀ (roles acc : List RoleFilter),
      roles.foldl (fun filters role => if role.isSelected then filters ++ [role] else filters) acc =
        acc ++ roles.filter fun role => role.isSelected := by
    intro roles
    induction roles with
    | nil => intro acc; simp
    | cons role roles ih =>
      intro acc
      rw [List.foldl_cons, ih]
      by_cases h : role.isSelected <;> simp [h]
  simp only [getSelectedFilters, List.head?_cons, hloop, List.nil_append]

/-- Save passes nothing on iff nothing is selected. -/
theorem getSelectedFilters_eq_nil_iff (roles : List RoleFilter) :
    getSelectedFilters roles = [] ↔ ∀ role ∈ roles, role.isSelected = false := by
  cases roles with
  | nil => simp [getSelectedFilters]
  | cons all rest =>
    rw [getSelectedFilters_cons]
    split_ifs with h
    · simp [h]
    · rw [List.filter_eq_nil_iff]
      simp only [Bool.not_eq_true]

/-- Every filter passed on is a selected entry of the screen. -/
theorem mem_getSelectedFilters {roles : List RoleFilter} {f : RoleFilter}
    (h : f ∈ getSelectedFilters roles) : f ∈ roles ∧ f.isSelected = true := by
  cases roles with
  | nil => simp [getSelectedFilters] at h
  | cons all rest =>
    rw [getSelectedFilters_cons] at h
    split_ifs at h with hall
    · rw [List.mem_singleton.1 h]
      exact ⟨List.mem_cons_self, hall⟩
    · exact List.mem_filter.1 h

/-- **The filter screen refines a set of chosen roles with a derived All**, and Save passes on just
    All or the selected entries. -/
theorem filterScreen_refines (roles : List RoleFilter) (h2 : 2 ≤ roles.length)
    (taps : List (ℕ × Bool)) (hin : ∃ t ∈ taps, t.1 < roles.length) :
    (∃ roles', Runs.run tap roles taps = some roles' ∧
      roles'.map RoleFilter.entry = roles.map RoleFilter.entry ∧
      (∀ k, 1 ≤ k → k < roles.length → flag roles' k =
        (LastWrite.last (tapWrite roles.length) taps k).getD (flag roles k)) ∧
      AllDerived roles') ∧
    (∀ (screen : List RoleFilter) (t : ℕ × Bool), screen.length ≤ t.1 → tap screen t = some screen) ∧
    (∀ screen : List RoleFilter,
      getSelectedFilters screen =
        (if flag screen 0 then screen.take 1 else screen.filter fun role => role.isSelected) ∧
      (getSelectedFilters screen = [] ↔ ∀ role ∈ screen, role.isSelected = false)) := by
  refine ⟨?_, fun screen t h => tap_out h, fun screen => ⟨?_, getSelectedFilters_eq_nil_iff screen⟩⟩
  · obtain ⟨roles', hrun, hent, hflag⟩ := taps_refine roles taps
    exact ⟨roles', hrun, hent, hflag, taps_derived h2 taps roles' hrun hin⟩
  · cases screen with
    | nil => rfl
    | cons all rest => rw [getSelectedFilters_cons, flag_cons_zero]; rfl

theorem filterScreen_refines_two :
    ∃ roles', Runs.run tap [⟨0, "All", true⟩, ⟨10, "Carry", false⟩] [(1, true), (7, false)] =
      some roles' ∧ flag roles' 1 = true ∧ AllDerived roles' := by
  obtain ⟨roles', hrun, -, hflag, hall⟩ := (filterScreen_refines
    [⟨0, "All", true⟩, ⟨10, "Carry", false⟩] (by decide) [(1, true), (7, false)] (by decide)).1
  exact ⟨roles', hrun, hflag 1 (by decide) (by decide), hall⟩

end HeroQ
