/-
  The buttons of the filter screen.

  A button has a state of its own: a tap toggles it and reports the new state, and the cell sets it
  to the flag of its entry when the collection view asks for the cell, which may be later.  So a
  button can show something else than its entry, but only if a tap elsewhere has written to the
  entry since (`stale_button`).  If the cells are set up again after every tap, a button is a toggle:
  only the parity of the taps on each role counts, and their order does not (`buttons_parity`).
-/
import HeroQ.FilterScreen

namespace HeroQ

open FilterInteractor

/-- The value of `obsRoles`, and `isSelected` of the button in each row. -/
structure FilterCell where
  obsRoles : List RoleFilter
  buttons : List Bool
  deriving DecidableEq, Repr

/-- What happens to the rows. -/
inductive ButtonEvent where
  /-- `collectionView(_:cellForItemAt:)` of `FilterCollectionViewCell` -/
  | cellForItemAt (row : ℕ)
  /-- `buttonTapped` of `ButtonCollectionViewCell` -/
  | buttonTapped (row : ℕ)
  deriving DecidableEq, Repr

def ButtonEvent.row : ButtonEvent → ℕ
  | .cellForItemAt row | .buttonTapped row => row

namespace FilterCell

/-- The screen as it opens. -/
def opened (obsRoles : List RoleFilter) : FilterCell :=
  ⟨obsRoles, obsRoles.map RoleFilter.isSelected⟩

/-- One event. -/
def step (s : FilterCell) : ButtonEvent → Option FilterCell
  | .cellForItemAt row =>
    match s.obsRoles[row]? with
    | some role => some { s with buttons := s.buttons.set row role.isSelected }
    | none => some s
  | .buttonTapped row =>
    match s.buttons[row]? with
    | some isSelected => (tap s.obsRoles (row, !isSelected)).map fun obsRoles =>
        ⟨obsRoles, s.buttons.set row !isSelected⟩
    | none => none

/-- What the button in the row shows. -/
def button (s : FilterCell) (row : ℕ) : Bool := s.buttons[row]?.getD false

/-- The button shows its entry. -/
def InSync (s : FilterCell) (row : ℕ) : Prop := s.button row = flag s.obsRoles row

theorem button_set {s : FilterCell} {row : ℕ} (hrow : row < s.buttons.length) (b : Bool)
    (roles : List RoleFilter) (k : ℕ) :
    (⟨roles, s.buttons.set row b⟩ : FilterCell).button k = if row = k then b else s.button k := by
  rw [button, List.getElem?_set, if_pos hrow]
  split_ifs <;> rfl

theorem inSync_opened (roles : List RoleFilter) (row : ℕ) : (opened roles).InSync row := by
  rw [InSync, button, opened, List.getElem?_map]
  rfl

end FilterCell

/-! ## What a tap writes -/

/-- A tap sets the flag of its own entry. -/
theorem tap_flag_self {roles roles' : List RoleFilter} {row : ℕ} {b : Bool}
    (hrow : row < roles.length) (h : tap roles (row, b) = some roles') : flag roles' row = b := by
  rcases tap_cases roles (row, b) with ⟨hout, -⟩ | ⟨all, rest, _, rfl, ⟨⟩, ht⟩ |
      ⟨all, rest, j, _, rfl, ⟨⟩, hj, ht⟩
  · exact absurd hrow (not_lt.2 hout)
  · obtain rfl := Option.some.inj (ht.symm.trans h)
    rfl
  · obtain rfl := Option.some.inj (ht.symm.trans h)
    rw [flag_cons_succ, flag_modify rest j j b hj, if_pos rfl]

/-- A tap on a role leaves the flags of the other roles. -/
theorem tap_flag_other {roles roles' : List RoleFilter} {row k : ℕ} {b : Bool}
    (h : tap roles (row, b) = some roles') (hrow : row ≠ 0) (hk : 1 ≤ k) (hlt : k < roles.length)
    (hne : row ≠ k) : flag roles' k = flag roles k := by
  obtain ⟨roles'', ht, -, hflag⟩ := tap_spec roles (row, b)
  obtain rfl : roles' = roles'' := Option.some.inj (h.symm.trans ht)
  rw [hflag k hk hlt, tapWrite, if_neg (by simp [hrow, hne])]
  rfl

theorem tap_entries {roles roles' : List RoleFilter} {t : ℕ × Bool}
    (h : tap roles t = some roles') :
    roles'.map RoleFilter.entry = roles.map RoleFilter.entry := by
  obtain ⟨roles'', ht, hent, -⟩ := tap_spec roles t
  obtain rfl : roles' = roles'' := Option.some.inj (h.symm.trans ht)
  exact hent

theorem tap_length {roles roles' : List RoleFilter} {t : ℕ × Bool}
    (h : tap roles t = some roles') : roles'.length = roles.length := by
  simpa using congrArg List.length (tap_entries h)

/-! ## Buttons that lag behind -/

namespace FilterCell

/-- There is a button for each entry. -/
def Rows (s : FilterCell) : Prop := s.buttons.length = s.obsRoles.length

theorem rows_opened (roles : List RoleFilter) : (opened roles).Rows := by simp [Rows, opened]

/-- A tap toggles the button, and gives its entry the state that the button shows then. -/
theorem step_tapped {s s' : FilterCell} {row : ℕ} (hrows : s.Rows)
    (h : step s (.buttonTapped row) = some s') :
    row < s.obsRoles.length ∧ s'.Rows ∧ tap s.obsRoles (row, !s.button row) = some s'.obsRoles ∧
      ∀ k, s'.button k = if row = k then !s.button row else s.button k := by
  rw [step] at h
  split at h
  next isSelected hbutton =>
    obtain ⟨roles, hroles, rfl⟩ := Option.map_eq_some_iff.1 h
    obtain ⟨hrow, -⟩ := List.getElem?_eq_some_iff.1 hbutton
    have hshown : s.button row = isSelected := by rw [button, hbutton]; rfl
    refine ⟨hrows ▸ hrow, ?_, hshown ▸ hroles, fun k => ?_⟩
    · rw [Rows, List.length_set, tap_length hroles]
      exact hrows
    · rw [button_set hrow, hshown]
  next => cases h

/-- Setting up a cell makes its button show the entry. -/
theorem step_cellForItemAt {s s' : FilterCell} {row : ℕ} (hrows : s.Rows)
    (h : step s (.cellForItemAt row) = some s') :
    s'.Rows ∧ s'.obsRoles = s.obsRoles ∧
      ∀ k, s'.button k = if row = k then flag s.obsRoles row else s.button k := by
  rw [step] at h
  split at h
  next role hrole =>
    cases h
    obtain ⟨hrow, -⟩ := List.getElem?_eq_some_iff.1 hrole
    refine ⟨?_, rfl, fun k => ?_⟩
    · rw [Rows, List.length_set]
      exact hrows
    · rw [button_set (hrows ▸ hrow), flag, hrole]
      rfl
  next hrole =>
    cases h
    refine ⟨hrows, rfl, fun k => ?_⟩
    split_ifs with hk
    · subst hk
      have hnone : s.buttons[row]? = none := by
        rw [List.getElem?_eq_none_iff] at hrole ⊢
        exact hrows ▸ hrole
      rw [button, hnone, flag, hrole]
      rfl
    · rfl

theorem rows_step {s s' : FilterCell} {e : ButtonEvent} (hrows : s.Rows)
    (h : step s e = some s') : s'.Rows := by
  cases e with
  | cellForItemAt row => exact (step_cellForItemAt hrows h).1
  | buttonTapped row => exact (step_tapped hrows h).2.1

theorem length_step {s s' : FilterCell} {e : ButtonEvent} (hrows : s.Rows)
    (h : step s e = some s') : s'.obsRoles.length = s.obsRoles.length := by
  cases e with
  | cellForItemAt row => rw [(step_cellForItemAt hrows h).2.1]
  | buttonTapped row => exact tap_length (step_tapped hrows h).2.2.1

end FilterCell

/-- Since the row `k` was last tapped or set up, a tap has written to its entry: a tap on All, if it
    is the row of a role, and on a role, if it is that of All. -/
def Overtaken (es : List ButtonEvent) (k : ℕ) : Prop :=
  ∃ before row after, es = before ++ .buttonTapped row :: after ∧ row ≠ k ∧ (row = 0 ∨ k = 0) ∧
    ∀ e ∈ after, e.row ≠ k

theorem Overtaken.snoc {es : List ButtonEvent} {k : ℕ} (h : Overtaken es k) {e : ButtonEvent}
    (he : e.row ≠ k) : Overtaken (es ++ [e]) k := by
  obtain ⟨before, row, after, rfl, hrow, hzero, hafter⟩ := h
  refine ⟨before, row, after ++ [e], by simp, hrow, hzero, fun e' he' => ?_⟩
  rcases List.mem_append.1 he' with he' | he'
  · exact hafter e' he'
  · rwa [List.mem_singleton.1 he']

/-- One event leaves a button in sync or overtaken. -/
theorem inSync_step {past : List ButtonEvent} {s s' : FilterCell} {e : ButtonEvent}
    (hrows : s.Rows) (hstep : FilterCell.step s e = some s') {k : ℕ} (hk : k < s.obsRoles.length)
    (hI : s.InSync k ∨ Overtaken past k) : s'.InSync k ∨ Overtaken (past ++ [e]) k := by
  cases e with
  | cellForItemAt row =>
    obtain ⟨-, hroles, hbutton⟩ := FilterCell.step_cellForItemAt hrows hstep
    by_cases hrow : row = k
    · refine Or.inl ?_
      rw [FilterCell.InSync, hbutton k, if_pos hrow, hroles, hrow]
    · refine hI.imp (fun hsync => ?_) fun hover => hover.snoc hrow
      rw [FilterCell.InSync, hbutton k, if_neg hrow, hroles]
      exact hsync
  | buttonTapped row =>
    obtain ⟨hlt, -, htap, hbutton⟩ := FilterCell.step_tapped hrows hstep
    by_cases hrow : row = k
    · refine Or.inl ?_
      rw [FilterCell.InSync, hbutton k, if_pos hrow, ← hrow, tap_flag_self hlt htap]
    · by_cases hzero : row = 0 ∨ k = 0
      · -- the tap writes to the entry of the row `k`
        exact Or.inr ⟨past, row, [], rfl, hrow, hzero, by simp⟩
      · refine hI.imp (fun hsync => ?_) fun hover => hover.snoc hrow
        rw [FilterCell.InSync, hbutton k, if_neg hrow,
          tap_flag_other htap (fun h => hzero (Or.inl h)) (by omega) hk hrow]
        exact hsync

/-- **A button shows its entry unless a tap elsewhere has overtaken it**: on All, for a role, and on
    a role, for All.  And a tap always gives the entry the state that the button did not show. -/
theorem stale_button (roles : List RoleFilter) {es : List ButtonEvent} {s : FilterCell}
    (hrun : Runs.run FilterCell.step (.opened roles) es = some s) :
    (∀ k < roles.length, s.button k ≠ flag s.obsRoles k → Overtaken es k) ∧
      ∀ row s', FilterCell.step s (.buttonTapped row) = some s' →
        flag s'.obsRoles row = !s.button row ∧ s'.button row = !s.button row := by
  obtain ⟨hrows, -, hsync⟩ := Runs.run_induct
    (I := fun es s => s.Rows ∧ s.obsRoles.length = roles.length ∧
      ∀ k < roles.length, s.InSync k ∨ Overtaken es k)
    ⟨FilterCell.rows_opened roles, rfl, fun k _ => Or.inl (FilterCell.inSync_opened roles k)⟩
    (fun past e s s' _ hstep ⟨hrows, hlen, hI⟩ => ⟨FilterCell.rows_step hrows hstep,
      (FilterCell.length_step hrows hstep).trans hlen,
      fun k hk => inSync_step hrows hstep (hlen ▸ hk) (hI k hk)⟩) es s hrun
  refine ⟨fun k hk hstale => (hsync k hk).resolve_left hstale, fun row s' hstep => ?_⟩
  obtain ⟨hlt, -, htap, hbutton⟩ := FilterCell.step_tapped hrows hstep
  exact ⟨tap_flag_self hlt htap, by rw [hbutton row, if_pos rfl]⟩

/-- After a tap on All, the button of Carry still shows what it did, and a tap on it selects what is
    selected already. -/
theorem stale_button_carry :
    let roles := [⟨0, "All", false⟩, ⟨10, "Carry", false⟩, ⟨11, "Escape", false⟩]
    let es := [.buttonTapped 0, .cellForItemAt 2]
    ∃ s, Runs.run FilterCell.step (.opened roles) es = some s ∧
      s.button 1 = false ∧ flag s.obsRoles 1 = true ∧ Overtaken es 1 := by
  intro roles es
  have hrun : Runs.run FilterCell.step (.opened roles) es = some _ := rfl
  exact ⟨_, rfl, by decide, by decide, (stale_button roles hrun).1 1 (by decide) (by decide)⟩

/-! ## Buttons as toggles -/

/-- A tap on a button that shows its entry. -/
def touch (roles : List RoleFilter) (row : ℕ) : Option (List RoleFilter) :=
  tap roles (row, !flag roles row)

/-- The cells of the first `n` rows are set up. -/
def reload (n : ℕ) : List ButtonEvent := (List.range n).map .cellForItemAt

/-- The cells set up make the buttons of their rows show the entries. -/
theorem run_reload_prefix {s : FilterCell} (hrows : s.Rows) : ∀ n ≤ s.obsRoles.length,
    ∃ s', Runs.run FilterCell.step s (reload n) = some s' ∧ s'.Rows ∧ s'.obsRoles = s.obsRoles ∧
      ∀ k < n, s'.button k = flag s.obsRoles k := by
  intro n
  induction n with
  | zero => exact fun _ => ⟨s, rfl, hrows, rfl, by simp⟩
  | succ n ih =>
    intro hn
    obtain ⟨s₁, hrun, hrows₁, hroles, hbutton⟩ := ih (by omega)
    have hlt : n < s₁.obsRoles.length := by rw [hroles]; omega
    obtain ⟨s₂, hstep⟩ : ∃ s₂, FilterCell.step s₁ (.cellForItemAt n) = some s₂ := by
      rw [FilterCell.step, List.getElem?_eq_getElem hlt]
      exact ⟨_, rfl⟩
    obtain ⟨hrows₂, hroles₂, hbutton₂⟩ := FilterCell.step_cellForItemAt hrows₁ hstep
    refine ⟨s₂, ?_, hrows₂, hroles₂.trans hroles, fun k hk => ?_⟩
    · rw [reload, List.range_succ, List.map_append]
      exact (Runs.run_snoc _).2 ⟨s₁, hrun, hstep⟩
    · rw [hbutton₂ k, hroles]
      split_ifs with hkn
      · rw [hkn]
      · exact hbutton k (by omega)

/-- All cells set up, the buttons show the entries. -/
theorem run_reload {s : FilterCell} (hrows : s.Rows) :
    Runs.run FilterCell.step s (reload s.obsRoles.length) = some (.opened s.obsRoles) := by
  obtain ⟨⟨roles, buttons⟩, hrun, hrows', rfl, hbutton⟩ := run_reload_prefix hrows _ le_rfl
  rw [hrun, FilterCell.opened]
  congr 2
  have hlen : buttons.length = s.obsRoles.length := hrows'
  refine List.ext_getElem (by simpa using hlen) fun k hk hk' => ?_
  have hshown := hbutton k (by simpa using hk')
  rw [FilterCell.button, List.getElem?_eq_getElem hk] at hshown
  rw [List.getElem_map, ← flag_eq_getElem (by simpa using hk'), ← hshown]
  rfl

/-- A tap on a button, after which all cells are set up again. -/
def tapAndReload (n row : ℕ) : List ButtonEvent := .buttonTapped row :: reload n

theorem run_tapAndReload {roles roles' : List RoleFilter} {row : ℕ} (hrow : row < roles.length)
    (h : touch roles row = some roles') :
    Runs.run FilterCell.step (.opened roles) (tapAndReload roles.length row) =
      some (.opened roles') := by
  have hsync : (FilterCell.opened roles).button row = flag roles row :=
    FilterCell.inSync_opened roles row
  obtain ⟨s, hstep⟩ : ∃ s, FilterCell.step (.opened roles) (.buttonTapped row) = some s := by
    rw [FilterCell.step, FilterCell.opened, List.getElem?_map, List.getElem?_eq_getElem hrow,
      Option.map_some, ← flag_eq_getElem hrow]
    unfold touch at h
    simp only [h]
    exact ⟨_, rfl⟩
  obtain ⟨-, hrows, htap, -⟩ := FilterCell.step_tapped (FilterCell.rows_opened roles) hstep
  rw [hsync] at htap
  have hroles : s.obsRoles = roles' := Option.some.inj (htap.symm.trans h)
  have hlen : s.obsRoles.length = roles.length := tap_length htap
  rw [tapAndReload, Runs.run_cons, hstep, Option.bind_some, ← hlen, run_reload hrows, hroles]

/-- If the cells are set up again after every tap, the buttons are toggles. -/
theorem run_tapsAndReloads {n : ℕ} {rows : List ℕ} (hrows : ∀ row ∈ rows, row < n) :
    ∀ {roles roles' : List RoleFilter}, roles.length = n → Runs.run touch roles rows = some roles' →
      Runs.run FilterCell.step (.opened roles) (rows.flatMap (tapAndReload n)) =
        some (.opened roles') := by
  induction rows with
  | nil => rintro roles roles' - ⟨⟩; rfl
  | cons row rows ih =>
    intro roles roles' hn hrun
    obtain ⟨roles₁, htouch, hrun⟩ := Option.bind_eq_some_iff.1 hrun
    have hstep := run_tapAndReload (hn ▸ hrows row List.mem_cons_self) htouch
    rw [hn] at hstep
    rw [List.flatMap_cons, Runs.run_append, hstep, Option.bind_some]
    exact ih (fun row' h => hrows row' (List.mem_cons_of_mem row h)) ((tap_length htouch).trans hn)
      hrun

/-- **Toggles count modulo two.** -/
theorem touches_parity (roles : List RoleFilter) {rows : List ℕ}
    (hrows : ∀ row ∈ rows, 1 ≤ row ∧ row < roles.length) :
    ∃ roles', Runs.run touch roles rows = some roles' ∧
      roles'.map RoleFilter.entry = roles.map RoleFilter.entry ∧
      (∀ k, 1 ≤ k → k < roles.length →
        flag roles' k = (flag roles k ^^ decide (rows.count k % 2 = 1))) ∧
      (rows ≠ [] → AllDerived roles') := by
  induction rows using List.reverseRecOn with
  | nil => exact ⟨roles, rfl, rfl, by simp, fun h => absurd rfl h⟩
  | append_singleton rows row ih =>
    obtain ⟨roles₁, hrun, hent, hflag, -⟩ := ih fun row' h => hrows row' (by simp [h])
    obtain ⟨hpos, hlt⟩ := hrows row (by simp)
    have hlen : roles₁.length = roles.length := by simpa using congrArg List.length hent
    obtain ⟨roles₂, htap, hent₂, -⟩ := tap_spec roles₁ (row, !flag roles₁ row)
    refine ⟨roles₂, (Runs.run_snoc touch).2 ⟨roles₁, hrun, htap⟩, hent₂.trans hent, ?_, fun _ => ?_⟩
    · intro k hk hkn
      rw [List.count_append, List.count_singleton]
      by_cases hrow : row = k
      · subst hrow
        rw [tap_flag_self (hlen ▸ hlt) htap, hflag row hk hkn, if_pos (by simp)]
        -- one more tap changes the parity
        rcases Nat.mod_two_eq_zero_or_one (rows.count row) with hmod | hmod <;>
          simp [hmod, Nat.add_mod]
      · rw [tap_flag_other htap (by omega) hk (hlen ▸ hkn) hrow, hflag k hk hkn,
          if_neg (by simpa using hrow), Nat.add_zero]
    · exact tap_derived (by omega) (hlen ▸ hlt) htap

/-- Entries with the same flags are the same. -/
theorem ext_of_flags {fs gs : List RoleFilter}
    (hent : fs.map RoleFilter.entry = gs.map RoleFilter.entry)
    (hflag : ∀ k < fs.length, flag fs k = flag gs k) : fs = gs := by
  have hlen : fs.length = gs.length := by simpa using congrArg List.length hent
  refine List.ext_getElem hlen fun k hk hk' => ?_
  have hsel := hflag k hk
  rw [flag_eq_getElem hk, flag_eq_getElem hk'] at hsel
  have hentry : fs[k].entry = gs[k].entry := by
    have hget := congrArg (fun l => l[k]?) hent
    simpa [hk, hk'] using hget
  obtain ⟨hid, hname⟩ := Prod.mk.inj hentry
  cases hf : fs[k]
  cases hg : gs[k]
  simp_all

/-- **Only the parity of the taps on each role counts**, if the cells are set up again after every
    tap: a role is selected in the end iff it was at first and was tapped an even number of times,
    or was not and was tapped an odd number of times; All is selected iff all roles are; and the
    same taps in another order lead to the same screen. -/
theorem buttons_parity (roles : List RoleFilter) {rows rows' : List ℕ}
    (hrows : ∀ row ∈ rows, 1 ≤ row ∧ row < roles.length) (hperm : rows.Perm rows') :
    ∃ roles', Runs.run FilterCell.step (.opened roles)
        (rows.flatMap (tapAndReload roles.length)) = some (.opened roles') ∧
      Runs.run FilterCell.step (.opened roles)
        (rows'.flatMap (tapAndReload roles.length)) = some (.opened roles') ∧
      (∀ k, 1 ≤ k → k < roles.length →
        flag roles' k = (flag roles k ^^ decide (rows.count k % 2 = 1))) ∧
      (rows ≠ [] → AllDerived roles') := by
  have hrows' : ∀ row ∈ rows', 1 ≤ row ∧ row < roles.length :=
    fun row h => hrows row (hperm.mem_iff.2 h)
  obtain ⟨roles₁, hrun₁, hent₁, hflag₁, hall₁⟩ := touches_parity roles hrows
  obtain ⟨roles₂, hrun₂, hent₂, hflag₂, hall₂⟩ := touches_parity roles hrows'
  have hlen₁ : roles₁.length = roles.length := by simpa using congrArg List.length hent₁
  have hlen₂ : roles₂.length = roles.length := by simpa using congrArg List.length hent₂
  have hroles : ∀ k, 1 ≤ k → k < roles.length → flag roles₁ k = flag roles₂ k := by
    intro k hk hkn
    rw [hflag₁ k hk hkn, hflag₂ k hk hkn, hperm.count_eq]
  have heq : roles₁ = roles₂ := by
    rcases rows.eq_nil_or_concat with rfl | ⟨_, _, hne⟩
    · obtain rfl := hperm.nil_eq
      exact Option.some.inj (hrun₁.symm.trans hrun₂)
    · have hne : rows ≠ [] := by rw [hne]; simp
      have hne' : rows' ≠ [] := fun h => hne (by rw [h] at hperm; exact hperm.eq_nil)
      refine ext_of_flags (hent₁.trans hent₂.symm) fun k hk => ?_
      rcases Nat.eq_zero_or_pos k with rfl | hpos
      · -- All is derived on both screens
        rw [Bool.eq_iff_iff, show _ ↔ _ from hall₁ hne, show _ ↔ _ from hall₂ hne', hlen₁, hlen₂]
        refine forall_congr' fun j => imp_congr_right fun hj => imp_congr_right fun hjn => ?_
        rw [hroles j hj hjn]
      · exact hroles k hpos (hlen₁ ▸ hk)
  refine ⟨roles₁, ?_, ?_, hflag₁, hall₁⟩
  · exact run_tapsAndReloads (fun row h => (hrows row h).2) rfl hrun₁
  · exact heq ▸ run_tapsAndReloads (fun row h => (hrows' row h).2) rfl hrun₂

theorem buttons_parity_carry :
    let roles := [⟨0, "All", true⟩, ⟨10, "Carry", false⟩, ⟨11, "Escape", false⟩]
    ∃ roles', Runs.run FilterCell.step (.opened roles)
        ([1, 2, 1].flatMap (tapAndReload 3)) = some (.opened roles') ∧
      Runs.run FilterCell.step (.opened roles)
        ([2, 1, 1].flatMap (tapAndReload 3)) = some (.opened roles') ∧
      flag roles' 2 = true := by
  intro roles
  obtain ⟨roles', hrun, hrun', hflag, -⟩ := buttons_parity roles
    (show ∀ row ∈ [1, 2, 1], 1 ≤ row ∧ row < roles.length by decide)
    (show [1, 2, 1].Perm [2, 1, 1] by decide)
  exact ⟨roles', hrun, hrun', hflag 2 (by decide) (by decide)⟩

end HeroQ
