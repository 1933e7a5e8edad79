/-
  The filter screen on IGListKit.

  A tap changes the filters, and the screen hands a new identifier to its adapter.  So the updater
  makes the cell of the only section anew, and that cell sets up the buttons again; until then, a
  button may show something else than its entry.  The batch updates of the collection view are a
  parameter.

  * `buttons_settle`: without taps, the blocks and the updates end, and then every button shows its
    entry;
  * `patient_taps`: a user who waits for that before each tap toggles the entries.
-/
import HeroQ.Buttons
import HeroQ.ListAdapter
import Mathlib.Data.Finset.Basic

namespace HeroQ

/-- What the filter adapter gives to IGListKit.  Its relay is the one of the filter interactor. -/
structure FilterIdentifier where
  deriving DecidableEq

/-- `setupListDiffable` of `FilterAdapter` -/
def FilterAdapter.setupListDiffable (obsRoles : Option (List RoleFilter)) : List FilterIdentifier :=
  if (obsRoles.map List.length).getD 0 > 0 then [⟨⟩] else []

/-- The filter screen: the filters with the buttons, and the adapter. -/
structure RenderedFilter where
  cell : FilterCell
  adapter : ListAdapter FilterIdentifier
  /-- the rows whose buttons the cell of the section has set up -/
  rows : Finset ℕ
  deriving DecidableEq

/-- The events of the filter screen and of its adapter. -/
inductive RenderedFilterEvent where
  | cell (event : ButtonEvent)
  /-- the collection view of the cell drops a button -/
  | didEndDisplaying (row : ℕ)
  | adapter (event : AdapterEvent)
  deriving DecidableEq

namespace RenderedFilter

/-- `performUpdates` of `FilterViewController` -/
def performUpdates (s : RenderedFilter) : RenderedFilter :=
  { s with
    adapter := s.adapter.performUpdates
      (FilterAdapter.setupListDiffable (some s.cell.obsRoles)) }

/-- The filter screen when its view has loaded. -/
def opened (obsRoles : List RoleFilter) : RenderedFilter :=
  performUpdates { cell := .opened obsRoles, adapter := .connected, rows := ∅ }

variable (U : UICollectionView (Reference FilterIdentifier))

/-- One event.  `setupObserver` of the filter interactor updates the screen after a tap. -/
def step (s : RenderedFilter) : RenderedFilterEvent → Option RenderedFilter
  | .cell (.cellForItemAt row) =>
    if s.adapter.sections = [] then none
    else (FilterCell.step s.cell (.cellForItemAt row)).map fun cell =>
      { s with cell := cell, rows := insert row s.rows }
  | .cell (.buttonTapped row) =>
    if row ∉ s.rows then none
    else (FilterCell.step s.cell (.buttonTapped row)).map fun cell =>
      performUpdates { s with cell := cell }
  | .didEndDisplaying row => some { s with rows := s.rows.erase row }
  | .adapter event => (s.adapter.step U event).map fun adapter =>
    -- the cell of another object is another cell, which has no buttons yet
    { s with
      adapter := adapter
      rows := if adapter.shown = s.adapter.shown then s.rows else ∅ }

end RenderedFilter

namespace RenderedFilterEvent

/-- What happens to the buttons. -/
def cellEvent : RenderedFilterEvent → Option ButtonEvent
  | .cell event => some event
  | _ => none

/-- The row that is tapped. -/
def tapped : RenderedFilterEvent → Option ℕ
  | .cell (.buttonTapped row) => some row
  | _ => none

/-- The events that go on with the updates asked for. -/
def internal : RenderedFilterEvent → Bool
  | .adapter event => event.internal
  | _ => false

end RenderedFilterEvent

variable {U : UICollectionView (Reference FilterIdentifier)}

/-! ## What one event does -/

/-- What the filter screen keeps. -/
structure RenderedFilterSound (U : UICollectionView (Reference FilterIdentifier))
    (s : RenderedFilter) : Prop where
  cell : s.cell.Rows
  adapter : AdapterSound U s.adapter
  current : s.adapter.listDiffable.map Reference.object =
    FilterAdapter.setupListDiffable (some s.cell.obsRoles)
  /-- the buttons that the last cell has set up show their entries -/
  inSync : s.adapter.shown = s.adapter.listDiffable → ∀ row ∈ s.rows, s.cell.InSync row

namespace RenderedFilterSound

theorem opened (hU : BatchUpdate.Documented U) (obsRoles : List RoleFilter) :
    RenderedFilterSound U (.opened obsRoles) where
  cell := FilterCell.rows_opened obsRoles
  adapter := (adapterSound_connected hU).performUpdates hU _
  current := map_object_references _ _
  inSync _ row hrow := absurd hrow (Finset.notMem_empty row)

variable {s s' : RenderedFilter}

theorem cellForItemAt (h : RenderedFilterSound U s) {row : ℕ}
    (hstep : RenderedFilter.step U s (.cell (.cellForItemAt row)) = some s') :
    RenderedFilterSound U s' := by
  rw [RenderedFilter.step] at hstep
  split_ifs at hstep with hsections
  obtain ⟨cell, hcell, rfl⟩ := Option.map_eq_some_iff.1 hstep
  obtain ⟨hrows, hroles, hbutton⟩ := FilterCell.step_cellForItemAt h.cell hcell
  refine ⟨hrows, h.adapter, hroles ▸ h.current, fun hshown k hk => ?_⟩
  rw [FilterCell.InSync, hroles, hbutton k]
  split_ifs with hrow
  · rw [hrow]
  · exact h.inSync hshown k (Finset.mem_of_mem_insert_of_ne hk fun heq => hrow heq.symm)

/-- After a tap, the collection view shows an older identifier. -/
theorem buttonTapped (hU : BatchUpdate.Documented U) (h : RenderedFilterSound U s) {row : ℕ}
    (hstep : RenderedFilter.step U s (.cell (.buttonTapped row)) = some s') :
    RenderedFilterSound U s' := by
  rw [RenderedFilter.step] at hstep
  split_ifs at hstep with hmem
  obtain ⟨cell, hcell, rfl⟩ := Option.map_eq_some_iff.1 hstep
  obtain ⟨hrow, hrows, htap, _⟩ := FilterCell.step_tapped h.cell hcell
  have hlength := tap_length htap
  refine ⟨hrows, h.adapter.performUpdates hU _, map_object_references _ _, fun hshown => ?_⟩
  refine absurd hshown (h.adapter.performUpdates_ne ?_)
  simp only [FilterAdapter.setupListDiffable, Option.map_some, Option.getD_some]
  rw [if_pos (by omega)]
  exact List.cons_ne_nil _ _

theorem adapterEvent (hU : BatchUpdate.Documented U) (h : RenderedFilterSound U s)
    {e : AdapterEvent} (hstep : RenderedFilter.step U s (.adapter e) = some s') :
    RenderedFilterSound U s' ∧
      s'.adapter.updater.weight + (if e.internal then 1 else 0) ≤ s.adapter.updater.weight := by
  obtain ⟨adapter, hadapter, rfl⟩ := Option.map_eq_some_iff.1 hstep
  have ha := adapter_step hU h.adapter hadapter
  refine ⟨⟨h.cell, ha.sound, ?_, fun hshown => ?_⟩, ha.weight⟩
  · show adapter.listDiffable.map Reference.object = _
    rw [ha.listDiffable]
    exact h.current
  · show ∀ row ∈ if adapter.shown = s.adapter.shown then s.rows else ∅,
      s.cell.InSync row
    split_ifs with hsame
    · exact h.inSync (hsame ▸ ha.listDiffable ▸ hshown)
    · exact fun row hrow => absurd hrow (Finset.notMem_empty row)

theorem step (hU : BatchUpdate.Documented U) (h : RenderedFilterSound U s) {e : RenderedFilterEvent}
    (hstep : RenderedFilter.step U s e = some s') : RenderedFilterSound U s' := by
  cases e with
  | cell event =>
    cases event with
    | cellForItemAt row => exact h.cellForItemAt hstep
    | buttonTapped row => exact h.buttonTapped hU hstep
  | didEndDisplaying row =>
    cases hstep
    exact { h with
      inSync := fun hshown k hk => h.inSync hshown k (Finset.mem_of_mem_erase hk) }
  | adapter event => exact (h.adapterEvent hU hstep).1

/-- Without taps, the filters stay, and the updates do not become more. -/
theorem untapped (hU : BatchUpdate.Documented U) (h : RenderedFilterSound U s)
    {e : RenderedFilterEvent} (he : e.tapped = none)
    (hstep : RenderedFilter.step U s e = some s') :
    s'.cell.obsRoles = s.cell.obsRoles ∧
      s'.adapter.updater.weight + (if e.internal then 1 else 0) ≤ s.adapter.updater.weight := by
  cases e with
  | cell event =>
    cases event with
    | cellForItemAt row =>
      rw [RenderedFilter.step] at hstep
      split_ifs at hstep
      obtain ⟨cell, hcell, rfl⟩ := Option.map_eq_some_iff.1 hstep
      exact ⟨(FilterCell.step_cellForItemAt h.cell hcell).2.1, le_rfl⟩
    | buttonTapped row => cases he
  | didEndDisplaying row =>
    cases hstep
    exact ⟨rfl, le_rfl⟩
  | adapter event =>
    refine ⟨?_, (h.adapterEvent hU hstep).2⟩
    obtain ⟨adapter, _, rfl⟩ := Option.map_eq_some_iff.1 hstep
    rfl

end RenderedFilterSound

/-! ## Runs -/

/-- The buttons do what the buttons alone do. -/
theorem cell_step {s s' : RenderedFilter} {e : RenderedFilterEvent}
    (hstep : RenderedFilter.step U s e = some s') :
    Runs.run FilterCell.step s.cell e.cellEvent.toList = some s'.cell := by
  cases e with
  | cell event =>
    cases event with
    | cellForItemAt row =>
      rw [RenderedFilter.step] at hstep
      split_ifs at hstep
      obtain ⟨cell, hcell, rfl⟩ := Option.map_eq_some_iff.1 hstep
      exact (Runs.run_singleton ..).trans hcell
    | buttonTapped row =>
      rw [RenderedFilter.step] at hstep
      split_ifs at hstep
      obtain ⟨cell, hcell, rfl⟩ := Option.map_eq_some_iff.1 hstep
      exact (Runs.run_singleton ..).trans hcell
  | didEndDisplaying row => cases hstep; rfl
  | adapter event => obtain ⟨adapter, _, rfl⟩ := Option.map_eq_some_iff.1 hstep; rfl

theorem renderedFilter_run (hU : BatchUpdate.Documented U) {obsRoles : List RoleFilter}
    {es : List RenderedFilterEvent} {s : RenderedFilter}
    (hrun : Runs.run (RenderedFilter.step U) (.opened obsRoles) es = some s) :
    RenderedFilterSound U s ∧
      Runs.run FilterCell.step (.opened obsRoles) (es.filterMap RenderedFilterEvent.cellEvent) =
        some s.cell := by
  refine Runs.run_induct (I := fun past s => RenderedFilterSound U s ∧
    Runs.run FilterCell.step (.opened obsRoles) (past.filterMap RenderedFilterEvent.cellEvent) =
      some s.cell) ⟨RenderedFilterSound.opened hU obsRoles, rfl⟩ ?_ es s hrun
  rintro past e s s' _ hstep ⟨h, hcell⟩
  refine ⟨h.step hU hstep, ?_⟩
  rw [Runs.filterMap_snoc, Runs.run_append, hcell]
  exact cell_step hstep

/-- **The buttons catch up with their entries.**  After any run, while no button is tapped: the
    blocks and the updates come to an end; and then the section is there, if there are filters, and
    every button that is set up shows its entry. -/
theorem buttons_settle (hU : BatchUpdate.Documented U) {obsRoles : List RoleFilter}
    {es es' : List RenderedFilterEvent} {s s' : RenderedFilter}
    (hrun : Runs.run (RenderedFilter.step U) (.opened obsRoles) es = some s)
    (hes' : ∀ e ∈ es', e.tapped = none)
    (hrun' : Runs.run (RenderedFilter.step U) s es' = some s') :
    es'.countP RenderedFilterEvent.internal ≤ s.adapter.updater.weight ∧
      (s'.adapter.Settled U →
        s'.adapter.sections = FilterAdapter.setupListDiffable (some s'.cell.obsRoles) ∧
        ∀ row ∈ s'.rows, s'.cell.button row = flag s'.cell.obsRoles row) := by
  have hbound := Runs.run_countP_le (I := RenderedFilterSound U) (H := fun e => e.tapped = none)
    RenderedFilterEvent.internal (fun s => s.adapter.updater.weight)
    (fun _ _ _ h he hstep => ⟨h.step hU hstep, (h.untapped hU he hstep).2⟩) es' s s'
    (renderedFilter_run hU hrun).1 hes' hrun'
  have hall : Runs.run (RenderedFilter.step U) (.opened obsRoles) (es ++ es') = some s' := by
    rw [Runs.run_append, hrun]
    exact hrun'
  have h' := (renderedFilter_run hU hall).1
  refine ⟨by omega, fun hsettled => ?_⟩
  have hshown := h'.adapter.settled hsettled
  refine ⟨?_, h'.inSync hshown⟩
  rw [ListAdapter.sections, hshown]
  exact h'.current

/-- All is tapped, and Carry before its button is set up again, which selects what is selected. -/
theorem buttons_settle_carry :
    let U := BatchUpdate.perform
    let obsRoles := [⟨0, "All", false⟩, ⟨10, "Carry", false⟩, ⟨11, "Escape", false⟩]
    let es := [.adapter (.moveToWindow true), .adapter .blockRuns, .cell (.cellForItemAt 0),
      .cell (.cellForItemAt 1), .cell (.cellForItemAt 2), .cell (.buttonTapped 0),
      .cell (.buttonTapped 1)]
    let es' := [.adapter .blockRuns, .adapter (.batchUpdateEnds true), .adapter .blockRuns,
      .cell (.cellForItemAt 1), .adapter (.batchUpdateEnds true), .adapter .blockRuns,
      .adapter .blockRuns]
    ∃ s s', Runs.run (RenderedFilter.step U) (.opened obsRoles) es = some s ∧
      Runs.run (RenderedFilter.step U) s es' = some s' ∧
      s.adapter.sections = [⟨⟩] ∧ s'.adapter.Settled U ∧ s'.rows = {1} ∧
      es'.countP RenderedFilterEvent.internal ≤ s.adapter.updater.weight ∧
      (s'.adapter.Settled U →
        s'.adapter.sections = FilterAdapter.setupListDiffable (some s'.cell.obsRoles) ∧
        ∀ row ∈ s'.rows, s'.cell.button row = flag s'.cell.obsRoles row) := by
  intro U obsRoles es es'
  have hends : ((Runs.run (RenderedFilter.step U) (.opened obsRoles) es).bind fun s =>
      (Runs.run (RenderedFilter.step U) s es').map fun s' =>
        (s.adapter.sections, decide (s'.adapter.Settled U), s'.rows)) =
          some ([⟨⟩], true, {1}) := by decide +kernel
  obtain ⟨s, hrun, hrest⟩ := Option.bind_eq_some_iff.1 hends
  obtain ⟨s', hrun', heq⟩ := Option.map_eq_some_iff.1 hrest
  obtain ⟨hsections, heq⟩ := Prod.mk.inj heq
  obtain ⟨hsettled, hrows⟩ := Prod.mk.inj heq
  exact ⟨s, s', hrun, hrun', hsections, of_decide_eq_true hsettled, hrows,
    buttons_settle BatchUpdate.documented_perform hrun (by decide) hrun'⟩

/-! ## A patient user -/

theorem tapped_eq_some {e : RenderedFilterEvent} {row : ℕ} (h : e.tapped = some row) :
    e = .cell (.buttonTapped row) := by
  cases e with
  | cell event => cases event <;> cases h; rfl
  | _ => cases h

/-- A button that is tapped when the updates have settled toggles its entry. -/
theorem RenderedFilterSound.touched {s s' : RenderedFilter} (h : RenderedFilterSound U s) {row : ℕ}
    (hsettled : s.adapter.Settled U)
    (hstep : RenderedFilter.step U s (.cell (.buttonTapped row)) = some s') :
    row < s.cell.obsRoles.length ∧ touch s.cell.obsRoles row = some s'.cell.obsRoles := by
  rw [RenderedFilter.step] at hstep
  split_ifs at hstep with hmem
  obtain ⟨cell, hcell, rfl⟩ := Option.map_eq_some_iff.1 hstep
  obtain ⟨hrow, _, htap, _⟩ := FilterCell.step_tapped h.cell hcell
  have hsync : s.cell.button row = flag s.cell.obsRoles row :=
    h.inSync (h.adapter.settled hsettled) row hmem
  rw [hsync] at htap
  exact ⟨hrow, htap⟩

theorem patient_run (hU : BatchUpdate.Documented U) {obsRoles : List RoleFilter}
    {es : List RenderedFilterEvent} {s : RenderedFilter}
    (hrun : Runs.run (RenderedFilter.step U) (.opened obsRoles) es = some s)
    (hpatient : Runs.EachStep (RenderedFilter.step U) (.opened obsRoles) es fun _ s e =>
      e.tapped ≠ none → s.adapter.Settled U) :
    Runs.run touch obsRoles (es.filterMap RenderedFilterEvent.tapped) = some s.cell.obsRoles ∧
      s.cell.obsRoles.length = obsRoles.length ∧
      ∀ row ∈ es.filterMap RenderedFilterEvent.tapped, row < obsRoles.length := by
  refine Runs.run_induct_eachStep (I := fun past s =>
    Runs.run touch obsRoles (past.filterMap RenderedFilterEvent.tapped) = some s.cell.obsRoles ∧
      s.cell.obsRoles.length = obsRoles.length ∧
      ∀ row ∈ past.filterMap RenderedFilterEvent.tapped, row < obsRoles.length)
    ⟨rfl, rfl, by simp⟩ ?_ hpatient hrun
  rintro past e s s' hpast hstep hsettled ⟨htouch, hlength, hlt⟩
  have h := (renderedFilter_run hU hpast).1
  rw [Runs.filterMap_snoc, Runs.run_append, htouch]
  cases htapped : e.tapped with
  | none =>
    rw [Option.toList_none, List.append_nil, (h.untapped hU htapped hstep).1]
    exact ⟨rfl, hlength, hlt⟩
  | some row =>
    obtain rfl := tapped_eq_some htapped
    obtain ⟨hrow, hstouch⟩ := h.touched (hsettled nofun) hstep
    refine ⟨(Runs.run_singleton ..).trans hstouch, (tap_length hstouch).trans hlength, ?_⟩
    intro row' hmem
    rcases List.mem_append.1 hmem with hpast | hlast
    · exact hlt row' hpast
    · rw [List.mem_singleton.1 hlast]
      exact hlength ▸ hrow

/-- **A patient user toggles the entries.**  If no button is tapped while a block waits or an update
    is in flight, then the taps toggle the entries one after the other, whatever cells are made,
    dropped and set up again in between, and however the updates go.  If all taps are on roles, a
    role is selected in the end iff it was at first and was tapped an even number of times, or was
    not and was tapped an odd number of times; and All is selected iff all roles are. -/
theorem patient_taps (hU : BatchUpdate.Documented U) {obsRoles : List RoleFilter}
    {es : List RenderedFilterEvent} {s : RenderedFilter}
    (hrun : Runs.run (RenderedFilter.step U) (.opened obsRoles) es = some s)
    (hpatient : Runs.EachStep (RenderedFilter.step U) (.opened obsRoles) es fun _ s e =>
      e.tapped ≠ none → s.adapter.Settled U) :
    let rows := es.filterMap RenderedFilterEvent.tapped
    Runs.run touch obsRoles rows = some s.cell.obsRoles ∧
      ((∀ row ∈ rows, row ≠ 0) →
        (∀ k, 1 ≤ k → k < obsRoles.length →
          flag s.cell.obsRoles k = (flag obsRoles k ^^ decide (rows.count k % 2 = 1))) ∧
        (rows ≠ [] → AllDerived s.cell.obsRoles)) := by
  intro rows
  obtain ⟨htouch, _, hlt⟩ := patient_run hU hrun hpatient
  refine ⟨htouch, fun hne => ?_⟩
  obtain ⟨roles', hroles', _, hflag, hderived⟩ := touches_parity obsRoles
    (fun row hrow => ⟨Nat.one_le_iff_ne_zero.2 (hne row hrow), hlt row hrow⟩)
  obtain rfl := Option.some.inj (hroles'.symm.trans htouch)
  exact ⟨hflag, hderived⟩

/-- Carry is tapped, and when the updates have settled, Escape. -/
theorem patient_taps_carry :
    let U := BatchUpdate.perform
    let obsRoles := [⟨0, "All", false⟩, ⟨10, "Carry", false⟩, ⟨11, "Escape", true⟩]
    let settle := [.adapter .blockRuns, .adapter (.batchUpdateEnds true), .adapter .blockRuns]
    let es := .adapter (.moveToWindow true) :: settle ++ [.cell (.cellForItemAt 1),
      .cell (.buttonTapped 1)] ++ settle ++ [.cell (.cellForItemAt 2), .cell (.buttonTapped 2)]
    ∃ s, Runs.run (RenderedFilter.step U) (.opened obsRoles) es = some s ∧
      s.cell.obsRoles = [⟨0, "All", false⟩, ⟨10, "Carry", true⟩, ⟨11, "Escape", false⟩] ∧
      let rows := es.filterMap RenderedFilterEvent.tapped
      Runs.run touch obsRoles rows = some s.cell.obsRoles ∧
        ((∀ row ∈ rows, row ≠ 0) →
          (∀ k, 1 ≤ k → k < obsRoles.length →
            flag s.cell.obsRoles k = (flag obsRoles k ^^ decide (rows.count k % 2 = 1))) ∧
          (rows ≠ [] → AllDerived s.cell.obsRoles)) := by
  intro U obsRoles settle es
  have hends : (Runs.run (RenderedFilter.step U) (.opened obsRoles) es).map (·.cell.obsRoles) =
      some [⟨0, "All", false⟩, ⟨10, "Carry", true⟩, ⟨11, "Escape", false⟩] := by decide +kernel
  obtain ⟨s, hrun, hroles⟩ := Option.map_eq_some_iff.1 hends
  exact ⟨s, hrun, hroles, patient_taps BatchUpdate.documented_perform hrun (by decide +kernel)⟩

end HeroQ
