/-
  The updates of a list on their way to the collection view: `IGListAdapter` and
  `IGListAdapterUpdater`.

  `performUpdates` records the objects to show and dispatches a block to the main queue; the block
  that runs first takes the objects recorded last, and the others find nothing to do.  A collection
  view in a window is updated in a batch, which ends later; what is recorded until then waits.  One
  that is in no window is reloaded, and one that is gone is left alone.

  * `updates_sound`: in whatever order things happen, no assertion fails, the collection view
    accepts every batch update, and it shows the objects of the last call that was taken, each in a
    section of its own;
  * `completions_once`: every completion handler is called, in flight or waiting, once and in order;
  * `updates_settle`: the blocks and the updates end, and then the collection view shows the objects
    of the last call.
-/
import HeroQ.SectionMap
import HeroQ.Lib.Runs
import Mathlib.Data.List.Perm.Basic

namespace HeroQ

/-- `IGListBatchUpdateState`; `executingBatchUpdateBlock` is left again before the event ends. -/
inductive IGListBatchUpdateState where
  | idle
  | queuedBatchUpdate
  | executedBatchUpdateBlock
  deriving DecidableEq

/-- The collection view, which the adapter does not keep alive. -/
inductive CollectionViewState where
  | deallocated
  | offscreen
  | inWindow
  deriving DecidableEq

/-- What an update in flight has taken from the updater. -/
structure InFlightUpdate (α : Type) where
  fromObjects : List α
  toObjects : List α
  completionBlocks : List ℕ
  deriving DecidableEq

/-- The adapter with its updater, the blocks on the main queue and the collection view.  The
    completion handlers are numbered in the order of the calls; `completed` are the calls of them,
    with their argument. -/
structure ListUpdater (α β γ : Type) where
  /-- the `sectionMap` of the adapter -/
  sectionMap : IGListSectionMap α γ := {}
  fromObjects : Option (List α) := none
  /-- the objects that the block returns -/
  toObjectsBlock : Option (List α) := none
  pendingTransitionToObjects : Option (List α) := none
  completionBlocks : List ℕ := []
  state : IGListBatchUpdateState := .idle
  inFlight : Option (InFlightUpdate α) := none
  queued : ℕ := 0
  view : CollectionViewState := .offscreen
  /-- the sections that the collection view shows, each with its items -/
  shown : List (List β) := []
  calls : ℕ := 0
  completed : List (ℕ × Bool) := []
  crashed : Bool := false
  deriving DecidableEq

/-- The events of an updater. -/
inductive UpdaterEvent (α : Type) where
  /-- a call of `performUpdatesAnimated:completion:`, with what the data source returns -/
  | performUpdates (objects : List α)
  /-- the main queue runs a block of `_queueUpdateWithCollectionViewBlock:` -/
  | blockRuns
  /-- the difference has been computed in the background -/
  | diffed
  /-- the collection view calls the completion handler of the batch update -/
  | batchUpdateEnds (finished : Bool)
  /-- the collection view gets into a window or out of it -/
  | moveToWindow (inWindow : Bool)
  | deallocated

namespace ListUpdater

section
variable {α κ β γ : Type} [DecidableEq α] [DecidableEq κ] [DecidableEq γ]
  (P : UpdaterParams α κ β γ)

/-- The adapter with its collection view set. -/
def connected (objects : List α) : ListUpdater α β γ :=
  match ({} : IGListSectionMap α γ).updateObjects P
    (objectsWithDuplicateIdentifiersRemoved P.diffable objects) with
  | some sectionMap => { sectionMap := sectionMap, shown := sectionMap.objects.map P.cells }
  | none => { crashed := true }

/-- `hasChanges` -/
def hasChanges (s : ListUpdater α β γ) : Bool := s.fromObjects.isSome || s.toObjectsBlock.isSome

/-- `performUpdatesAnimated:completion:` -/
def performUpdates (objects : List α) (s : ListUpdater α β γ) : ListUpdater α β γ :=
  if s.view = .deallocated then
    { s with calls := s.calls + 1, completed := s.completed ++ [(s.calls, false)] }
  else
    { s with
      fromObjects :=
        (s.fromObjects.or s.pendingTransitionToObjects).or (some s.sectionMap.objects)
      toObjectsBlock := some objects
      completionBlocks := s.completionBlocks ++ [s.calls]
      queued := s.queued + 1
      calls := s.calls + 1 }

/-- `executeCompletionBlocks`, which leaves the updater idle. -/
def executeCompletionBlocks (blocks : List ℕ) (finished : Bool) (s : ListUpdater α β γ) :
    ListUpdater α β γ :=
  { s with state := .idle, completed := s.completed ++ blocks.map fun block => (block, finished) }

/-- `executeUpdateBlocks`: the adapter takes over the objects. -/
def executeUpdateBlocks (toObjects : List α) (s : ListUpdater α β γ) : ListUpdater α β γ :=
  match s.sectionMap.updateObjects P toObjects with
  | some sectionMap => { s with sectionMap := sectionMap, state := .executedBatchUpdateBlock }
  | none => { s with crashed := true }

/-- `reloadDataFallback` -/
def reloadDataFallback (toObjects : List α) (completionBlocks : List ℕ) (s : ListUpdater α β γ) :
    ListUpdater α β γ :=
  let s := executeUpdateBlocks P toObjects s
  executeCompletionBlocks completionBlocks true
    { s with pendingTransitionToObjects := none, shown := s.sectionMap.objects.map P.cells }

/-- `performUpdate`, on the difference: the update block of the batch update, which flushes the
    difference to the collection view. -/
def performUpdate (update : InFlightUpdate α) (s : ListUpdater α β γ) : ListUpdater α β γ :=
  let s' := executeUpdateBlocks P update.toObjects s
  let sections := s'.sectionMap.objects.map P.cells
  let shown :=
    (IGListDiffing P.diffable update.fromObjects update.toObjects .equality).bind fun result =>
      (flushCollectionView P.diffable P.options ∅ result update.fromObjects
        (s.shown.map List.length) (sections.map List.length)).bind fun edits =>
          P.performBatchUpdates edits s.shown sections
  match shown with
  | some shown => { s' with pendingTransitionToObjects := none, shown := shown }
  | none => { s' with crashed := true }

/-- `performBatchUpdatesWithCollectionViewBlock:` -/
def performBatchUpdates (s : ListUpdater α β γ) : ListUpdater α β γ :=
  let fromObjects := s.fromObjects.getD []
  let toObjects :=
    (s.toObjectsBlock.map (objectsWithDuplicateIdentifiersRemoved P.diffable)).getD []
  let completionBlocks := s.completionBlocks
  -- `cleanStateBeforeUpdates`
  let s := { s with fromObjects := none, toObjectsBlock := none, completionBlocks := [] }
  if s.view = .deallocated then executeCompletionBlocks completionBlocks false s
  else if P.options.allowsBackgroundReloading ∧ s.view = .offscreen then
    reloadDataFallback P toObjects completionBlocks s
  else
    let update := ⟨fromObjects, toObjects, completionBlocks⟩
    -- `_beginPerformBatchUpdatesToObjects:`
    let s := { s with
      pendingTransitionToObjects := some toObjects
      state := .queuedBatchUpdate
      inFlight := some update }
    if P.options.backgroundDiffing then s else performUpdate P update s

/-- One event. -/
def step (s : ListUpdater α β γ) : UpdaterEvent α → Option (ListUpdater α β γ)
  | .performUpdates objects => if s.crashed then none else some (s.performUpdates objects)
  | .blockRuns =>
    if s.crashed ∨ s.queued = 0 then none
    else
      let s := { s with queued := s.queued - 1 }
      some (if s.state ≠ .idle ∨ !s.hasChanges then s else performBatchUpdates P s)
  | .diffed =>
    if s.crashed ∨ s.state ≠ .queuedBatchUpdate then none
    else s.inFlight.map fun update => performUpdate P update s
  | .batchUpdateEnds finished =>
    if s.crashed ∨ s.state ≠ .executedBatchUpdateBlock then none
    else s.inFlight.map fun update =>
      { executeCompletionBlocks update.completionBlocks finished s with
        inFlight := none
        queued := s.queued + 1 }
  | .moveToWindow inWindow =>
    if s.crashed ∨ s.view = .deallocated then none
    else some { s with view := if inWindow then .inWindow else .offscreen }
  | .deallocated =>
    -- the blocks of an update in flight hold the collection view
    if s.crashed ∨ s.inFlight.isSome then none else some { s with view := .deallocated }

end

end ListUpdater

open ListUpdater

/-! ## What one event does -/

section
variable {α κ β γ : Type} {P : UpdaterParams α κ β γ}

/-- What the updates keep, whatever is on the way. -/
structure UpdaterSound (P : UpdaterParams α κ β γ) (s : ListUpdater α β γ) : Prop where
  crashed : s.crashed = false
  sections : SectionMapSound P s.sectionMap
  nodup : (s.sectionMap.objects.map P.diffable.diffIdentifier).Nodup
  shown : Shows P s.shown s.sectionMap.objects
  /-- what is recorded starts from what the adapter will hold when it is taken -/
  fromObjects : ∀ fromObjects, s.fromObjects = some fromObjects →
    fromObjects = s.pendingTransitionToObjects.getD s.sectionMap.objects
  toObjectsBlock : s.toObjectsBlock.isSome = s.fromObjects.isSome
  completionBlocks : s.fromObjects = none → s.completionBlocks = []
  queued : s.fromObjects ≠ none → s.state = .idle → 0 < s.queued
  view : s.view = .deallocated → s.inFlight = none
  inFlight : match s.state with
    | .idle => s.inFlight = none ∧ s.pendingTransitionToObjects = none
    | .queuedBatchUpdate => ∃ update, s.inFlight = some update ∧
        update.fromObjects = s.sectionMap.objects ∧
          (update.toObjects.map P.diffable.diffIdentifier).Nodup ∧
          s.pendingTransitionToObjects = some update.toObjects
    | .executedBatchUpdateBlock => s.inFlight ≠ none ∧ s.pendingTransitionToObjects = none

/-- No update is in flight when one is taken. -/
theorem UpdaterSound.inFlight_eq_none {s : ListUpdater α β γ} (h : UpdaterSound P s)
    (hidle : s.state = .idle) : s.inFlight = none := by
  have hphase := h.inFlight
  rw [hidle] at hphase
  exact hphase.1

variable [DecidableEq κ]

theorem nodup_objectsWithDuplicateIdentifiersRemoved {D : IGListDiffable α κ} (objects : List α) :
    ((objectsWithDuplicateIdentifiersRemoved D objects).map D.diffIdentifier).Nodup := by
  rw [objectsWithDuplicateIdentifiersRemoved_eq]
  exact FirstOcc.nodup_firstOcc D.diffIdentifier objects

/-- The collection view shows what the data source returns at first. -/
theorem connected_eq [DecidableEq γ] (hP : P.Wf) (objects : List α) :
    ∃ sectionMap, connected P objects =
        { sectionMap := sectionMap, shown := sectionMap.objects.map P.cells } ∧
      SectionMapSound P sectionMap ∧
      sectionMap.objects = objectsWithDuplicateIdentifiersRemoved P.diffable objects := by
  obtain ⟨sectionMap, hupdate, hobjects, hsections⟩ := updateObjects_eq hP sectionMapSound_empty
    (nodup_objectsWithDuplicateIdentifiersRemoved (D := P.diffable) objects)
  exact ⟨sectionMap, by rw [connected, hupdate], hsections, hobjects⟩

theorem updaterSound_connected [DecidableEq γ] (hP : P.Wf) (objects : List α) :
    UpdaterSound P (connected P objects) := by
  obtain ⟨sectionMap, heq, hsections, hobjects⟩ := connected_eq hP objects
  rw [heq]
  exact {
    crashed := rfl
    sections := hsections
    nodup := hobjects ▸ nodup_objectsWithDuplicateIdentifiersRemoved objects
    shown := shows_cells _
    fromObjects := fun _ h => by cases h
    toObjectsBlock := rfl
    completionBlocks := fun _ => rfl
    queued := fun h => absurd rfl h
    view := fun h => by cases h
    inFlight := ⟨rfl, rfl⟩ }

/-- What an event does to sound updates. -/
inductive UpdaterTransition (P : UpdaterParams α κ β γ)
    (s : ListUpdater α β γ) : UpdaterEvent α → ListUpdater α β γ → Prop
  | ignored {objects} (hview : s.view = .deallocated) :
      UpdaterTransition P s (.performUpdates objects)
        { s with calls := s.calls + 1, completed := s.completed ++ [(s.calls, false)] }
  | recorded {objects} (hview : s.view ≠ .deallocated) :
      UpdaterTransition P s (.performUpdates objects)
        { s with
          fromObjects := some (s.pendingTransitionToObjects.getD s.sectionMap.objects)
          toObjectsBlock := some objects
          completionBlocks := s.completionBlocks ++ [s.calls]
          queued := s.queued + 1
          calls := s.calls + 1 }
  | skipped (hqueued : 0 < s.queued) (hskip : s.state = .idle → s.fromObjects = none) :
      UpdaterTransition P s .blockRuns { s with queued := s.queued - 1 }
  | bailed (hqueued : 0 < s.queued) (hidle : s.state = .idle) (hview : s.view = .deallocated) :
      UpdaterTransition P s .blockRuns
        { s with
          fromObjects := none
          toObjectsBlock := none
          completionBlocks := []
          queued := s.queued - 1
          completed := s.completed ++ s.completionBlocks.map fun block => (block, false) }
  | reloaded {objects sectionMap} (hqueued : 0 < s.queued) (hidle : s.state = .idle)
      (hto : s.toObjectsBlock = some objects) (hsections : SectionMapSound P sectionMap)
      (hmap : sectionMap.objects = objectsWithDuplicateIdentifiersRemoved P.diffable objects) :
      UpdaterTransition P s .blockRuns
        { s with
          sectionMap := sectionMap
          fromObjects := none
          toObjectsBlock := none
          completionBlocks := []
          queued := s.queued - 1
          shown := sectionMap.objects.map P.cells
          completed := s.completed ++ s.completionBlocks.map fun block => (block, true) }
  | begun {objects} (hqueued : 0 < s.queued) (hidle : s.state = .idle)
      (hview : s.view ≠ .deallocated) (hto : s.toObjectsBlock = some objects)
      (hbackground : P.options.backgroundDiffing = true) :
      UpdaterTransition P s .blockRuns
        { s with
          fromObjects := none
          toObjectsBlock := none
          pendingTransitionToObjects :=
            some (objectsWithDuplicateIdentifiersRemoved P.diffable objects)
          completionBlocks := []
          state := .queuedBatchUpdate
          inFlight := some ⟨s.sectionMap.objects,
            objectsWithDuplicateIdentifiersRemoved P.diffable objects, s.completionBlocks⟩
          queued := s.queued - 1 }
  | applied {objects sectionMap shown} (hqueued : 0 < s.queued) (hidle : s.state = .idle)
      (hview : s.view ≠ .deallocated) (hto : s.toObjectsBlock = some objects)
      (hbackground : P.options.backgroundDiffing = false) (hsections : SectionMapSound P sectionMap)
      (hmap : sectionMap.objects = objectsWithDuplicateIdentifiersRemoved P.diffable objects)
      (hshown : Shows P shown sectionMap.objects) :
      UpdaterTransition P s .blockRuns
        { s with
          sectionMap := sectionMap
          fromObjects := none
          toObjectsBlock := none
          completionBlocks := []
          state := .executedBatchUpdateBlock
          inFlight := some ⟨s.sectionMap.objects,
            objectsWithDuplicateIdentifiersRemoved P.diffable objects, s.completionBlocks⟩
          queued := s.queued - 1
          shown := shown }
  | diffed {update sectionMap shown} (hstate : s.state = .queuedBatchUpdate)
      (hinFlight : s.inFlight = some update)
      (hpending : s.pendingTransitionToObjects = some update.toObjects)
      (hsections : SectionMapSound P sectionMap) (hmap : sectionMap.objects = update.toObjects)
      (hshown : Shows P shown sectionMap.objects) :
      UpdaterTransition P s .diffed
        { s with
          sectionMap := sectionMap
          pendingTransitionToObjects := none
          state := .executedBatchUpdateBlock
          shown := shown }
  | ended {update finished} (hstate : s.state = .executedBatchUpdateBlock)
      (hinFlight : s.inFlight = some update) :
      UpdaterTransition P s (.batchUpdateEnds finished)
        { s with
          state := .idle
          inFlight := none
          queued := s.queued + 1
          completed := s.completed ++ update.completionBlocks.map fun block => (block, finished) }
  | moved {inWindow} (hview : s.view ≠ .deallocated) :
      UpdaterTransition P s (.moveToWindow inWindow)
        { s with view := if inWindow then .inWindow else .offscreen }
  | deallocated (hinFlight : s.inFlight = none) :
      UpdaterTransition P s .deallocated { s with view := .deallocated }

theorem UpdaterTransition.sound {s s' : ListUpdater α β γ} {e : UpdaterEvent α}
    (h : UpdaterSound P s) (ht : UpdaterTransition P s e s') : UpdaterSound P s' := by
  cases ht with
  | ignored hview => exact { h with }
  | recorded hview =>
    refine { h with
      fromObjects := fun _ heq => (Option.some.inj heq).symm
      toObjectsBlock := rfl
      completionBlocks := fun heq => ?_
      queued := fun _ _ => Nat.succ_pos _ }
    cases heq
  | skipped hqueued hskip =>
    exact { h with queued := fun hne hidle => absurd (hskip hidle) hne }
  | bailed hqueued hidle hview =>
    exact { h with
      fromObjects := fun _ heq => by cases heq
      toObjectsBlock := rfl
      completionBlocks := fun _ => rfl
      queued := fun hne _ => absurd rfl hne }
  | reloaded hqueued hidle hto hsections hmap =>
    have hphase := h.inFlight
    rw [hidle] at hphase
    exact { h with
      sections := hsections
      nodup := by
        rw [hmap]
        exact nodup_objectsWithDuplicateIdentifiersRemoved _
      shown := shows_cells _
      fromObjects := fun _ heq => by cases heq
      toObjectsBlock := rfl
      completionBlocks := fun _ => rfl
      queued := fun hne _ => absurd rfl hne
      inFlight := by rw [hidle]; exact hphase }
  | begun hqueued hidle hview hto hbackground =>
    exact { h with
      fromObjects := fun _ heq => by cases heq
      toObjectsBlock := rfl
      completionBlocks := fun _ => rfl
      queued := fun hne _ => absurd rfl hne
      view := fun heq => absurd heq hview
      inFlight := ⟨_, rfl, rfl, nodup_objectsWithDuplicateIdentifiersRemoved _, rfl⟩ }
  | applied hqueued hidle hview hto hbackground hsections hmap hshown =>
    have hphase := h.inFlight
    rw [hidle] at hphase
    exact { h with
      sections := hsections
      nodup := by
        rw [hmap]
        exact nodup_objectsWithDuplicateIdentifiersRemoved _
      shown := hshown
      fromObjects := fun _ heq => by cases heq
      toObjectsBlock := rfl
      completionBlocks := fun _ => rfl
      queued := fun hne _ => absurd rfl hne
      view := fun heq => absurd heq hview
      inFlight := ⟨nofun, hphase.2⟩ }
  | @diffed update sectionMap shown hstate hinFlight hpending hsections hmap hshown =>
    have hphase := h.inFlight
    rw [hstate] at hphase
    obtain ⟨_, hsome, _, hto, _⟩ := hphase
    obtain rfl := Option.some.inj (hinFlight.symm.trans hsome)
    exact { h with
      sections := hsections
      nodup := hmap ▸ hto
      shown := hshown
      fromObjects := fun l hl => by rw [h.fromObjects l hl, hpending]; exact hmap.symm
      queued := fun _ heq => by cases heq
      inFlight := ⟨by simp [hinFlight], rfl⟩ }
  | ended hstate hinFlight =>
    have hphase := h.inFlight
    rw [hstate] at hphase
    exact { h with
      queued := fun _ _ => Nat.succ_pos _
      view := fun _ => rfl
      inFlight := ⟨rfl, hphase.2⟩ }
  | moved hview =>
    exact { h with view := fun heq => by split_ifs at heq }
  | deallocated hinFlight =>
    exact { h with view := fun _ => hinFlight }

/-! ## The calls -/

/-- What the data source returns, when the event is a call. -/
def UpdaterEvent.objects : UpdaterEvent α → Option (List α)
  | .performUpdates objects => some objects
  | _ => none

/-- What the data source has returned: for the collection view, and then at each call. -/
def returned (objects : List α) (past : List (UpdaterEvent α)) : List (List α) :=
  objects :: past.filterMap UpdaterEvent.objects

/-- The handlers that the end of the update in flight will call. -/
def ListUpdater.handlersInFlight (s : ListUpdater α β γ) : List ℕ :=
  (s.inFlight.map InFlightUpdate.completionBlocks).getD []

/-- The handlers: called, in flight, and waiting. -/
def ListUpdater.handlers (s : ListUpdater α β γ) : List ℕ :=
  s.completed.map Prod.fst ++ s.handlersInFlight ++ s.completionBlocks

/-- How many calls the adapter has taken over the objects of, or of later ones. -/
def ListUpdater.applied (s : ListUpdater α β γ) : ℕ :=
  s.completed.length + if s.state = .executedBatchUpdateBlock then s.handlersInFlight.length else 0

/-- The handlers that wait or are called, while there is a collection view and when it is gone. -/
structure UpdaterHandlers (past : List (UpdaterEvent α)) (s : ListUpdater α β γ) : Prop where
  calls : s.calls = (past.filterMap UpdaterEvent.objects).length
  perm : s.handlers.Perm (List.range s.calls)
  eq : s.view ≠ .deallocated → s.handlers = List.range s.calls

/-- The adapter holds, or will hold, what the data source returned. -/
structure UpdaterServes (P : UpdaterParams α κ β γ) (objects : List α)
    (past : List (UpdaterEvent α)) (s : ListUpdater α β γ) : Prop where
  toObjectsBlock : ∀ l, s.toObjectsBlock = some l → (returned objects past).getLast? = some l
  sectionMap : ∃ l, (returned objects past)[s.applied]? = some l ∧
    s.sectionMap.objects = objectsWithDuplicateIdentifiersRemoved P.diffable l
  inFlight : ∀ update, s.state = .queuedBatchUpdate → s.inFlight = some update →
    ∃ l, (returned objects past)[s.completed.length + update.completionBlocks.length]? = some l ∧
      update.toObjects = objectsWithDuplicateIdentifiersRemoved P.diffable l

theorem returned_snoc (objects : List α) (past : List (UpdaterEvent α)) (e : UpdaterEvent α) :
    returned objects (past ++ [e]) = returned objects past ++ e.objects.toList := by
  rw [returned, Runs.filterMap_snoc, returned, List.cons_append]

theorem returned_mono {objects l : List α} {past : List (UpdaterEvent α)} {i : ℕ}
    (h : (returned objects past)[i]? = some l) (e : UpdaterEvent α) :
    (returned objects (past ++ [e]))[i]? = some l := by
  obtain ⟨hi, _⟩ := List.getElem?_eq_some_iff.1 h
  rw [returned_snoc, List.getElem?_append_left hi, h]

theorem UpdaterTransition.view {s s' : ListUpdater α β γ} {e : UpdaterEvent α}
    (ht : UpdaterTransition P s e s') (hview : s'.view ≠ .deallocated) :
    s.view ≠ .deallocated := by
  cases ht with
  | moved hne => exact hne
  | deallocated => exact absurd rfl hview
  | _ => exact hview

/-- An event adds the handler of a call and keeps the others, in their order if it adds none. -/
theorem UpdaterTransition.handlers {past : List (UpdaterEvent α)} {s s' : ListUpdater α β γ}
    {e : UpdaterEvent α} (h : UpdaterSound P s) (hh : UpdaterHandlers past s)
    (ht : UpdaterTransition P s e s') : UpdaterHandlers (past ++ [e]) s' := by
  have hkeep : e.objects = none → s'.calls = s.calls → s'.handlers = s.handlers →
      UpdaterHandlers (past ++ [e]) s' := by
    intro he hcalls hhandlers
    refine ⟨?_, ?_, fun hview => ?_⟩
    · rw [Runs.filterMap_snoc, he, Option.toList_none, List.append_nil, hcalls, hh.calls]
    · rw [hcalls, hhandlers]
      exact hh.perm
    · rw [hcalls, hhandlers]
      exact hh.eq (ht.view hview)
  cases ht with
  | ignored hview =>
    refine ⟨by simp [UpdaterEvent.objects, hh.calls], ?_, fun hne => absurd hview hne⟩
    rw [List.range_succ]
    refine List.Perm.trans ?_ (hh.perm.append_right [s.calls])
    simp only [ListUpdater.handlers, ListUpdater.handlersInFlight, List.map_append, List.map_cons,
      List.map_nil, List.append_assoc]
    exact List.Perm.append_left _
      (List.perm_append_comm.trans (List.Perm.of_eq (List.append_assoc ..)))
  | recorded hview =>
    have heq := congrArg (· ++ [s.calls]) (hh.eq hview)
    simp only [ListUpdater.handlers, List.append_assoc, ← List.range_succ] at heq
    refine ⟨by simp [UpdaterEvent.objects, hh.calls], ?_, fun _ => ?_⟩
    · simpa [ListUpdater.handlers, ListUpdater.handlersInFlight] using List.Perm.of_eq heq
    · simpa [ListUpdater.handlers, ListUpdater.handlersInFlight] using heq
  | bailed _ hidle =>
    refine hkeep rfl rfl ?_
    simp [ListUpdater.handlers, ListUpdater.handlersInFlight, h.inFlight_eq_none hidle,
      Function.comp_def]
  | reloaded _ hidle =>
    refine hkeep rfl rfl ?_
    simp [ListUpdater.handlers, ListUpdater.handlersInFlight, h.inFlight_eq_none hidle,
      Function.comp_def]
  | begun _ hidle =>
    refine hkeep rfl rfl ?_
    simp [ListUpdater.handlers, ListUpdater.handlersInFlight, h.inFlight_eq_none hidle]
  | applied _ hidle =>
    refine hkeep rfl rfl ?_
    simp [ListUpdater.handlers, ListUpdater.handlersInFlight, h.inFlight_eq_none hidle]
  | ended _ hinFlight =>
    refine hkeep rfl rfl ?_
    simp [ListUpdater.handlers, ListUpdater.handlersInFlight, hinFlight, Function.comp_def]
  | _ => exact hkeep rfl rfl rfl

/-- What is taken is what the data source returned last. -/
theorem UpdaterServes.taken {objects l : List α} {past : List (UpdaterEvent α)}
    {s : ListUpdater α β γ} (h : UpdaterServes P objects past s) (hh : UpdaterHandlers past s)
    (hview : s.view ≠ .deallocated) (hinFlight : s.inFlight = none)
    (hto : s.toObjectsBlock = some l) :
    (returned objects past)[s.completed.length + s.completionBlocks.length]? = some l := by
  have hlength := congrArg List.length (hh.eq hview)
  simp only [ListUpdater.handlers, ListUpdater.handlersInFlight, hinFlight, Option.map_none,
    Option.getD_none, List.append_nil, List.length_append, List.length_map, List.length_range,
    hh.calls] at hlength
  rw [hlength, ← h.toObjectsBlock l hto, List.getLast?_eq_getElem?, returned, List.length_cons,
    Nat.add_sub_cancel]

theorem UpdaterTransition.serves {objects : List α} {past : List (UpdaterEvent α)}
    {s s' : ListUpdater α β γ} {e : UpdaterEvent α} (h : UpdaterSound P s)
    (hh : UpdaterHandlers past s) (hserves : UpdaterServes P objects past s)
    (ht : UpdaterTransition P s e s') (hview : s'.view ≠ .deallocated) :
    UpdaterServes P objects (past ++ [e]) s' := by
  have hview := ht.view hview
  have hsections : ∀ s' : ListUpdater α β γ, s'.applied = s.applied → s'.sectionMap = s.sectionMap →
      ∃ l, (returned objects (past ++ [e]))[s'.applied]? = some l ∧
        s'.sectionMap.objects = objectsWithDuplicateIdentifiersRemoved P.diffable l := by
    intro s' happlied hmap
    obtain ⟨l, hl, heq⟩ := hserves.sectionMap
    exact ⟨l, returned_mono (by rw [happlied, hl]) e, hmap ▸ heq⟩
  have hflight : ∀ update, s.state = .queuedBatchUpdate → s.inFlight = some update →
      ∃ l, (returned objects (past ++ [e]))[s.completed.length +
        update.completionBlocks.length]? = some l ∧
        update.toObjects = objectsWithDuplicateIdentifiersRemoved P.diffable l := by
    intro update hstate hinFlight
    obtain ⟨l, hl, heq⟩ := hserves.inFlight update hstate hinFlight
    exact ⟨l, returned_mono hl e, heq⟩
  have hlast : e.objects = none → ∀ l, s.toObjectsBlock = some l →
      (returned objects (past ++ [e])).getLast? = some l := by
    intro he l hl
    rw [returned_snoc, he, Option.toList_none, List.append_nil]
    exact hserves.toObjectsBlock l hl
  cases ht with
  | ignored hgone => exact absurd hgone hview
  | recorded _ =>
    refine ⟨fun l hl => ?_, hsections _ rfl rfl, hflight⟩
    rw [returned_snoc, ← hl]
    exact List.getLast?_concat
  | bailed _ _ hgone => exact absurd hgone hview
  | reloaded _ hidle hto _ hmap =>
    refine ⟨nofun, ⟨_, ?_, hmap⟩, fun _ hstate => by cases hidle.symm.trans hstate⟩
    have htaken := hserves.taken hh hview (h.inFlight_eq_none hidle) hto
    simpa [ListUpdater.applied, hidle] using returned_mono htaken .blockRuns
  | begun _ hidle _ hto =>
    refine ⟨nofun, hsections _ (by simp [ListUpdater.applied, hidle]) rfl, ?_⟩
    rintro _ - ⟨⟩
    exact ⟨_, returned_mono (hserves.taken hh hview (h.inFlight_eq_none hidle) hto) _, rfl⟩
  | applied _ hidle _ hto _ _ hmap =>
    refine ⟨nofun, ⟨_, ?_, hmap⟩, nofun⟩
    have htaken := hserves.taken hh hview (h.inFlight_eq_none hidle) hto
    simpa [ListUpdater.applied, ListUpdater.handlersInFlight] using
      returned_mono htaken .blockRuns
  | diffed hstate hinFlight _ _ hmap =>
    obtain ⟨l, hl, heq⟩ := hflight _ hstate hinFlight
    refine ⟨hlast rfl, ⟨l, ?_, hmap.trans heq⟩, nofun⟩
    simpa [ListUpdater.applied, ListUpdater.handlersInFlight, hinFlight] using hl
  | ended hstate hinFlight =>
    refine ⟨hlast rfl, hsections _ ?_ rfl, nofun⟩
    simp [ListUpdater.applied, ListUpdater.handlersInFlight, hstate, hinFlight]
  | deallocated => contradiction
  | skipped => exact ⟨hlast rfl, hsections _ rfl rfl, hflight⟩
  | moved => exact ⟨hlast rfl, hsections _ rfl rfl, hflight⟩

/-! ## The events that are left -/

/-- The events that go on with the calls made before. -/
def UpdaterEvent.internal : UpdaterEvent α → Bool
  | .blockRuns | .diffed | .batchUpdateEnds _ => true
  | _ => false

/-- How many internal events can be left. -/
def ListUpdater.weight (s : ListUpdater α β γ) : ℕ :=
  s.queued + (if s.fromObjects.isSome then 4 else 0) +
    match s.state with
    | .idle => 0
    | .queuedBatchUpdate => 3
    | .executedBatchUpdateBlock => 2

theorem UpdaterTransition.weight {s s' : ListUpdater α β γ} {e : UpdaterEvent α}
    (h : UpdaterSound P s) (ht : UpdaterTransition P s e s') (he : e.objects = none) :
    s'.weight + (if e.internal then 1 else 0) ≤ s.weight := by
  have htaken : ∀ l, s.toObjectsBlock = some l → s.fromObjects.isSome = true := by
    intro l hl
    rw [← h.toObjectsBlock, hl]
    rfl
  cases ht with
  | ignored => cases he
  | recorded => cases he
  | skipped hqueued =>
    simp only [ListUpdater.weight, UpdaterEvent.internal, if_true]
    omega
  | bailed hqueued hidle =>
    simp only [ListUpdater.weight, UpdaterEvent.internal, hidle, Option.isSome_none, if_true,
      Bool.false_eq_true, if_false]
    omega
  | reloaded hqueued hidle hto =>
    simp only [ListUpdater.weight, UpdaterEvent.internal, hidle, Option.isSome_none, if_true,
      Bool.false_eq_true, if_false]
    omega
  | begun hqueued hidle _ hto =>
    simp only [ListUpdater.weight, UpdaterEvent.internal, hidle, htaken _ hto, Option.isSome_none,
      if_true, Bool.false_eq_true, if_false]
    omega
  | applied hqueued hidle _ hto =>
    simp only [ListUpdater.weight, UpdaterEvent.internal, hidle, htaken _ hto, Option.isSome_none,
      if_true, Bool.false_eq_true, if_false]
    omega
  | diffed hstate =>
    simp only [ListUpdater.weight, UpdaterEvent.internal, hstate, if_true]
    omega
  | ended hstate =>
    simp only [ListUpdater.weight, UpdaterEvent.internal, hstate, if_true]
    omega
  | moved => exact le_refl s.weight
  | deallocated => exact le_refl s.weight

/-! ## The transitions -/

variable [DecidableEq α] [DecidableEq γ]

/-- The collection view accepts an update from what the adapter holds. -/
theorem performUpdate_eq (hP : P.Wf) {s : ListUpdater α β γ} (update : InFlightUpdate α)
    (hsections : SectionMapSound P s.sectionMap)
    (hnodup : (s.sectionMap.objects.map P.diffable.diffIdentifier).Nodup)
    (hshown : Shows P s.shown s.sectionMap.objects)
    (hfrom : update.fromObjects = s.sectionMap.objects)
    (hto : (update.toObjects.map P.diffable.diffIdentifier).Nodup) :
    ∃ sectionMap shown, performUpdate P update s =
        { s with
          sectionMap := sectionMap
          state := .executedBatchUpdateBlock
          pendingTransitionToObjects := none
          shown := shown } ∧
      SectionMapSound P sectionMap ∧ sectionMap.objects = update.toObjects ∧
      Shows P shown sectionMap.objects := by
  obtain ⟨sectionMap, hupdate, hobjects, hsound⟩ := updateObjects_eq hP hsections hto
  obtain ⟨r, e, shown, hr, he, hperform, hall⟩ := flush_shows P hP hnodup hto
    (show ∀ j ∈ (∅ : Finset ℕ), _ by simp) hshown
  refine ⟨sectionMap, shown, ?_, hsound, hobjects, hobjects ▸ hall⟩
  simp only [performUpdate, executeUpdateBlocks, hupdate, hfrom, hobjects, hr, he, hperform,
    Option.bind_some]

theorem performBatchUpdates_transition (hP : P.Wf) {s : ListUpdater α β γ} (h : UpdaterSound P s)
    (hqueued : 0 < s.queued) (hidle : s.state = .idle) (hchanges : s.fromObjects.isSome = true) :
    UpdaterTransition P s .blockRuns
      (performBatchUpdates P { s with queued := s.queued - 1 }) := by
  obtain ⟨objects, hto⟩ := Option.isSome_iff_exists.1 (h.toObjectsBlock.trans hchanges)
  obtain ⟨fromObjects, hfrom⟩ := Option.isSome_iff_exists.1 hchanges
  have hphase := h.inFlight
  rw [hidle] at hphase
  obtain ⟨hnone, hpending⟩ := hphase
  have hmap : fromObjects = s.sectionMap.objects := by
    rw [h.fromObjects _ hfrom, hpending, Option.getD_none]
  have hsections := h.sections
  have hnodup := h.nodup
  have hshown := h.shown
  clear h
  obtain ⟨sectionMap, _, _, _, blocks, _, _, queued, view, shown, calls, completed, crashed⟩ := s
  simp only at hto hfrom hidle hnone hpending hmap hqueued hsections hnodup hshown
  subst hto hfrom hidle hnone hpending hmap
  rw [performBatchUpdates]
  by_cases hgone : view = .deallocated
  · rw [if_pos hgone]
    exact .bailed hqueued rfl hgone
  by_cases hreload : P.options.allowsBackgroundReloading = true ∧ view = .offscreen
  · rw [if_neg hgone, if_pos hreload]
    obtain ⟨sectionMap', hupdate, hobjects, hsound⟩ := updateObjects_eq hP hsections
      (nodup_objectsWithDuplicateIdentifiersRemoved objects)
    simp only [Option.map_some, Option.getD_some, reloadDataFallback, executeUpdateBlocks, hupdate]
    exact .reloaded hqueued rfl rfl hsound hobjects
  · rw [if_neg hgone, if_neg hreload]
    cases hbackground : P.options.backgroundDiffing with
    | true => exact .begun hqueued rfl hgone rfl hbackground
    | false =>
      obtain ⟨sectionMap', shown', heq, hsound, hobjects, hshown'⟩ := performUpdate_eq hP
        (s := ⟨sectionMap, none, none,
          some (objectsWithDuplicateIdentifiersRemoved P.diffable objects), [], .queuedBatchUpdate,
          some ⟨sectionMap.objects, objectsWithDuplicateIdentifiersRemoved P.diffable objects,
            blocks⟩, queued - 1, view, shown, calls, completed, crashed⟩)
        ⟨sectionMap.objects, objectsWithDuplicateIdentifiersRemoved P.diffable objects, blocks⟩
        hsections hnodup hshown rfl (nodup_objectsWithDuplicateIdentifiersRemoved objects)
      refine Eq.subst (motive := UpdaterTransition P _ .blockRuns) heq.symm ?_
      exact .applied hqueued rfl hgone rfl hbackground hsound hobjects hshown'

theorem updater_step_transition (hP : P.Wf) {s s' : ListUpdater α β γ} {e : UpdaterEvent α}
    (h : UpdaterSound P s) (hstep : ListUpdater.step P s e = some s') :
    UpdaterTransition P s e s' := by
  cases e with
  | performUpdates objects =>
    rw [ListUpdater.step, if_neg (by simp [h.crashed])] at hstep
    cases hstep
    by_cases hview : s.view = .deallocated
    · rw [performUpdates, if_pos hview]
      exact .ignored hview
    · have hfrom : (s.fromObjects.or s.pendingTransitionToObjects).or
          (some s.sectionMap.objects) =
            some (s.pendingTransitionToObjects.getD s.sectionMap.objects) := by
        cases hf : s.fromObjects with
        | none => cases s.pendingTransitionToObjects <;> rfl
        | some f => rw [← h.fromObjects f hf]; rfl
      rw [performUpdates, if_neg hview, hfrom]
      exact .recorded hview
  | blockRuns =>
    rw [ListUpdater.step] at hstep
    split_ifs at hstep with hqueued
    cases hstep
    have hqueued : 0 < s.queued := by omega
    split_ifs with hskip
    · have hnone : s.state = .idle → s.fromObjects = none := by
        intro hidle
        rcases hskip with hstate | hchanges
        · exact absurd hidle hstate
        · simpa [hasChanges, h.toObjectsBlock] using hchanges
      exact .skipped hqueued hnone
    · simp only [hasChanges, h.toObjectsBlock, Bool.or_self, not_or, not_not, Bool.not_eq_true,
        Bool.not_eq_false'] at hskip
      obtain ⟨hidle, hchanges⟩ := hskip
      exact performBatchUpdates_transition hP h hqueued hidle hchanges
  | diffed =>
    rw [ListUpdater.step] at hstep
    split_ifs at hstep with hstate
    obtain ⟨update, hinFlight, rfl⟩ := Option.map_eq_some_iff.1 hstep
    have hstate : s.state = .queuedBatchUpdate := by
      by_contra hne
      exact hstate (Or.inr hne)
    have hphase := h.inFlight
    rw [hstate] at hphase
    obtain ⟨_, hsome, hfrom, hto, hpending⟩ := hphase
    obtain rfl := Option.some.inj (hinFlight.symm.trans hsome)
    obtain ⟨sectionMap, shown, heq, hsections, hmap, hshown⟩ :=
      performUpdate_eq hP update h.sections h.nodup h.shown hfrom hto
    rw [heq]
    exact .diffed hstate hinFlight hpending hsections hmap hshown
  | batchUpdateEnds finished =>
    rw [ListUpdater.step] at hstep
    split_ifs at hstep with hstate
    obtain ⟨update, hinFlight, rfl⟩ := Option.map_eq_some_iff.1 hstep
    have hstate : s.state = .executedBatchUpdateBlock := by
      by_contra hne
      exact hstate (Or.inr hne)
    exact .ended hstate hinFlight
  | moveToWindow inWindow =>
    rw [ListUpdater.step] at hstep
    by_cases hview : s.crashed ∨ s.view = .deallocated
    · rw [if_pos hview] at hstep
      cases hstep
    · rw [if_neg hview] at hstep
      cases hstep
      exact UpdaterTransition.moved fun heq => hview (Or.inr heq)
  | deallocated =>
    rw [ListUpdater.step] at hstep
    split_ifs at hstep with hinFlight
    cases hstep
    refine .deallocated ?_
    by_contra hne
    exact hinFlight (Or.inr (Option.isSome_iff_ne_none.2 hne))

/-! ## All runs -/

/-- What holds after every run. -/
theorem updater_run (hP : P.Wf) {objects : List α} {es : List (UpdaterEvent α)}
    {s : ListUpdater α β γ}
    (hrun : Runs.run (ListUpdater.step P) (connected P objects) es = some s) :
    UpdaterSound P s ∧ UpdaterHandlers es s ∧
      (s.view ≠ .deallocated → UpdaterServes P objects es s) := by
  refine Runs.run_induct (I := fun past s => UpdaterSound P s ∧ UpdaterHandlers past s ∧
    (s.view ≠ .deallocated → UpdaterServes P objects past s)) ?_ ?_ es s hrun
  · refine ⟨updaterSound_connected hP objects, ?_⟩
    obtain ⟨sectionMap, heq, _, hobjects⟩ := connected_eq hP objects
    rw [heq]
    refine ⟨⟨rfl, List.Perm.refl _, fun _ => rfl⟩, fun _ => ?_⟩
    exact ⟨nofun, ⟨objects, rfl, hobjects⟩, nofun⟩
  · intro past e s s' _ hstep ⟨h, hh, hserves⟩
    have ht := updater_step_transition hP h hstep
    exact ⟨ht.sound h, ht.handlers h hh,
      fun hview => ht.serves h hh (hserves (ht.view hview)) hview⟩

/-- **Every handler is called once.**  Each call's handler has been called, or the update in flight
    will call it, or it waits for the next one; and until the collection view goes, they are in the
    order of the calls. -/
theorem completions_once (P : UpdaterParams α κ β γ) (hP : P.Wf) {objects : List α}
    {es : List (UpdaterEvent α)} {s : ListUpdater α β γ}
    (hrun : Runs.run (ListUpdater.step P) (connected P objects) es = some s) :
    s.handlers.Perm (List.range (es.filterMap UpdaterEvent.objects).length) ∧
      (s.view ≠ .deallocated →
        s.handlers = List.range (es.filterMap UpdaterEvent.objects).length) := by
  obtain ⟨_, hh, _⟩ := updater_run hP hrun
  rw [← hh.calls]
  exact ⟨hh.perm, hh.eq⟩

/-- The second call is ignored, since the collection view is gone, before the first is served. -/
theorem completions_once_keyed :
    let P := UpdaterParams.keyed {}
    let es := [.performUpdates [(2, 0)], .deallocated, .performUpdates [(3, 0)]]
    ∃ s, Runs.run (ListUpdater.step P) (connected P [(1, 0)]) es = some s ∧
      s.completed = [(1, false)] ∧ s.completionBlocks = [0] ∧
      s.handlers.Perm (List.range (es.filterMap UpdaterEvent.objects).length) ∧
      (s.view ≠ .deallocated →
        s.handlers = List.range (es.filterMap UpdaterEvent.objects).length) := by
  intro P es
  have hrun : Runs.run (ListUpdater.step P) (connected P [(1, 0)]) es = some _ := rfl
  exact ⟨_, rfl, rfl, rfl, completions_once P (UpdaterParams.keyed_wf {}) hrun⟩

/-- When no internal event is enabled, nothing is recorded and no update is in flight. -/
theorem UpdaterSound.settled {s : ListUpdater α β γ} (h : UpdaterSound P s)
    (hnone : ∀ e : UpdaterEvent α, e.internal → ListUpdater.step P s e = none) :
    s.state = .idle ∧ s.fromObjects = none := by
  have hqueued : s.queued = 0 := by
    have hblock := hnone .blockRuns rfl
    rw [ListUpdater.step] at hblock
    split_ifs at hblock with hcond
    exact hcond.resolve_left (by simp [h.crashed])
  have hphase := h.inFlight
  have hidle : s.state = .idle := by
    cases hstate : s.state with
    | idle => rfl
    | queuedBatchUpdate =>
      rw [hstate] at hphase
      obtain ⟨update, hinFlight, _⟩ := hphase
      have hdiffed := hnone .diffed rfl
      rw [ListUpdater.step, if_neg (by simp [h.crashed, hstate]), hinFlight] at hdiffed
      cases hdiffed
    | executedBatchUpdateBlock =>
      rw [hstate] at hphase
      obtain ⟨update, hinFlight⟩ := Option.ne_none_iff_exists'.1 hphase.1
      have hends := hnone (.batchUpdateEnds true) rfl
      rw [ListUpdater.step, if_neg (by simp [h.crashed, hstate]), hinFlight] at hends
      cases hends
  refine ⟨hidle, ?_⟩
  by_contra hne
  exact (h.queued hne hidle).ne' hqueued

end

end HeroQ
