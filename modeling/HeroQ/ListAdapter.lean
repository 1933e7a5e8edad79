/-
  The adapters of the app.

  Each makes its objects anew for every update, so none is ever the same as one before, and hands
  them to the updater of IGListKit with its default options; the view controller keeps the
  collection view, whose batch updates are a parameter.  If it carries them out as documented, it
  shows the objects of the last update, or still those of an earlier one (`adapter_step`), and the
  former when no block waits and no update is in flight (`AdapterSound.settled`).
-/
import HeroQ.ListUpdater

namespace HeroQ

open ListUpdater

/-- An object that an adapter has made. -/
structure Reference (O : Type) where
  address : ℕ
  object : O
  deriving DecidableEq

/-- What happens to the updater of an adapter. -/
inductive AdapterEvent where
  | blockRuns
  | batchUpdateEnds (finished : Bool)
  | moveToWindow (inWindow : Bool)
  deriving DecidableEq

/-- The event of the updater. -/
def AdapterEvent.updaterEvent {O : Type} : AdapterEvent → UpdaterEvent (Reference O)
  | .blockRuns => .blockRuns
  | .batchUpdateEnds finished => .batchUpdateEnds finished
  | .moveToWindow inWindow => .moveToWindow inWindow

/-- The events that go on with the updates asked for. -/
def AdapterEvent.internal : AdapterEvent → Bool
  | .moveToWindow _ => false
  | _ => true

variable {O : Type}

/-- The objects that are made after `made` others. -/
def references (made : ℕ) (objects : List O) : List (Reference O) :=
  (objects.zipIdx made).map fun (object, address) => ⟨address, object⟩

theorem map_object_references (made : ℕ) (objects : List O) :
    (references made objects).map Reference.object = objects := by
  rw [references, List.map_map]
  exact List.zipIdx_map_fst made objects

theorem map_address_references (made : ℕ) (objects : List O) :
    (references made objects).map Reference.address = List.range' made objects.length := by
  rw [references, List.map_map]
  exact List.zipIdx_map_snd made objects

theorem nodup_references (made : ℕ) (objects : List O) : (references made objects).Nodup := by
  refine List.Nodup.of_map Reference.address ?_
  rw [map_address_references]
  exact List.nodup_range'

/-- The addresses are new. -/
theorem address_references {made : ℕ} {objects : List O} {reference : Reference O}
    (h : reference ∈ references made objects) :
    made ≤ reference.address ∧ reference.address < made + objects.length := by
  have haddress := List.mem_map_of_mem (f := Reference.address) h
  rwa [map_address_references, List.mem_range'_1] at haddress

/-- An adapter with its updater. -/
structure ListAdapter (O : Type) where
  listDiffable : List (Reference O)
  /-- how many objects have been made -/
  made : ℕ
  updater : ListUpdater (Reference O) (Reference O) ℕ
  deriving DecidableEq

variable [DecidableEq O] {U : UICollectionView (Reference O)}

/-- `diffIdentifier` of the objects is the object itself, and `isEqual` its identity. -/
def Reference.diffable : IGListDiffable (Reference O) (Reference O) where
  diffIdentifier object := object
  isEqualToDiffableObject object other := object == other

namespace ListAdapter

/-- What the updater rests on: the data source makes a section controller for every object, and a
    section has one item. -/
def params (U : UICollectionView (Reference O)) :
    UpdaterParams (Reference O) (Reference O) (Reference O) ℕ where
  diffable := Reference.diffable
  sameClass _ _ := true
  sectionControllerForObject asked _ := some asked
  cells object := [object]
  performBatchUpdates := U

/-- The adapter with its collection view set, before it has made an object. -/
def connected : ListAdapter O where
  listDiffable := []
  made := 0
  updater := {}

/-- `performUpdates` of a view controller: the adapter makes the objects and tells its updater. -/
def performUpdates (objects : List O) (a : ListAdapter O) : ListAdapter O :=
  let listDiffable := references a.made objects
  { listDiffable := listDiffable
    made := a.made + objects.length
    updater := a.updater.performUpdates listDiffable }

/-- The objects whose sections the collection view shows. -/
def shown (a : ListAdapter O) : List (Reference O) := a.updater.shown.flatten

/-- The sections that the collection view shows. -/
def sections (a : ListAdapter O) : List O := a.shown.map Reference.object

variable (U : UICollectionView (Reference O))

/-- One event of the updater. -/
def step (a : ListAdapter O) (e : AdapterEvent) : Option (ListAdapter O) :=
  (ListUpdater.step (params U) a.updater e.updaterEvent).map fun updater =>
    { a with updater := updater }

/-- No block waits, and no update is in flight. -/
def Settled (a : ListAdapter O) : Prop := ∀ e : AdapterEvent, e.internal → a.step U e = none

theorem settled_iff {a : ListAdapter O} : a.Settled U ↔
    a.step U .blockRuns = none ∧ ∀ finished, a.step U (.batchUpdateEnds finished) = none := by
  refine ⟨fun h => ⟨h .blockRuns rfl, fun finished => h (.batchUpdateEnds finished) rfl⟩, ?_⟩
  rintro ⟨hblock, hends⟩ e he
  cases e with
  | blockRuns => exact hblock
  | batchUpdateEnds finished => exact hends finished
  | moveToWindow inWindow => cases he

instance : DecidablePred (Settled U) := fun _ => decidable_of_iff _ (settled_iff U).symm

end ListAdapter

/-- The updater is used as it expects. -/
theorem params_wf (hU : BatchUpdate.Documented U) : (ListAdapter.params U).Wf where
  reflexive object := beq_self_eq_true object
  returned _ _ := rfl
  new h h' := (Option.some.inj h).trans (Option.some.inj h').symm
  items _ := rfl
  performed := hU

/-- What the collection view shows are the objects, since versions of one are the same. -/
theorem eq_of_shows {shown : List (List (Reference O))} {objects : List (Reference O)}
    (h : Shows (ListAdapter.params U) shown objects) : shown.flatten = objects := by
  have hversion : ∀ o n : Reference O,
      Relation.ReflTransGen (Version (ListAdapter.params U).diffable) o n → o = n := by
    intro o n h
    induction h with
    | refl => rfl
    | tail _ hlast ih => exact ih.trans hlast.1
  obtain ⟨versions, rfl, hall⟩ := h
  obtain rfl : versions = objects := List.forall₂_eq_eq_eq ▸ hall.imp hversion
  exact List.flatMap_singleton' versions

theorem objectsWithDuplicateIdentifiersRemoved_nodup {objects : List (Reference O)}
    (h : objects.Nodup) :
    objectsWithDuplicateIdentifiersRemoved Reference.diffable objects = objects := by
  rw [objectsWithDuplicateIdentifiersRemoved_eq, FirstOcc.firstOcc_eq_self_iff]
  exact (List.map_id objects).symm ▸ h

/-- The updater works for the objects of the adapter. -/
structure AdapterSound (U : UICollectionView (Reference O)) (a : ListAdapter O) : Prop where
  updater : UpdaterSound (ListAdapter.params U) a.updater
  view : a.updater.view ≠ .deallocated
  /-- the difference is not computed in the background -/
  state : a.updater.state ≠ .queuedBatchUpdate
  nodup : a.listDiffable.Nodup
  latest : a.updater.toObjectsBlock.getD a.updater.sectionMap.objects = a.listDiffable
  made : ∀ reference ∈ a.listDiffable ++ a.shown, reference.address < a.made

theorem connected_updater :
    (ListAdapter.connected : ListAdapter O).updater =
      ListUpdater.connected (ListAdapter.params U) [] := rfl

theorem adapterSound_connected (hU : BatchUpdate.Documented U) : AdapterSound U .connected where
  updater := connected_updater (U := U) ▸ updaterSound_connected (params_wf hU) []
  view := nofun
  state := nofun
  nodup := List.nodup_nil
  latest := rfl
  made _ h := absurd h List.not_mem_nil

namespace AdapterSound

variable {a : ListAdapter O}

/-- What a call records. -/
theorem performUpdates_eq (h : AdapterSound U a) (objects : List O) :
    (a.performUpdates objects).updater =
      { a.updater with
        fromObjects := (a.updater.fromObjects.or a.updater.pendingTransitionToObjects).or
          (some a.updater.sectionMap.objects)
        toObjectsBlock := some (references a.made objects)
        completionBlocks := a.updater.completionBlocks ++ [a.updater.calls]
        queued := a.updater.queued + 1
        calls := a.updater.calls + 1 } :=
  if_neg h.view

theorem shown_performUpdates (h : AdapterSound U a) (objects : List O) :
    (a.performUpdates objects).shown = a.shown := by
  rw [ListAdapter.shown, h.performUpdates_eq, ListAdapter.shown]

theorem performUpdates (hU : BatchUpdate.Documented U) (h : AdapterSound U a) (objects : List O) :
    AdapterSound U (a.performUpdates objects) := by
  have hstep : ListUpdater.step (ListAdapter.params U) a.updater
      (.performUpdates (references a.made objects)) =
        some (a.performUpdates objects).updater := by
    rw [ListUpdater.step, if_neg (by simp [h.updater.crashed])]
    rfl
  have heq := h.performUpdates_eq objects
  refine ⟨(updater_step_transition (params_wf hU) h.updater hstep).sound h.updater, ?_, ?_,
    nodup_references _ _, ?_, ?_⟩
  · rw [heq]
    exact h.view
  · rw [heq]
    exact h.state
  · rw [heq]
    rfl
  · rw [h.shown_performUpdates]
    intro reference hmem
    rcases List.mem_append.1 hmem with hnew | hold
    · exact (address_references hnew).2
    · exact (h.made _ (List.mem_append_right _ hold)).trans_le (Nat.le_add_right ..)

theorem sections_performUpdates (h : AdapterSound U a) (objects : List O) :
    (a.performUpdates objects).sections = a.sections := by
  rw [ListAdapter.sections, h.shown_performUpdates, ListAdapter.sections]

/-- New objects are not those that are shown. -/
theorem performUpdates_ne (h : AdapterSound U a) {objects : List O} (hne : objects ≠ []) :
    (a.performUpdates objects).shown ≠ (a.performUpdates objects).listDiffable := by
  rw [h.shown_performUpdates]
  intro heq
  obtain ⟨reference, hmem⟩ := List.exists_mem_of_ne_nil (references a.made objects) (by
    simpa [references, List.zipIdx_eq_nil_iff] using hne)
  have hold : reference ∈ a.shown := heq ▸ hmem
  exact absurd (h.made _ (List.mem_append_right _ hold)) (not_lt.2 (address_references hmem).1)

/-- When no block waits and no update is in flight, the objects of the adapter are shown. -/
theorem settled (h : AdapterSound U a) (hsettled : a.Settled U) : a.shown = a.listDiffable := by
  have hupdater : ∀ e : UpdaterEvent (Reference O), e.internal →
      ListUpdater.step (ListAdapter.params U) a.updater e = none := by
    intro e he
    cases e with
    | blockRuns => exact Option.map_eq_none_iff.1 (hsettled .blockRuns rfl)
    | batchUpdateEnds finished =>
      exact Option.map_eq_none_iff.1 (hsettled (.batchUpdateEnds finished) rfl)
    | diffed => rw [ListUpdater.step, if_pos (Or.inr h.state)]
    | _ => cases he
  obtain ⟨_, hfrom⟩ := h.updater.settled hupdater
  have hto : a.updater.toObjectsBlock = none := by
    have hsome := h.updater.toObjectsBlock
    rwa [hfrom, Option.isSome_none, Option.isSome_eq_false_iff, Option.isNone_iff_eq_none] at hsome
  have hlatest := h.latest
  rw [hto, Option.getD_none] at hlatest
  rw [ListAdapter.shown, eq_of_shows h.updater.shown, hlatest]

end AdapterSound

/-- What an event does to an adapter. -/
structure AdapterStep (U : UICollectionView (Reference O)) (a : ListAdapter O) (e : AdapterEvent)
    (a' : ListAdapter O) : Prop where
  sound : AdapterSound U a'
  listDiffable : a'.listDiffable = a.listDiffable
  shown : a'.shown = a.shown ∨ a'.shown = a.listDiffable
  weight : a'.updater.weight + (if e.internal then 1 else 0) ≤ a.updater.weight

/-- **An event leaves the sections as they are, or shows the objects of the adapter.** -/
theorem adapter_step (hU : BatchUpdate.Documented U) {a a' : ListAdapter O} {e : AdapterEvent}
    (h : AdapterSound U a) (hstep : a.step U e = some a') : AdapterStep U a e a' := by
  obtain ⟨updater, hupdater, rfl⟩ := Option.map_eq_some_iff.1 hstep
  have ht := updater_step_transition (params_wf hU) h.updater hupdater
  have hsound := ht.sound h.updater
  have hweight : updater.weight + (if e.internal then 1 else 0) ≤ a.updater.weight := by
    have := ht.weight h.updater (by cases e <;> rfl)
    cases e <;> exact this
  have htaken : ∀ objects, a.updater.toObjectsBlock = some objects →
      objectsWithDuplicateIdentifiersRemoved Reference.diffable objects = a.listDiffable := by
    intro objects hto
    have hlatest := h.latest
    rw [hto, Option.getD_some] at hlatest
    rw [hlatest, objectsWithDuplicateIdentifiersRemoved_nodup h.nodup]
  have hmade : ∀ shown, shown = a.listDiffable →
      ∀ reference ∈ a.listDiffable ++ shown, reference.address < a.made := by
    rintro _ rfl reference hmem
    exact h.made _ (List.mem_append_left _ (by simpa using hmem))
  cases e with
  | blockRuns =>
    cases ht with
    | skipped =>
      exact ⟨⟨hsound, h.view, h.state, h.nodup, h.latest, h.made⟩, rfl, Or.inl rfl, hweight⟩
    | bailed _ _ hview => exact absurd hview h.view
    | reloaded _ _ hto _ hmap =>
      have heq := hmap.trans (htaken _ hto)
      have hshown := (eq_of_shows (U := U) (shows_cells _)).trans heq
      exact ⟨⟨hsound, h.view, h.state, h.nodup, heq, hmade _ hshown⟩, rfl, Or.inr hshown, hweight⟩
    | begun _ _ _ _ hbackground => cases hbackground
    | applied _ _ _ hto _ _ hmap hshows =>
      have heq := hmap.trans (htaken _ hto)
      have hshown := (eq_of_shows hshows).trans heq
      exact ⟨⟨hsound, h.view, nofun, h.nodup, heq, hmade _ hshown⟩, rfl, Or.inr hshown, hweight⟩
  | batchUpdateEnds finished =>
    cases ht with
    | ended => exact ⟨⟨hsound, h.view, nofun, h.nodup, h.latest, h.made⟩, rfl, Or.inl rfl, hweight⟩
  | moveToWindow inWindow =>
    cases ht with
    | moved =>
      refine ⟨⟨hsound, fun heq => ?_, h.state, h.nodup, h.latest, h.made⟩, rfl, Or.inl rfl, hweight⟩
      simp only at heq
      split_ifs at heq

end HeroQ
