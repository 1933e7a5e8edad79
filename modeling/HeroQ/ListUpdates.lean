/-
  What an update does to the sections of a collection view.

  * `objectsWithDuplicateIdentifiersRemoved` makes the identifiers distinct;
  * `flushCollectionView` turns a difference into the edits of a batch update: what has changed is
    deleted and inserted again, at indexes looked up in the maps of the difference, or its items are
    reloaded, if that is preferred and nothing else happens;
  * `flush_shows`: with distinct identifiers nothing fails, and the collection view shows the new
    objects, or versions of them that `isEqualToDiffableObject:` does not tell apart.

  The collection view, the data source and the objects are parameters (`UpdaterParams`), with what
  the updater expects of them (`UpdaterParams.Wf`).  Updates of single items, which the app never
  makes, are left out.
-/
import HeroQ.ListDiff
import HeroQ.Lib.FirstOcc
import Mathlib.Data.Finset.Lattice.Fold
import Mathlib.Logic.Relation
import Mathlib.Order.Lattice.Nat

namespace HeroQ

open BatchUpdate (Edits Tracks Reloads Documented perform documented_perform)

/-- The options of the updater, with their defaults. -/
structure UpdaterOptions where
  movesAsDeletesInserts : Bool := false
  preferItemReloadsForSectionReloads : Bool := false
  allowsBackgroundReloading : Bool := true
  /-- `IGListExperimentBackgroundDiffing` -/
  backgroundDiffing : Bool := false

section
variable {α κ : Type} [DecidableEq κ] (D : IGListDiffable α κ)

/-- The loop of `objectsWithDuplicateIdentifiersRemoved`: the identifiers seen, and the objects that
    are kept. -/
def removeDuplicate (s : (κ → Option α) × List α) (object : α) : (κ → Option α) × List α :=
  match s.1 (D.diffIdentifier object) with
  | none => (Function.update s.1 (D.diffIdentifier object) (some object), s.2 ++ [object])
  | some _ => s

/-- `objectsWithDuplicateIdentifiersRemoved` -/
def objectsWithDuplicateIdentifiersRemoved (objects : List α) : List α :=
  (objects.foldl (removeDuplicate D) (fun _ => none, [])).2

/-- The indexes of a set, in ascending order: `enumerateIndexesUsingBlock:`. -/
def indexes (set : Finset ℕ) : List ℕ := (List.range (set.sup id + 1)).filter (· ∈ set)

/-- `convertReloadToDeleteInsert`, for one index, on the deletes and the inserts. -/
def convertReload (result : IGListIndexSetResult κ) (fromObjects : List α)
    (s : Finset ℕ × Finset ℕ) (idx : ℕ) : Option (Finset ℕ × Finset ℕ) :=
  if fromObjects.length > 0 then
    (fromObjects[idx]?).bind fun object =>
      let diffIdentifier := D.diffIdentifier object
      match result.oldIndexMap diffIdentifier, result.newIndexMap diffIdentifier with
      | some fromIndex, some toIndex => some (insert fromIndex s.1, insert toIndex s.2)
      | _, _ => if idx ∈ result.deletes then some s else none
  else some (insert idx s.1, insert idx s.2)

/-- `convertSectionReloadToItemUpdates`, for one section. -/
def convertSectionReloadToItemUpdates (before : List ℕ) (sectionIndex : ℕ) : List (ℕ × ℕ) :=
  (List.range (before[sectionIndex]?.getD 0)).map fun itemIndex => (sectionIndex, itemIndex)

/-- The number of items in the section is unchanged. -/
def sameNumberOfItems (before after : List ℕ) (sectionIndex : ℕ) : Bool :=
  sectionIndex < before.length && sectionIndex < after.length &&
    before[sectionIndex]? == after[sectionIndex]?

/-- The loop that prefers item reloads, for one section. -/
def preferItemReload (result : IGListIndexSetResult κ) (fromObjects : List α)
    (before after : List ℕ) (s : (Finset ℕ × Finset ℕ) × List (ℕ × ℕ)) (sectionIndex : ℕ) :
    Option ((Finset ℕ × Finset ℕ) × List (ℕ × ℕ)) :=
  if sameNumberOfItems before after sectionIndex then
    some (s.1, s.2 ++ convertSectionReloadToItemUpdates before sectionIndex)
  else (convertReload D result fromObjects s.1 sectionIndex).map fun sections => (sections, s.2)

/-- `initWithInsertSections:…` of `IGListBatchUpdateData`: a move of a section that is deleted, or
    to one that is inserted, is discarded. -/
def IGListBatchUpdateData.init (insertSections deleteSections : Finset ℕ)
    (moveSections updateIndexPaths : List (ℕ × ℕ)) : Edits where
  deletes := deleteSections
  inserts := insertSections
  moves := moveSections.filter fun move => move.1 ∉ deleteSections ∧ move.2 ∉ insertSections
  reloads := updateIndexPaths

/-- `_flushCollectionView:…`, when the sections of the collection view have the numbers `before` of
    items, and those of its data source the numbers `after`. -/
def flushCollectionView (options : UpdaterOptions) (sectionReloads : Finset ℕ)
    (diffResult : IGListIndexSetResult κ) (fromObjects : List α) (before after : List ℕ) :
    Option Edits :=
  let reloads := diffResult.updates ∪ sectionReloads
  let moves := diffResult.moves.dedup
  let (deletes, inserts, moves) :=
    if options.movesAsDeletesInserts then
      (diffResult.deletes ∪ (moves.map Prod.fst).toFinset,
        diffResult.inserts ∪ (moves.map Prod.snd).toFinset, [])
    else (diffResult.deletes, diffResult.inserts, moves)
  if options.preferItemReloadsForSectionReloads ∧ moves = [] ∧ inserts = ∅ ∧ deletes = ∅ ∧
      reloads ≠ ∅ then
    ((indexes reloads).foldlM (preferItemReload D diffResult fromObjects before after)
      ((deletes, inserts), [])).map fun s => IGListBatchUpdateData.init s.1.2 s.1.1 moves s.2
  else
    ((indexes reloads).foldlM (convertReload D diffResult fromObjects) (deletes, inserts)).map
      fun s => IGListBatchUpdateData.init s.2 s.1 moves []

end

section
variable {α κ : Type} [DecidableEq κ] {D : IGListDiffable α κ}

theorem mem_indexes {set : Finset ℕ} {j : ℕ} : j ∈ indexes set ↔ j ∈ set := by
  rw [indexes, List.mem_filter, List.mem_range, decide_eq_true_iff, and_iff_right_iff_imp]
  exact fun hj => Nat.lt_succ_of_le (Finset.le_sup (f := id) hj)

/-- The loop keeps the first occurrences among the objects whose identifiers are not seen yet. -/
theorem foldl_removeDuplicate (objects : List α) : ∀ (map : κ → Option α) (out : List α),
    (objects.foldl (removeDuplicate D) (map, out)).2 =
      out ++ (FirstOcc.firstOcc D.diffIdentifier objects).filter
        fun object => (map (D.diffIdentifier object)).isNone := by
  induction objects with
  | nil => intro map out; simp
  | cons a objects ih =>
    intro map out
    rw [List.foldl_cons, FirstOcc.firstOcc_cons, List.filter_cons, List.filter_filter]
    cases ha : map (D.diffIdentifier a) with
    | none =>
      simp only [removeDuplicate, ha]
      rw [ih, if_pos (by rfl), List.append_assoc, List.singleton_append]
      congr 2
      refine List.filter_congr fun b _ => ?_
      by_cases hb : D.diffIdentifier b = D.diffIdentifier a <;> simp [hb]
    | some a' =>
      simp only [removeDuplicate, ha]
      rw [ih, if_neg (by simp)]
      congr 1
      refine List.filter_congr fun b _ => ?_
      by_cases hb : D.diffIdentifier b = D.diffIdentifier a <;> simp [hb, ha]

/-- Of the objects with one identifier, the first is kept. -/
theorem objectsWithDuplicateIdentifiersRemoved_eq (objects : List α) :
    objectsWithDuplicateIdentifiersRemoved D objects =
      FirstOcc.firstOcc D.diffIdentifier objects := by
  rw [objectsWithDuplicateIdentifiersRemoved, foldl_removeDuplicate]
  simp

theorem indexMap_concat (array : List α) (a : α) :
    indexMap D (array ++ [a]) =
      Function.update (indexMap D array) (D.diffIdentifier a) (some array.length) := by
  rw [indexMap, List.zipIdx_append, List.foldl_append, Nat.zero_add]
  rfl

/-- The map of an array without repetitions is the index of each identifier. -/
theorem indexMap_eq_some {array : List α} (h : (array.map D.diffIdentifier).Nodup) {k : κ} {i : ℕ} :
    indexMap D array k = some i ↔ ∃ a, array[i]? = some a ∧ D.diffIdentifier a = k := by
  induction array using List.reverseRecOn generalizing i with
  | nil => simp [indexMap]
  | append_singleton array a ih =>
    rw [List.map_append, List.map_singleton, List.nodup_append] at h
    obtain ⟨hnodup, _, hnew⟩ := h
    have hget : ∀ b, (array ++ [a])[i]? = some b ↔
        array[i]? = some b ∨ i = array.length ∧ a = b := by
      intro b
      rw [List.getElem?_append]
      split_ifs with hlt
      · exact (or_iff_left fun hi => hlt.ne hi.1).symm
      · rw [List.getElem?_eq_none (not_lt.1 hlt), List.getElem?_singleton]
        simp only [reduceCtorEq, false_or]
        split_ifs with hi
        · have : i = array.length := by omega
          simp [this]
        · have : i ≠ array.length := by omega
          simp [this]
    rw [indexMap_concat]
    by_cases hk : k = D.diffIdentifier a
    · subst hk
      rw [Function.update_self, Option.some.injEq]
      constructor
      · rintro rfl
        exact ⟨a, (hget a).2 (Or.inr ⟨rfl, rfl⟩), rfl⟩
      · rintro ⟨b, hb, hkey⟩
        rcases (hget b).1 hb with hb | ⟨hi, _⟩
        · have hmem := List.mem_map_of_mem (f := D.diffIdentifier) (List.mem_of_getElem? hb)
          exact absurd hkey (hnew _ hmem _ (List.mem_singleton_self _))
        · exact hi.symm
    · rw [Function.update_of_ne hk, ih hnodup]
      refine exists_congr fun b => and_congr_left fun hkey => ?_
      rw [hget]
      exact (or_iff_left fun hi => hk (by rw [← hkey, hi.2])).symm

/-- The maps of a difference, at an object of the old array. -/
theorem IsDiff.maps [DecidableEq α] {option : IGListDiffOption} {fromObjects toObjects : List α}
    {r : IGListIndexSetResult κ} (h : IsDiff D option fromObjects toObjects r)
    (hfrom : (fromObjects.map D.diffIdentifier).Nodup)
    (hto : (toObjects.map D.diffIdentifier).Nodup) {idx : ℕ} {object : α}
    (hobject : fromObjects[idx]? = some object) :
    r.oldIndexMap (D.diffIdentifier object) = some idx ∧
      r.newIndexMap (D.diffIdentifier object) = D.origin toObjects fromObjects idx := by
  have hkey : (fromObjects.map D.diffIdentifier)[idx]? = some (D.diffIdentifier object) := by
    rw [List.getElem?_map, hobject, Option.map_some]
  refine ⟨?_, Option.ext fun i => ?_⟩
  · rw [h.oldIndexMap]
    exact (indexMap_eq_some hfrom).2 ⟨object, hobject, rfl⟩
  · rw [h.newIndexMap, indexMap_eq_some hto, IGListDiffable.origin,
      Occurrences.counterpart_of_nodup hto hfrom]
    simp only [hkey, Option.some.injEq, List.getElem?_map, Option.map_eq_some_iff]
    constructor
    · rintro ⟨a, ha, hk⟩
      exact ⟨_, rfl, a, ha, hk⟩
    · rintro ⟨_, rfl, a, ha, hk⟩
      exact ⟨a, ha, hk⟩

section
variable [DecidableEq α]

/-- The reloads are converted one by one. -/
theorem foldlM_convertReload {option : IGListDiffOption} {fromObjects toObjects : List α}
    {r : IGListIndexSetResult κ} (h : IsDiff D option fromObjects toObjects r)
    (hfrom : (fromObjects.map D.diffIdentifier).Nodup)
    (hto : (toObjects.map D.diffIdentifier).Nodup) : ∀ (l : List ℕ) (s : Finset ℕ × Finset ℕ),
    (∀ j ∈ l, j < fromObjects.length) →
      ∃ s', l.foldlM (convertReload D r fromObjects) s = some s' ∧
        (∀ j, j ∈ s'.1 ↔ j ∈ s.1 ∨ j ∈ l ∧ D.origin toObjects fromObjects j ≠ none) ∧
        ∀ i, i ∈ s'.2 ↔ i ∈ s.2 ∨ ∃ j ∈ l, D.origin fromObjects toObjects i = some j := by
  intro l
  induction l with
  | nil => intro s _; exact ⟨s, rfl, by simp, by simp⟩
  | cons idx l ih =>
    intro s hl
    have hidx : idx < fromObjects.length := hl idx List.mem_cons_self
    have hobject := List.getElem?_eq_getElem hidx
    obtain ⟨hold, hnew⟩ := h.maps hfrom hto hobject
    have hrest := fun s => ih s fun j hj => hl j (List.mem_cons_of_mem idx hj)
    rcases hi : D.origin toObjects fromObjects idx with _ | i
    · have hconvert : convertReload D r fromObjects s idx = some s := by
        simp only [convertReload, if_pos (Nat.zero_lt_of_lt hidx), hobject, Option.bind_some, hold,
          hnew, hi]
        rw [if_pos ((h.mem_deletes idx).2 ⟨hidx, hi⟩)]
      obtain ⟨s', hs', hdel, hins⟩ := hrest s
      refine ⟨s', by rw [List.foldlM_cons, hconvert]; exact hs', fun j => ?_, fun i => ?_⟩
      · rw [hdel, List.mem_cons]
        by_cases hj : j = idx
        · simp [hj, hi]
        · simp [hj]
      · have hne : D.origin fromObjects toObjects i ≠ some idx := fun ho => by
          rw [origin_comm, hi] at ho
          cases ho
        rw [hins]
        simp [hne]
    · have hconvert :
          convertReload D r fromObjects s idx = some (insert idx s.1, insert i s.2) := by
        simp only [convertReload, if_pos (Nat.zero_lt_of_lt hidx), hobject, Option.bind_some, hold,
          hnew, hi]
      obtain ⟨s', hs', hdel, hins⟩ := hrest (insert idx s.1, insert i s.2)
      refine ⟨s', by rw [List.foldlM_cons, hconvert]; exact hs', fun j => ?_, fun i' => ?_⟩
      · rw [hdel, List.mem_cons, Finset.mem_insert]
        by_cases hj : j = idx
        · simp [hj, hi]
        · simp [hj]
      · rw [hins, Finset.mem_insert]
        have hi' : D.origin fromObjects toObjects i' = some idx ↔ i' = i := by
          rw [origin_comm, hi, Option.some.injEq, eq_comm]
        simp only [List.mem_cons, exists_eq_or_imp, hi']
        tauto

end

/-- The sections whose items are reloaded instead. -/
def itemReloads (options : UpdaterOptions) (sectionReloads : Finset ℕ)
    (r : IGListIndexSetResult κ) (before after : List ℕ) : Finset ℕ :=
  if options.preferItemReloadsForSectionReloads ∧ r.moves = [] ∧ r.inserts = ∅ ∧ r.deletes = ∅ then
    (r.updates ∪ sectionReloads).filter fun j => sameNumberOfItems before after j
  else ∅

/-- The old indexes whose sections are deleted to be inserted again. -/
def replaced (options : UpdaterOptions) (sectionReloads : Finset ℕ)
    (r : IGListIndexSetResult κ) (before after : List ℕ) : Finset ℕ :=
  (r.updates ∪ sectionReloads) \ itemReloads options sectionReloads r before after ∪
    if options.movesAsDeletesInserts then (r.moves.map Prod.fst).toFinset else ∅

/-- The old index of an object whose section is kept. -/
def keptOrigin (D : IGListDiffable α κ) (options : UpdaterOptions) (sectionReloads : Finset ℕ)
    (r : IGListIndexSetResult κ) (fromObjects toObjects : List α) (before after : List ℕ) (i : ℕ) :
    Option ℕ :=
  (D.origin fromObjects toObjects i).filter
    (· ∉ replaced options sectionReloads r before after)

omit [DecidableEq κ] in
/-- The items of the sections that keep their number are reloaded, and the other sections are
    converted. -/
theorem foldlM_preferItemReload (r : IGListIndexSetResult κ) (fromObjects : List α)
    (before after : List ℕ) : ∀ (l : List ℕ) (s : Finset ℕ × Finset ℕ) (paths : List (ℕ × ℕ)),
    l.foldlM (preferItemReload D r fromObjects before after) (s, paths) =
      ((l.filter fun j => !sameNumberOfItems before after j).foldlM
        (convertReload D r fromObjects) s).map fun s' =>
          (s', paths ++ (l.filter fun j => sameNumberOfItems before after j).flatMap
            (convertSectionReloadToItemUpdates before)) := by
  intro l
  induction l with
  | nil => intro s paths; simp
  | cons j l ih =>
    intro s paths
    rw [List.foldlM_cons, preferItemReload]
    cases hsame : sameNumberOfItems before after j with
    | true => simp [ih, hsame]
    | false => cases hs : convertReload D r fromObjects s j <;> simp [ih, hsame, hs]

section
variable {option : IGListDiffOption} {fromObjects toObjects : List α} {r : IGListIndexSetResult κ}
  {options : UpdaterOptions} {sectionReloads : Finset ℕ} {before after : List ℕ}

theorem keptOrigin_eq_some {i j : ℕ} :
    keptOrigin D options sectionReloads r fromObjects toObjects before after i = some j ↔
      D.origin fromObjects toObjects i = some j ∧
        j ∉ replaced options sectionReloads r before after := by
  rw [keptOrigin, Option.filter_eq_some_iff, decide_eq_true_iff]

omit [DecidableEq κ] in
/-- Items are reloaded only if nothing is inserted, deleted or moved. -/
theorem mem_itemReloads {j : ℕ} (hj : j ∈ itemReloads options sectionReloads r before after) :
    (j ∈ r.updates ∪ sectionReloads ∧ sameNumberOfItems before after j = true) ∧
      r.moves = [] ∧ r.inserts = ∅ ∧ r.deletes = ∅ := by
  rw [itemReloads] at hj
  split_ifs at hj with hnothing
  · exact ⟨Finset.mem_filter.1 hj, hnothing.2⟩
  · exact absurd hj (Finset.notMem_empty j)

omit [DecidableEq κ] in
/-- Both ways of flushing the reloads: the sections whose items are not reloaded are converted. -/
theorem flushCollectionView_eq (hmoves : r.moves.Nodup) (options : UpdaterOptions)
    (sectionReloads : Finset ℕ) (fromObjects : List α) (before after : List ℕ) :
    flushCollectionView D options sectionReloads r fromObjects before after =
      (((indexes (r.updates ∪ sectionReloads)).filter
        (· ∉ itemReloads options sectionReloads r before after)).foldlM
          (convertReload D r fromObjects)
          (if options.movesAsDeletesInserts then
            (r.deletes ∪ (r.moves.map Prod.fst).toFinset,
              r.inserts ∪ (r.moves.map Prod.snd).toFinset)
          else (r.deletes, r.inserts))).map fun s =>
        IGListBatchUpdateData.init s.2 s.1 (if options.movesAsDeletesInserts then [] else r.moves)
          (((indexes (r.updates ∪ sectionReloads)).filter
            (· ∈ itemReloads options sectionReloads r before after)).flatMap
              (convertSectionReloadToItemUpdates before)) := by
  by_cases hnothing : options.preferItemReloadsForSectionReloads ∧ r.moves = [] ∧ r.inserts = ∅ ∧
      r.deletes = ∅
  · have hitems : ∀ j ∈ indexes (r.updates ∪ sectionReloads),
        (j ∈ itemReloads options sectionReloads r before after ↔
          sameNumberOfItems before after j = true) := by
      intro j hj
      rw [itemReloads, if_pos hnothing, Finset.mem_filter]
      exact and_iff_right (mem_indexes.1 hj)
    obtain ⟨hprefer, hmv, hins, hdel⟩ := hnothing
    have hfilter : (indexes (r.updates ∪ sectionReloads)).filter
        (· ∈ itemReloads options sectionReloads r before after) =
          (indexes (r.updates ∪ sectionReloads)).filter
            fun j => sameNumberOfItems before after j := by
      refine List.filter_congr fun j hj => ?_
      rw [Bool.eq_iff_iff, decide_eq_true_iff]
      exact hitems j hj
    have hfilter' : (indexes (r.updates ∪ sectionReloads)).filter
        (· ∉ itemReloads options sectionReloads r before after) =
          (indexes (r.updates ∪ sectionReloads)).filter
            fun j => !sameNumberOfItems before after j := by
      refine List.filter_congr fun j hj => ?_
      simp [hitems j hj]
    rw [hfilter, hfilter']
    rcases eq_or_ne (r.updates ∪ sectionReloads) ∅ with hnone | hsome
    · simp [flushCollectionView, hprefer, hmv, hins, hdel, hnone, indexes]
    · simp [flushCollectionView, hprefer, hmv, hins, hdel, hsome, foldlM_preferItemReload,
        Function.comp_def]
  · have hitems : itemReloads options sectionReloads r before after = ∅ := if_neg hnothing
    have hcond : ¬(options.preferItemReloadsForSectionReloads = true ∧ r.moves = [] ∧
        r.inserts = ∅ ∧ r.deletes = ∅ ∧ r.updates ∪ sectionReloads ≠ ∅) :=
      fun hall => hnothing ⟨hall.1, hall.2.1, hall.2.2.1, hall.2.2.2.1⟩
    cases hoption : options.movesAsDeletesInserts with
    | false =>
      simp only [flushCollectionView, hitems, hoption, hmoves.dedup, Bool.false_eq_true, if_false]
      rw [if_neg hcond]
      simp
    | true =>
      have hcond' : ¬(options.preferItemReloadsForSectionReloads = true ∧
          r.inserts ∪ (r.moves.map Prod.snd).toFinset = ∅ ∧
          r.deletes ∪ (r.moves.map Prod.fst).toFinset = ∅ ∧ r.updates ∪ sectionReloads ≠ ∅) := by
        rintro ⟨hprefer, hins, hdel, hsome⟩
        rw [Finset.union_eq_empty] at hins hdel
        refine hcond ⟨hprefer, ?_, hins.1, hdel.1, hsome⟩
        simpa using hdel.2
      simp only [flushCollectionView, hitems, hoption, hmoves.dedup, if_true, true_and]
      rw [if_neg hcond']
      simp

variable [DecidableEq α]

/-- What is flushed to the collection view: what is replaced is deleted and inserted. -/
theorem flush_eq (h : IsDiff D option fromObjects toObjects r)
    (hfrom : (fromObjects.map D.diffIdentifier).Nodup)
    (hto : (toObjects.map D.diffIdentifier).Nodup) (options : UpdaterOptions)
    (before after : List ℕ) (hreloads : ∀ j ∈ sectionReloads, j < fromObjects.length) :
    ∃ deletes inserts paths,
      flushCollectionView D options sectionReloads r fromObjects before after =
        some (IGListBatchUpdateData.init inserts deletes
          (if options.movesAsDeletesInserts then [] else r.moves) paths) ∧
      (∀ j, j ∈ deletes ↔ j ∈ r.deletes ∨
        j ∈ replaced options sectionReloads r before after ∧
          D.origin toObjects fromObjects j ≠ none) ∧
      (∀ i, i ∈ inserts ↔ i ∈ r.inserts ∨
        ∃ j ∈ replaced options sectionReloads r before after,
          D.origin fromObjects toObjects i = some j) ∧
      ∀ j k, (j, k) ∈ paths ↔
        j ∈ itemReloads options sectionReloads r before after ∧ k < before[j]?.getD 0 := by
  have hl : ∀ j ∈ (indexes (r.updates ∪ sectionReloads)).filter
      (· ∉ itemReloads options sectionReloads r before after), j < fromObjects.length := by
    intro j hj
    rcases Finset.mem_union.1 (mem_indexes.1 (List.mem_filter.1 hj).1) with hup | hre
    · obtain ⟨i, _, ho, _⟩ := (h.mem_updates j).1 hup
      exact (origin_lt ho).2
    · exact hreloads j hre
  have hpaths : ∀ j k, (j, k) ∈ ((indexes (r.updates ∪ sectionReloads)).filter
      (· ∈ itemReloads options sectionReloads r before after)).flatMap
        (convertSectionReloadToItemUpdates before) ↔
      j ∈ itemReloads options sectionReloads r before after ∧ k < before[j]?.getD 0 := by
    intro j k
    simp only [List.mem_flatMap, List.mem_filter, mem_indexes, decide_eq_true_iff,
      convertSectionReloadToItemUpdates, List.mem_map, List.mem_range, Prod.mk.injEq]
    constructor
    · rintro ⟨_, ⟨_, hj⟩, _, hk, rfl, rfl⟩
      exact ⟨hj, hk⟩
    · rintro ⟨hj, hk⟩
      exact ⟨j, ⟨(mem_itemReloads hj).1.1, hj⟩, k, hk, rfl, rfl⟩
  rw [flushCollectionView_eq h.nodup_moves]
  cases hoption : options.movesAsDeletesInserts with
  | false =>
    obtain ⟨s, hs, hdel, hins⟩ := foldlM_convertReload h hfrom hto _ (r.deletes, r.inserts) hl
    refine ⟨s.1, s.2, _, ?_, ?_, ?_, hpaths⟩
    · simp only [Bool.false_eq_true, if_false, hs]
      rfl
    · simpa [replaced, hoption, mem_indexes] using hdel
    · simpa [replaced, hoption, mem_indexes] using hins
  | true =>
    obtain ⟨s, hs, hdel, hins⟩ := foldlM_convertReload h hfrom hto _
      (r.deletes ∪ (r.moves.map Prod.fst).toFinset, r.inserts ∪ (r.moves.map Prod.snd).toFinset) hl
    refine ⟨s.1, s.2, _, ?_, fun j => ?_, fun i => ?_, hpaths⟩
    · simp only [if_true, hs]
      rfl
    · have hsome : j ∈ (r.moves.map Prod.fst).toFinset →
          D.origin toObjects fromObjects j ≠ none := by
        intro hj hnone
        obtain ⟨⟨_, i⟩, hmv, rfl⟩ := List.mem_map.1 (List.mem_toFinset.1 hj)
        rw [origin_comm.1 (h.mem_moves.1 hmv).1] at hnone
        cases hnone
      rw [hdel, List.mem_filter, mem_indexes, replaced, if_pos hoption, decide_eq_true_iff]
      simp only [Finset.mem_union, Finset.mem_sdiff]
      tauto
    · have hsnd : i ∈ (r.moves.map Prod.snd).toFinset ↔
          ∃ j ∈ (r.moves.map Prod.fst).toFinset, D.origin fromObjects toObjects i = some j := by
        simp only [List.mem_toFinset]
        constructor
        · intro hi
          obtain ⟨⟨j, _⟩, hmv, rfl⟩ := List.mem_map.1 hi
          exact ⟨j, List.mem_map_of_mem hmv, (h.mem_moves.1 hmv).1⟩
        · rintro ⟨j, hj, ho⟩
          exact (h.tracks.mem_tos ho).2 ((h.tracks.mem_froms ho).1 hj)
      rw [hins, replaced, if_pos hoption]
      simp only [Finset.mem_union, Finset.mem_sdiff, List.mem_filter, mem_indexes,
        decide_eq_true_iff, or_and_right, exists_or, ← hsnd]
      exact or_assoc.trans (or_congr_right or_comm)

/-- **The edits flushed to the collection view track the objects whose sections are kept**, and
    reload the items of those that keep their number. -/
theorem flush_tracks (h : IsDiff D option fromObjects toObjects r)
    (hfrom : (fromObjects.map D.diffIdentifier).Nodup)
    (hto : (toObjects.map D.diffIdentifier).Nodup) (options : UpdaterOptions)
    (before after : List ℕ) (hreloads : ∀ j ∈ sectionReloads, j < fromObjects.length) :
    ∃ e, flushCollectionView D options sectionReloads r fromObjects before after = some e ∧
      Tracks e fromObjects.length toObjects.length
        (keptOrigin D options sectionReloads r fromObjects toObjects before after) ∧
      Reloads e before (itemReloads options sectionReloads r before after) := by
  obtain ⟨deletes, inserts, paths, hflush, hdel, hins, hpaths⟩ :=
    flush_eq h hfrom hto options before after hreloads
  have hkept : ∀ {i j}, D.origin fromObjects toObjects i = some j →
      (j ∈ deletes ↔ j ∈ replaced options sectionReloads r before after) ∧
        (i ∈ inserts ↔ j ∈ replaced options sectionReloads r before after) := by
    intro i j ho
    rw [hdel, hins, h.mem_deletes, h.mem_inserts, origin_comm.1 ho]
    simp [ho]
  -- of the objects whose sections are kept, the same ones move
  have hmoves : ∀ {i j},
      keptOrigin D options sectionReloads r fromObjects toObjects before after i = some j →
        ((j, i) ∈ (IGListBatchUpdateData.init inserts deletes
          (if options.movesAsDeletesInserts then [] else r.moves) paths).moves ↔
            (j, i) ∈ r.moves) := by
    intro i j hi
    obtain ⟨ho, hnot⟩ := keptOrigin_eq_some.1 hi
    rw [IGListBatchUpdateData.init, List.mem_filter, decide_eq_true_iff, (hkept ho).1, (hkept ho).2]
    cases hoption : options.movesAsDeletesInserts with
    | false => simp [hnot]
    | true =>
      have : (j, i) ∉ r.moves := fun hmv => hnot (Finset.mem_union_right _ (by
        simpa [hoption] using ⟨i, hmv⟩))
      simp [this]
  refine ⟨_, hflush, ⟨?_, ?_, ?_, ?_, ?_, ?_, ?_⟩, ?_, ?_, hpaths⟩
  · intro i j hi
    exact origin_lt (keptOrigin_eq_some.1 hi).1
  · intro i i' j hi hi'
    exact Occurrences.counterpart_inj (keptOrigin_eq_some.1 hi).1 (keptOrigin_eq_some.1 hi').1
  · intro j
    simp only [IGListBatchUpdateData.init, ne_eq, keptOrigin_eq_some, not_and, not_not]
    rw [hdel, h.mem_deletes]
    rcases hj : D.origin toObjects fromObjects j with _ | i
    · have hne : ∀ i, D.origin fromObjects toObjects i ≠ some j := fun i ho => by
        rw [origin_comm, hj] at ho
        cases ho
      simp [hne]
    · have hi : ∀ i', D.origin fromObjects toObjects i' = some j ↔ i' = i := fun i' => by
        rw [origin_comm, hj, Option.some.injEq, eq_comm]
      simp [hi, (origin_lt hj).1]
  · intro i
    simp only [IGListBatchUpdateData.init, keptOrigin]
    rw [hins, h.mem_inserts]
    rcases hi : D.origin fromObjects toObjects i with _ | j
    · simp
    · simp [Option.filter_some, (origin_lt hi).1]
  · intro j i hmv
    obtain ⟨hmem, hnot⟩ := List.mem_filter.1 hmv
    simp only [decide_eq_true_eq] at hnot
    cases hoption : options.movesAsDeletesInserts with
    | false =>
      rw [hoption] at hmem
      have ho := (h.mem_moves.1 hmem).1
      exact keptOrigin_eq_some.2 ⟨ho, fun hre => hnot.1 ((hkept ho).1.2 hre)⟩
    | true => simp [hoption] at hmem
  · refine List.Nodup.filter _ ?_
    split_ifs
    · exact List.nodup_nil
    · exact h.nodup_moves
  · intro i i' j j' hi hi' hmv hmv' hlt
    exact h.tracks.ordered (keptOrigin_eq_some.1 hi).1 (keptOrigin_eq_some.1 hi').1
      (fun hmem => hmv ((hmoves hi).2 hmem)) (fun hmem => hmv' ((hmoves hi').2 hmem)) hlt
  · intro j hj
    obtain ⟨_, hmv, _, hnone⟩ := mem_itemReloads hj
    simp [IGListBatchUpdateData.init, hdel, hnone, replaced, hj, hmv]
  · intro j hj
    obtain ⟨_, hmv, _⟩ := mem_itemReloads hj
    simp [IGListBatchUpdateData.init, hmv]

end

/-! ## What the collection view shows -/

/-- `o` and `n` are versions of one object that `isEqualToDiffableObject:` does not tell apart. -/
def Version (D : IGListDiffable α κ) (o n : α) : Prop :=
  D.diffIdentifier o = D.diffIdentifier n ∧ D.isEqualToDiffableObject n o = true

/-- An object whose section is kept has not changed, unless its items are reloaded. -/
theorem IsDiff.version_of_kept [DecidableEq α] {fromObjects toObjects : List α}
    {r : IGListIndexSetResult κ} (h : IsDiff D .equality fromObjects toObjects r)
    {options : UpdaterOptions} {sectionReloads : Finset ℕ} {before after : List ℕ} {i j : ℕ}
    {o n : α}
    (hkept : keptOrigin D options sectionReloads r fromObjects toObjects before after i = some j)
    (hitems : j ∉ itemReloads options sectionReloads r before after)
    (hj : fromObjects[j]? = some o) (hi : toObjects[i]? = some n) :
    Relation.ReflTransGen (Version D) o n := by
  obtain ⟨ho, hnot⟩ := keptOrigin_eq_some.1 hkept
  have hsame : isUpdated D .equality n o = false := by
    by_contra hchanged
    have hup := (h.mem_updates j).2 ⟨i, n, ho, hi, i, (origin_lt ho).1, j, n, o, ho, hi, hj, rfl,
      by simpa using hchanged⟩
    exact hnot (Finset.mem_union_left _
      (Finset.mem_sdiff.2 ⟨Finset.mem_union_left _ hup, hitems⟩))
  obtain ⟨n', o', hn', ho', hk⟩ := origin_objects ho
  obtain rfl := Option.some.inj (hi.symm.trans hn')
  obtain rfl := Option.some.inj (hj.symm.trans ho')
  rcases eq_or_ne n o with rfl | hne
  · exact Relation.ReflTransGen.refl
  · refine Relation.ReflTransGen.single ⟨hk.symm, ?_⟩
    simpa [isUpdated, hne] using hsame

end

/-- The batch updates of a collection view: what it shows after the edits of what it shows, when its
    data source has the sections given last. -/
abbrev UICollectionView (β : Type) :=
  Edits → List (List β) → List (List β) → Option (List (List β))

/-- What the updates of a list rest on: the objects and their classes; the data source, with the
    section controller that it returns the `asked`-th time; the items of the section of an object;
    the batch updates of the collection view; and the options. -/
structure UpdaterParams (α κ β γ : Type) where
  diffable : IGListDiffable α κ
  sameClass : α → α → Bool
  sectionControllerForObject (asked : ℕ) (object : α) : Option γ
  cells : α → List β
  performBatchUpdates : UICollectionView β
  options : UpdaterOptions := {}

/-- Assumptions on the parameters: an object equals itself, the data source makes a section
    controller whenever it is asked for one, an object that has not changed keeps the number of its
    items, and the collection view carries out batch updates as documented. -/
structure UpdaterParams.Wf {α κ β γ : Type} (P : UpdaterParams α κ β γ) : Prop where
  reflexive : ∀ object, P.diffable.isEqualToDiffableObject object object = true
  returned : ∀ asked object, (P.sectionControllerForObject asked object).isSome
  new : ∀ {asked asked' object object' c}, P.sectionControllerForObject asked object = some c →
    P.sectionControllerForObject asked' object' = some c → asked = asked'
  items : ∀ {o n}, Version P.diffable o n → (P.cells o).length = (P.cells n).length
  performed : Documented P.performBatchUpdates

section
variable {α κ β γ : Type} {P : UpdaterParams α κ β γ}

/-- The collection view shows the objects, section by section, or versions of them that are not told
    apart. -/
def Shows (P : UpdaterParams α κ β γ) (shown : List (List β)) (objects : List α) : Prop :=
  ∃ versions, shown = versions.map P.cells ∧
    List.Forall₂ (Relation.ReflTransGen (Version P.diffable)) versions objects

theorem shows_cells (objects : List α) : Shows P (objects.map P.cells) objects :=
  ⟨objects, rfl, List.forall₂_refl _⟩

theorem UpdaterParams.Wf.length_cells (hP : P.Wf) {o n : α}
    (h : Relation.ReflTransGen (Version P.diffable) o n) :
    (P.cells o).length = (P.cells n).length := by
  induction h with
  | refl => rfl
  | tail _ hlast ih => exact ih.trans (hP.items hlast)

section
variable [DecidableEq α] [DecidableEq κ] {sectionReloads : Finset ℕ}
  {fromObjects toObjects versions : List α} {r : IGListIndexSetResult κ} {i j : ℕ} {a b : α}

/-- What is shown of an object whose section is kept is a version of it, unless its items are
    reloaded. -/
theorem IsDiff.version_of_shown {before after : List ℕ}
    (h : IsDiff P.diffable .equality fromObjects toObjects r)
    (hversions : List.Forall₂ (Relation.ReflTransGen (Version P.diffable)) versions fromObjects)
    (hkept : keptOrigin P.diffable P.options sectionReloads r fromObjects toObjects before after i =
      some j)
    (hitems : j ∉ itemReloads P.options sectionReloads r before after)
    (hj : versions[j]? = some a) (hi : toObjects[i]? = some b) :
    Relation.ReflTransGen (Version P.diffable) a b := by
  obtain ⟨hlt, rfl⟩ := List.getElem?_eq_some_iff.1 hj
  have hlt' : j < fromObjects.length := hversions.length_eq ▸ hlt
  have hrest := h.version_of_kept hkept hitems (List.getElem?_eq_getElem hlt') hi
  exact (hversions.get hlt hlt').trans hrest

/-- A section that is kept keeps the number of its items. -/
theorem IsDiff.length_of_shown (hP : P.Wf)
    (h : IsDiff P.diffable .equality fromObjects toObjects r)
    (hversions : List.Forall₂ (Relation.ReflTransGen (Version P.diffable)) versions fromObjects)
    (hkept : keptOrigin P.diffable P.options sectionReloads r fromObjects toObjects
      (versions.map (List.length ∘ P.cells)) (toObjects.map (List.length ∘ P.cells)) i = some j)
    (hj : versions[j]? = some a) (hi : toObjects[i]? = some b) :
    (P.cells a).length = (P.cells b).length := by
  by_cases hmem : j ∈ itemReloads P.options sectionReloads r
      (versions.map (List.length ∘ P.cells)) (toObjects.map (List.length ∘ P.cells))
  · -- nothing moves, and the numbers of items have been compared
    obtain ⟨⟨_, hsame⟩, hmv, hins, hdel⟩ := mem_itemReloads hmem
    have horigin := h.origin_eq hins hdel hmv (List.getElem?_eq_some_iff.1 hi).1
    obtain rfl := Option.some.inj (horigin.symm.trans (keptOrigin_eq_some.1 hkept).1)
    simp only [sameNumberOfItems, Bool.and_eq_true, beq_iff_eq] at hsame
    simpa [hj, hi] using hsame.2
  · exact hP.length_cells (h.version_of_shown hversions hkept hmem hj hi)

end

/-- **What the collection view shows after an update.**  If it shows the objects before, nothing
    fails, neither the difference nor the conversion of the reloads nor the batch update, and then
    it shows the objects after. -/
theorem flush_shows [DecidableEq α] [DecidableEq κ] (P : UpdaterParams α κ β γ) (hP : P.Wf)
    {sectionReloads : Finset ℕ} {fromObjects toObjects : List α} {onScreen : List (List β)}
    (hfrom : (fromObjects.map P.diffable.diffIdentifier).Nodup)
    (hto : (toObjects.map P.diffable.diffIdentifier).Nodup)
    (hreloads : ∀ j ∈ sectionReloads, j < fromObjects.length)
    (hscreen : Shows P onScreen fromObjects) :
    ∃ r e shown, IGListDiffing P.diffable fromObjects toObjects .equality = some r ∧
      flushCollectionView P.diffable P.options sectionReloads r fromObjects
        (onScreen.map List.length) ((toObjects.map P.cells).map List.length) = some e ∧
      P.performBatchUpdates e onScreen (toObjects.map P.cells) = some shown ∧
      Shows P shown toObjects := by
  obtain ⟨versions, rfl, hversions⟩ := hscreen
  rw [List.map_map, List.map_map]
  obtain ⟨r, hr, hdiff⟩ := IGListDiffing_spec P.diffable .equality fromObjects toObjects
  obtain ⟨e, he, htracks, hitems⟩ := flush_tracks hdiff hfrom hto P.options
    (versions.map (List.length ∘ P.cells)) (toObjects.map (List.length ∘ P.cells)) hreloads
  rw [← hversions.length_eq] at htracks
  obtain ⟨versions', hperform, hall⟩ := htracks.perform_forall₂
    (R := Relation.ReflTransGen (Version P.diffable)) hP.performed hitems
    (hdiff.length_of_shown hP hversions) (fun _ => Relation.ReflTransGen.refl)
    (hdiff.version_of_shown hversions)
  exact ⟨r, e, _, hr, he, hperform, versions', rfl, hall⟩

end

/-- An object with an identifier and a content. -/
def IGListDiffable.keyed : IGListDiffable (ℕ × ℕ) ℕ where
  diffIdentifier := Prod.fst
  isEqualToDiffableObject object other := object.2 == other.2

/-- A section has an item, and one more for every two of its content. -/
def UpdaterParams.keyed (options : UpdaterOptions) : UpdaterParams (ℕ × ℕ) ℕ (ℕ × ℕ) ℕ where
  diffable := .keyed
  sameClass _ _ := true
  sectionControllerForObject asked _ := some asked
  cells object := List.replicate (object.2 / 2 + 1) object
  performBatchUpdates := perform
  options := options

theorem UpdaterParams.keyed_wf (options : UpdaterOptions) : (keyed options).Wf where
  reflexive object := beq_self_eq_true object.2
  returned _ _ := rfl
  new h h' := (Option.some.inj h).trans (Option.some.inj h').symm
  items := by
    rintro o n ⟨_, hsame⟩
    have hcontent : n.2 = o.2 := by simpa [keyed, IGListDiffable.keyed] using hsame
    simp [keyed, hcontent]
  performed := documented_perform

/-- The contents of the first and the third object change: the item of the first is reloaded, and
    the third, which gets more items, is deleted and inserted. -/
theorem flush_shows_keyed :
    let P := UpdaterParams.keyed { preferItemReloadsForSectionReloads := true }
    let fromObjects := [(1, 0), (2, 0), (3, 0)]
    let toObjects := [(1, 1), (2, 0), (3, 5)]
    let onScreen := fromObjects.map P.cells
    ((IGListDiffing P.diffable fromObjects toObjects .equality).bind fun r =>
      flushCollectionView P.diffable P.options ∅ r fromObjects (onScreen.map List.length)
        ((toObjects.map P.cells).map List.length)) = some ⟨{2}, {2}, [], [(0, 0)]⟩ ∧
    ∃ r e shown, IGListDiffing P.diffable fromObjects toObjects .equality = some r ∧
      flushCollectionView P.diffable P.options ∅ r fromObjects (onScreen.map List.length)
        ((toObjects.map P.cells).map List.length) = some e ∧
      P.performBatchUpdates e onScreen (toObjects.map P.cells) = some shown ∧
      Shows P shown toObjects :=
  ⟨by decide, flush_shows _ (UpdaterParams.keyed_wf _) (by decide) (by decide) (by simp)
    (shows_cells _)⟩

end HeroQ
