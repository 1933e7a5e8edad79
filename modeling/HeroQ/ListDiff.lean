/-
  The difference of two lists of sections: `IGListDiff`.

  The objects are compared by `diffIdentifier`; what is the same object, changed, is told by the
  option, by pointer or by `isEqualToDiffableObject:`.  Pointers are compared by `=`.

  * `IGListDiffing` is the function as the source has it: three passes over the arrays with a table
    of entries, each with a stack of the old indexes, then one scan for the deletes and one for the
    inserts, updates and moves.  An assertion that fails, or an index outside an array, is `none`;
  * `IGListDiffing_spec`: no assertion fails, and the result pairs the objects of the two arrays
    occurrence by occurrence (`Occurrences.counterpart`).
-/
import HeroQ.Lib.Occurrences
import HeroQ.Lib.BatchUpdate
import HeroQ.Lib.Loops
import Mathlib.Logic.Function.Basic

namespace HeroQ

/-- What `IGListDiffable` asks of the objects. -/
structure IGListDiffable (α κ : Type) where
  diffIdentifier : α → κ
  isEqualToDiffableObject : α → α → Bool

/-- `IGListDiffOption` -/
inductive IGListDiffOption where
  | pointerPersonality
  | equality
  deriving DecidableEq

/-- `IGListEntry`; the top of the stack comes first, `none` is `NSNotFound`. -/
structure IGListEntry where
  oldCounter : ℕ := 0
  newCounter : ℕ := 0
  oldIndexes : List (Option ℕ) := []
  updated : Bool := false
  deriving DecidableEq

/-- `IGListRecord`; the pointer to an entry of the table is the key of the entry. -/
structure IGListRecord (κ : Type) where
  entry : κ
  index : Option ℕ := none
  deriving DecidableEq

/-- `IGListIndexSetResult`; a move is from an index of the old array to one of the new. -/
structure IGListIndexSetResult (κ : Type) where
  inserts : Finset ℕ
  deletes : Finset ℕ
  updates : Finset ℕ
  moves : List (ℕ × ℕ)
  oldIndexMap : κ → Option ℕ
  newIndexMap : κ → Option ℕ

section
variable {α κ : Type} [DecidableEq α] [DecidableEq κ] (D : IGListDiffable α κ)

/-- `addIndexToMap` -/
def addIndexToMap (map : κ → Option ℕ) (x : α × ℕ) : κ → Option ℕ :=
  Function.update map (D.diffIdentifier x.1) (some x.2)

/-- The map of an array: `addIndexToMap` of all of its objects. -/
def indexMap (array : List α) : κ → Option ℕ :=
  array.zipIdx.foldl (addIndexToMap D) fun _ => none

/-- Pass 1, for an object of the new array with the given key. -/
def countNew (table : κ → IGListEntry) (key : κ) : κ → IGListEntry :=
  let entry := table key
  Function.update table key
    { entry with newCounter := entry.newCounter + 1, oldIndexes := none :: entry.oldIndexes }

/-- Pass 2, for an object of the old array with the given key and index. -/
def countOld (x : κ × ℕ) (table : κ → IGListEntry) : κ → IGListEntry :=
  let entry := table x.1
  Function.update table x.1
    { entry with oldCounter := entry.oldCounter + 1, oldIndexes := some x.2 :: entry.oldIndexes }

/-- The table after the first two passes; the second one is in descending order. -/
def entryTable (oldArray newArray : List α) : κ → IGListEntry :=
  (oldArray.map D.diffIdentifier).zipIdx.foldr countOld
    ((newArray.map D.diffIdentifier).foldl countNew fun _ => {})

/-- The comparison of the new and the old version of an object. -/
def isUpdated (option : IGListDiffOption) (n o : α) : Bool :=
  match option with
  | .pointerPersonality => n != o
  | .equality => n != o && !D.isEqualToDiffableObject n o

/-- The variables of pass 3. -/
structure MatchState (κ : Type) where
  table : κ → IGListEntry
  oldResultsArray : List (IGListRecord κ)
  newResultsArray : List (IGListRecord κ)

/-- Pass 3, for an object of the new array with its index. -/
def matchRecord (option : IGListDiffOption) (oldArray : List α) (s : MatchState κ) (x : α × ℕ) :
    Option (MatchState κ) :=
  (s.newResultsArray[x.2]?).bind fun record =>
    let entry := s.table record.entry
    match entry.oldIndexes with
    | [] => none
    | none :: oldIndexes =>
      some { s with
        table := Function.update s.table record.entry { entry with oldIndexes := oldIndexes } }
    | some originalIndex :: oldIndexes =>
      (oldArray[originalIndex]?).map fun o =>
        let entry := { entry with
          oldIndexes := oldIndexes
          updated := entry.updated || isUpdated D option x.1 o }
        let table := Function.update s.table record.entry entry
        if 0 < entry.newCounter ∧ 0 < entry.oldCounter then
          { table := table
            oldResultsArray := s.oldResultsArray.modify originalIndex
              fun record => { record with index := some x.2 }
            newResultsArray := s.newResultsArray.modify x.2
              fun record => { record with index := some originalIndex } }
        else { s with table := table }

/-- The variables of the scan for deletes. -/
structure DeleteScan (κ : Type) where
  runningOffset : ℕ := 0
  deleteOffsets : List ℕ := []
  mDeletes : Finset ℕ := ∅
  oldMap : κ → Option ℕ := fun _ => none

/-- The scan for deletes, for an object of the old array with its record and index. -/
def scanDelete (s : DeleteScan κ) (x : (α × IGListRecord κ) × ℕ) : DeleteScan κ :=
  let s := { s with
    deleteOffsets := s.deleteOffsets ++ [s.runningOffset]
    oldMap := addIndexToMap D s.oldMap (x.1.1, x.2) }
  match x.1.2.index with
  | none => { s with mDeletes := insert x.2 s.mDeletes, runningOffset := s.runningOffset + 1 }
  | some _ => s

/-- The variables of the scan for inserts, updates and moves. -/
structure InsertScan (κ : Type) where
  runningOffset : ℕ := 0
  mInserts : Finset ℕ := ∅
  mUpdates : Finset ℕ := ∅
  mMoves : List (ℕ × ℕ) := []
  newMap : κ → Option ℕ := fun _ => none

/-- The scan for inserts, updates and moves, for an object of the new array with its record and
    index. -/
def scanInsert (table : κ → IGListEntry) (deleteOffsets : List ℕ) (s : InsertScan κ)
    (x : (α × IGListRecord κ) × ℕ) : Option (InsertScan κ) :=
  let insertOffset := s.runningOffset
  let s := { s with newMap := addIndexToMap D s.newMap (x.1.1, x.2) }
  match x.1.2.index with
  | none => some { s with mInserts := insert x.2 s.mInserts, runningOffset := s.runningOffset + 1 }
  | some oldIndex => (deleteOffsets[oldIndex]?).map fun deleteOffset =>
    { s with
      mUpdates :=
        if (table x.1.2.entry).updated then insert oldIndex s.mUpdates else s.mUpdates
      mMoves :=
        if (oldIndex : ℤ) - deleteOffset + insertOffset ≠ x.2 then s.mMoves ++ [(oldIndex, x.2)]
        else s.mMoves }

/-- `IGListDiffing`, returning index sets. -/
def IGListDiffing (oldArray newArray : List α) (option : IGListDiffOption) :
    Option (IGListIndexSetResult κ) :=
  if newArray.length = 0 then
    some
      { inserts := ∅
        deletes := Finset.range oldArray.length
        updates := ∅
        moves := []
        oldIndexMap := indexMap D oldArray
        newIndexMap := fun _ => none }
  else if oldArray.length = 0 then
    some
      { inserts := Finset.range newArray.length
        deletes := ∅
        updates := ∅
        moves := []
        oldIndexMap := fun _ => none
        newIndexMap := indexMap D newArray }
  else
    (newArray.zipIdx.foldlM (matchRecord D option oldArray)
        { table := entryTable D oldArray newArray
          oldResultsArray := oldArray.map fun o => { entry := D.diffIdentifier o }
          newResultsArray := newArray.map fun n => { entry := D.diffIdentifier n } }).bind fun s =>
      let d := (oldArray.zip s.oldResultsArray).zipIdx.foldl (scanDelete D) {}
      ((newArray.zip s.newResultsArray).zipIdx.foldlM (scanInsert D s.table d.deleteOffsets)
          {}).bind fun r =>
        if (oldArray.length + r.mInserts.card : ℤ) - d.mDeletes.card = newArray.length then
          some
            { inserts := r.mInserts
              deletes := d.mDeletes
              updates := r.mUpdates
              moves := r.mMoves
              oldIndexMap := d.oldMap
              newIndexMap := r.newMap }
        else none

end

open Occurrences (counterpart counterpart_comm counterpart_eq_some counterpart_inj)
open BatchUpdate (Edits Tracks rank rank_add_count lt_of_rank_eq)

/-! ## The pairs -/

section
variable {α κ : Type} [DecidableEq κ] {D : IGListDiffable α κ}

/-- The old index of the object at an index of the new array. -/
def IGListDiffable.origin (D : IGListDiffable α κ) (oldArray newArray : List α) (i : ℕ) :
    Option ℕ :=
  counterpart (oldArray.map D.diffIdentifier) (newArray.map D.diffIdentifier) i

/-- The pairs do not depend on the direction. -/
theorem origin_comm {oldArray newArray : List α} {i j : ℕ} :
    D.origin oldArray newArray i = some j ↔ D.origin newArray oldArray j = some i :=
  counterpart_comm

/-- Paired objects have the same identifier. -/
theorem origin_objects {oldArray newArray : List α} {i j : ℕ}
    (h : D.origin oldArray newArray i = some j) :
    ∃ n o, newArray[i]? = some n ∧ oldArray[j]? = some o ∧
      D.diffIdentifier n = D.diffIdentifier o := by
  obtain ⟨k, hn, ho, _⟩ := counterpart_eq_some.1 h
  rw [List.getElem?_map, Option.map_eq_some_iff] at hn ho
  obtain ⟨n, hn, rfl⟩ := hn
  obtain ⟨o, ho, hk⟩ := ho
  exact ⟨n, o, hn, ho, hk.symm⟩

theorem origin_lt {oldArray newArray : List α} {i j : ℕ}
    (h : D.origin oldArray newArray i = some j) : i < newArray.length ∧ j < oldArray.length := by
  simpa only [List.length_map] using Occurrences.counterpart_lt h

/-- If the identifiers are the same, the objects are paired index by index. -/
theorem origin_of_map_eq {oldArray newArray : List α}
    (hmap : oldArray.map D.diffIdentifier = newArray.map D.diffIdentifier) {i : ℕ}
    (hi : i < newArray.length) : D.origin oldArray newArray i = some i := by
  have hk : (newArray.map D.diffIdentifier)[i]? = some (D.diffIdentifier newArray[i]) := by
    rw [List.getElem?_map, List.getElem?_eq_getElem hi, Option.map_some]
  rw [IGListDiffable.origin, hmap]
  exact counterpart_eq_some.2 ⟨_, hk, hk, rfl⟩

/-- Pass 3 leaves a record of the old array alone if its object is not the one at hand. -/
theorem filter_lt_succ {oldArray newArray : List α} {i j : ℕ}
    (h : D.origin newArray oldArray j ≠ some i) :
    (D.origin newArray oldArray j).filter (· < i + 1) =
      (D.origin newArray oldArray j).filter (· < i) := by
  rcases hj : D.origin newArray oldArray j with _ | i'
  · rfl
  · have hne : i' ≠ i := fun heq => h (by rw [hj, heq])
    have hiff : i' < i + 1 ↔ i' < i := by omega
    simp only [Option.filter_some, hiff]

/-- The map of an array, object by object. -/
theorem indexMap_take_succ {array : List α} {i : ℕ} {a : α} (ha : array[i]? = some a) :
    indexMap D (array.take (i + 1)) = addIndexToMap D (indexMap D (array.take i)) (a, i) := by
  have hlen : (array.take i).length = i := by
    have := (List.getElem?_eq_some_iff.1 ha).1
    simp only [List.length_take]
    omega
  rw [indexMap, List.take_add_one, ha, Option.toList_some, List.zipIdx_append, List.foldl_append,
    Nat.zero_add, hlen]
  rfl

/-- An object of an array with its record. -/
theorem getElem?_zip_mapIdx {β : Type} {array : List α} {f : ℕ → α → β} {i : ℕ} {a : α}
    {b : β} (hx : (array.zip (array.mapIdx f))[i]? = some (a, b)) :
    array[i]? = some a ∧ b = f i a := by
  obtain ⟨ha, hf⟩ := List.getElem?_zip_eq_some.1 hx
  rw [List.getElem?_mapIdx, ha, Option.map_some] at hf
  exact ⟨ha, (Option.some.inj hf).symm⟩

/-! ## The passes -/

/-- Pass 1 counts the new objects and makes room for them. -/
theorem foldl_countNew (keys : List κ) : ∀ (table : κ → IGListEntry) (k : κ),
    keys.foldl countNew table k =
      { table k with
        newCounter := (table k).newCounter + keys.count k
        oldIndexes := List.replicate (keys.count k) none ++ (table k).oldIndexes } := by
  induction keys with
  | nil => intro table k; simp
  | cons key keys ih =>
    intro table k
    rw [List.foldl_cons, ih]
    by_cases hk : key = k
    · subst hk
      simp only [countNew, Function.update_self, List.count_cons_self, List.replicate_succ']
      simp [Nat.add_assoc, Nat.add_comm 1]
    · simp only [countNew, Function.update_of_ne (Ne.symm hk), List.count_cons_of_ne hk]

/-- Pass 2 counts the old objects and stacks their indexes, the first on top. -/
theorem foldr_countOld (table : κ → IGListEntry) (k : κ) : ∀ (keys : List κ) (s : ℕ),
    (keys.zipIdx s).foldr countOld table k =
      { table k with
        oldCounter := (table k).oldCounter + keys.count k
        oldIndexes := (keys.idxsOf k s).map some ++ (table k).oldIndexes } := by
  intro keys
  induction keys with
  | nil => intro s; simp
  | cons key keys ih =>
    intro s
    rw [List.zipIdx_cons, List.foldr_cons, countOld]
    by_cases hk : key = k
    · subst hk
      simp [ih, Nat.add_assoc]
    · simp [Function.update_of_ne (Ne.symm hk), ih, hk]

/-- The stack of an entry after the first two passes. -/
def oldStack (D : IGListDiffable α κ) (oldArray newArray : List α) (k : κ) : List (Option ℕ) :=
  ((oldArray.map D.diffIdentifier).idxsOf k).map some ++
    List.replicate ((newArray.map D.diffIdentifier).count k) none

theorem entryTable_eq (oldArray newArray : List α) (k : κ) :
    entryTable D oldArray newArray k =
      { oldCounter := (oldArray.map D.diffIdentifier).count k
        newCounter := (newArray.map D.diffIdentifier).count k
        oldIndexes := oldStack D oldArray newArray k } := by
  rw [entryTable, foldr_countOld, foldl_countNew]
  simp [oldStack]

/-- What lies at a place of the stack, as long as there is room for it. -/
theorem getElem?_oldStack {oldArray newArray : List α} {k : κ} {c : ℕ}
    (hc : c < (newArray.map D.diffIdentifier).count k) :
    (oldStack D oldArray newArray k)[c]? =
      some (((oldArray.map D.diffIdentifier).idxsOf k)[c]?) := by
  rw [oldStack]
  rcases Nat.lt_or_ge c ((oldArray.map D.diffIdentifier).idxsOf k).length with hlt | hge
  · rw [List.getElem?_append_left (by simpa using hlt), List.getElem?_map,
      List.getElem?_eq_getElem hlt]
    rfl
  · rw [List.getElem?_append_right (by simpa using hge), List.getElem?_eq_none hge,
      List.getElem?_replicate_of_lt (by simp; omega)]

/-- The old index of an object is on top of the stack of its entry. -/
theorem drop_oldStack {oldArray newArray : List α} {i : ℕ} {n : α} (hn : newArray[i]? = some n) :
    (oldStack D oldArray newArray (D.diffIdentifier n)).drop
        (((newArray.take i).map D.diffIdentifier).count (D.diffIdentifier n)) =
      D.origin oldArray newArray i :: (oldStack D oldArray newArray (D.diffIdentifier n)).drop
        (((newArray.take (i + 1)).map D.diffIdentifier).count (D.diffIdentifier n)) := by
  have hk : (newArray.map D.diffIdentifier)[i]? = some (D.diffIdentifier n) := by
    rw [List.getElem?_map, hn, Option.map_some]
  have hsucc : ((newArray.take (i + 1)).map D.diffIdentifier).count (D.diffIdentifier n) =
      ((newArray.take i).map D.diffIdentifier).count (D.diffIdentifier n) + 1 := by
    rw [List.take_add_one, hn, Option.toList_some, List.map_append, List.count_append,
      List.map_singleton, List.count_singleton_self]
  have hlt : ((newArray.take i).map D.diffIdentifier).count (D.diffIdentifier n) <
      (newArray.map D.diffIdentifier).count (D.diffIdentifier n) := by
    have hle := ((List.take_sublist (i + 1) newArray).map D.diffIdentifier).count_le
      (D.diffIdentifier n)
    omega
  have htop : (oldStack D oldArray newArray (D.diffIdentifier n))[_]? = _ := getElem?_oldStack hlt
  obtain ⟨hc, htop⟩ := List.getElem?_eq_some_iff.1 htop
  rw [List.drop_eq_getElem_cons hc, htop, hsucc, IGListDiffable.origin, counterpart, hk,
    Option.bind_some, List.map_take]

section
variable [DecidableEq α]

/-- An object with the identifier `k` and an index below `i` has changed. -/
def UpdatedBefore (D : IGListDiffable α κ) (option : IGListDiffOption) (oldArray newArray : List α)
    (i : ℕ) (k : κ) : Prop :=
  ∃ i' < i, ∃ j n o, D.origin oldArray newArray i' = some j ∧ newArray[i']? = some n ∧
    oldArray[j]? = some o ∧ D.diffIdentifier n = k ∧ isUpdated D option n o = true

theorem updatedBefore_succ {option : IGListDiffOption} {oldArray newArray : List α} {i : ℕ}
    {k : κ} :
    UpdatedBefore D option oldArray newArray (i + 1) k ↔
      UpdatedBefore D option oldArray newArray i k ∨
        ∃ j n o, D.origin oldArray newArray i = some j ∧ newArray[i]? = some n ∧
          oldArray[j]? = some o ∧ D.diffIdentifier n = k ∧ isUpdated D option n o = true :=
  Nat.exists_lt_succ_right

/-- The entry of the identifier `k` when pass 3 is at the index `i` of the new array. -/
structure EntryAt (D : IGListDiffable α κ) (option : IGListDiffOption) (oldArray newArray : List α)
    (i : ℕ) (k : κ) (entry : IGListEntry) : Prop where
  oldCounter : entry.oldCounter = (oldArray.map D.diffIdentifier).count k
  newCounter : entry.newCounter = (newArray.map D.diffIdentifier).count k
  oldIndexes : entry.oldIndexes = (oldStack D oldArray newArray k).drop
    (((newArray.take i).map D.diffIdentifier).count k)
  updated : entry.updated = true ↔ UpdatedBefore D option oldArray newArray i k

/-- Pass 3 up to the index `i` of the new array. -/
structure Matched (D : IGListDiffable α κ) (option : IGListDiffOption) (oldArray newArray : List α)
    (i : ℕ) (s : MatchState κ) : Prop where
  table : ∀ k, EntryAt D option oldArray newArray i k (s.table k)
  oldResults : ∀ j : ℕ, s.oldResultsArray[j]? = (oldArray[j]?).map fun o =>
    ⟨D.diffIdentifier o, (D.origin newArray oldArray j).filter (· < i)⟩
  newResults : ∀ i' : ℕ, s.newResultsArray[i']? = (newArray[i']?).map fun n =>
    ⟨D.diffIdentifier n, if i' < i then D.origin oldArray newArray i' else none⟩

section
variable {option : IGListDiffOption} {oldArray newArray : List α} {i : ℕ} {n : α}

/-- Pass 3 does not change the entries of other identifiers. -/
theorem EntryAt.other {k : κ} {entry : IGListEntry} (hn : newArray[i]? = some n)
    (hk : k ≠ D.diffIdentifier n) (h : EntryAt D option oldArray newArray i k entry) :
    EntryAt D option oldArray newArray (i + 1) k entry := by
  refine ⟨h.oldCounter, h.newCounter, ?_, ?_⟩
  · rw [h.oldIndexes, List.take_add_one, hn, Option.toList_some, List.map_append, List.count_append,
      List.map_singleton, List.count_singleton, if_neg (by simpa using Ne.symm hk), Nat.add_zero]
  · rw [h.updated, updatedBefore_succ]
    refine (or_iff_left ?_).symm
    rintro ⟨j, n', o, _, hn', _, rfl, _⟩
    rw [hn] at hn'
    exact hk (by rw [Option.some.inj hn'])

/-- Pass 3, for a new object. -/
theorem EntryAt.inserted {entry : IGListEntry} (hn : newArray[i]? = some n)
    (ho : D.origin oldArray newArray i = none)
    (h : EntryAt D option oldArray newArray i (D.diffIdentifier n) entry) :
    EntryAt D option oldArray newArray (i + 1) (D.diffIdentifier n)
      { entry with oldIndexes := entry.oldIndexes.tail } := by
  refine ⟨h.oldCounter, h.newCounter, ?_, ?_⟩
  · rw [h.oldIndexes, drop_oldStack hn, List.tail_cons]
  · rw [h.updated, updatedBefore_succ]
    simp [ho]

/-- Pass 3, for an object of both arrays. -/
theorem EntryAt.kept {entry : IGListEntry} {j : ℕ} {o : α} (hn : newArray[i]? = some n)
    (ho : D.origin oldArray newArray i = some j) (hj : oldArray[j]? = some o)
    (h : EntryAt D option oldArray newArray i (D.diffIdentifier n) entry) :
    EntryAt D option oldArray newArray (i + 1) (D.diffIdentifier n)
      { entry with
        oldIndexes := entry.oldIndexes.tail
        updated := entry.updated || isUpdated D option n o } := by
  refine ⟨h.oldCounter, h.newCounter, ?_, ?_⟩
  · rw [h.oldIndexes, drop_oldStack hn, List.tail_cons]
  · rw [Bool.or_eq_true, h.updated, updatedBefore_succ]
    simp [ho, hn, hj]

/-- **Pass 3, for one object.** -/
theorem matchRecord_spec {s : MatchState κ} (hn : newArray[i]? = some n)
    (h : Matched D option oldArray newArray i s) :
    ∃ s', matchRecord D option oldArray s (n, i) = some s' ∧
      Matched D option oldArray newArray (i + 1) s' := by
  have hrecord : s.newResultsArray[i]? = some ⟨D.diffIdentifier n, none⟩ := by
    rw [h.newResults, hn, Option.map_some, if_neg (lt_irrefl i)]
  have hentry := h.table (D.diffIdentifier n)
  have hstack := hentry.oldIndexes.trans (drop_oldStack hn)
  simp only [matchRecord, hrecord, Option.bind_some]
  rcases ho : D.origin oldArray newArray i with _ | j
  · rw [ho] at hstack
    simp only [hstack]
    refine ⟨_, rfl, ?_, ?_, ?_⟩
    · refine (Function.forall_update_iff _ _).2 ⟨?_, fun k hk => (h.table k).other hn hk⟩
      simpa only [hstack, List.tail_cons] using hentry.inserted hn ho
    · intro j
      rw [h.oldResults, filter_lt_succ]
      intro hj
      rw [origin_comm, ho] at hj
      cases hj
    · intro i'
      rw [h.newResults]
      rcases Nat.lt_trichotomy i' i with hlt | rfl | hgt
      · rw [if_pos hlt, if_pos (Nat.lt_succ_of_lt hlt)]
      · rw [if_neg (lt_irrefl i'), if_pos (Nat.lt_succ_self i'), ho]
      · rw [if_neg hgt.not_gt, if_neg (by omega)]
  · obtain ⟨n', o, hn', hj, hk⟩ := origin_objects ho
    obtain rfl := Option.some.inj (hn.symm.trans hn')
    have hnew : 0 < (s.table (D.diffIdentifier n)).newCounter := by
      rw [hentry.newCounter, List.count_pos_iff]
      exact List.mem_map_of_mem (List.mem_of_getElem? hn)
    have hold : 0 < (s.table (D.diffIdentifier n)).oldCounter := by
      rw [hentry.oldCounter, List.count_pos_iff, hk]
      exact List.mem_map_of_mem (List.mem_of_getElem? hj)
    rw [ho] at hstack
    simp only [hstack, hj, Option.map_some, hnew, hold, and_self, if_true]
    refine ⟨_, rfl, ?_, ?_, ?_⟩
    · refine (Function.forall_update_iff _ _).2 ⟨?_, fun k hk => (h.table k).other hn hk⟩
      simpa only [hstack, List.tail_cons] using hentry.kept hn ho hj
    · intro j'
      rw [List.getElem?_modify, h.oldResults]
      rcases eq_or_ne j j' with rfl | hne
      · rw [origin_comm.1 ho, hj]
        simp [Option.filter_some]
      · have hj' : D.origin newArray oldArray j' ≠ some i := fun hj' =>
          hne (counterpart_inj (origin_comm.1 ho) hj')
        rw [filter_lt_succ hj']
        simp [hne]
    · intro i'
      rw [List.getElem?_modify, h.newResults]
      rcases Nat.lt_trichotomy i' i with hlt | rfl | hgt
      · simp [hlt, hlt.ne', Nat.lt_succ_of_lt hlt]
      · simp [hn, ho]
      · simp [hgt.ne, hgt.not_gt, (show ¬ i' < i + 1 by omega)]

/-- **Pass 3**: no assertion fails, and no index is outside its array. -/
theorem matchLoop_spec (option : IGListDiffOption) (oldArray newArray : List α) :
    ∃ s, newArray.zipIdx.foldlM (matchRecord D option oldArray)
        { table := entryTable D oldArray newArray
          oldResultsArray := oldArray.map fun o => { entry := D.diffIdentifier o }
          newResultsArray := newArray.map fun n => { entry := D.diffIdentifier n } } = some s ∧
      Matched D option oldArray newArray newArray.length s := by
  refine Loops.foldlM_zipIdx (fun i n s hn h => matchRecord_spec hn h) ⟨fun k => ?_, ?_, ?_⟩
  · show EntryAt D option oldArray newArray 0 k (entryTable D oldArray newArray k)
    rw [entryTable_eq]
    exact ⟨rfl, rfl, by simp, by simp [UpdatedBefore]⟩
  · intro j
    cases D.origin newArray oldArray j <;> simp [Option.filter_some]
  · intro i
    simp

end

end

/-! ## The scans -/

/-- The scan for deletes up to the index `j` of the old array. -/
def deleteScanAt (D : IGListDiffable α κ) (oldArray newArray : List α) (j : ℕ) : DeleteScan κ where
  runningOffset := Nat.count (fun j => D.origin newArray oldArray j = none) j
  deleteOffsets := (List.range j).map (Nat.count fun j => D.origin newArray oldArray j = none)
  mDeletes := (Finset.range j).filter fun j => D.origin newArray oldArray j = none
  oldMap := indexMap D (oldArray.take j)

theorem scanDelete_spec {oldArray newArray : List α} {j : ℕ} {o : α} (ho : oldArray[j]? = some o) :
    scanDelete D (deleteScanAt D oldArray newArray j)
        ((o, ⟨D.diffIdentifier o, D.origin newArray oldArray j⟩), j) =
      deleteScanAt D oldArray newArray (j + 1) := by
  rcases hj : D.origin newArray oldArray j with _ | i
  · simp [scanDelete, deleteScanAt, Nat.count_succ, List.range_succ, Finset.range_add_one,
      Finset.filter_insert, hj, indexMap_take_succ ho]
  · simp [scanDelete, deleteScanAt, Nat.count_succ, List.range_succ, Finset.range_add_one,
      Finset.filter_insert, hj, indexMap_take_succ ho]

/-- The scan for inserts, updates and moves up to the index `i` of the new array. -/
structure InsertScanAt (D : IGListDiffable α κ) (table : κ → IGListEntry)
    (oldArray newArray : List α) (i : ℕ) (s : InsertScan κ) : Prop where
  runningOffset : s.runningOffset = Nat.count (fun i => D.origin oldArray newArray i = none) i
  mInserts : s.mInserts = (Finset.range i).filter fun i => D.origin oldArray newArray i = none
  mem_mUpdates : ∀ j, j ∈ s.mUpdates ↔ ∃ i' < i, ∃ n, D.origin oldArray newArray i' = some j ∧
    newArray[i']? = some n ∧ (table (D.diffIdentifier n)).updated = true
  mMoves : s.mMoves = (List.range i).filterMap fun i =>
    (D.origin oldArray newArray i).bind fun j =>
      if rank (D.origin newArray oldArray) j ≠ rank (D.origin oldArray newArray) i then some (j, i)
      else none
  newMap : s.newMap = indexMap D (newArray.take i)

theorem scanInsert_spec {table : κ → IGListEntry} {oldArray newArray : List α} {i : ℕ} {n : α}
    {s : InsertScan κ} (hn : newArray[i]? = some n)
    (h : InsertScanAt D table oldArray newArray i s) :
    ∃ s', scanInsert D table (deleteScanAt D oldArray newArray oldArray.length).deleteOffsets s
        ((n, ⟨D.diffIdentifier n, D.origin oldArray newArray i⟩), i) = some s' ∧
      InsertScanAt D table oldArray newArray (i + 1) s' := by
  rcases ho : D.origin oldArray newArray i with _ | j
  · refine ⟨_, rfl, ?_, ?_, ?_, ?_, ?_⟩
    · simp [h.runningOffset, Nat.count_succ, ho]
    · simp [h.mInserts, Finset.range_add_one, Finset.filter_insert, ho]
    · intro j
      rw [h.mem_mUpdates, Nat.exists_lt_succ_right]
      simp [ho]
    · simp [h.mMoves, List.range_succ, ho]
    · rw [h.newMap, indexMap_take_succ hn]
  · have hj : j < oldArray.length := by
      obtain ⟨_, o, _, hj, _⟩ := origin_objects ho
      exact (List.getElem?_eq_some_iff.1 hj).1
    have hoffset : (deleteScanAt D oldArray newArray oldArray.length).deleteOffsets[j]? =
        some (Nat.count (fun j => D.origin newArray oldArray j = none) j) := by
      rw [deleteScanAt, List.getElem?_map, List.getElem?_range hj, Option.map_some]
    -- the offsets count what is not paired, the ranks what is
    have hmoved : ((j : ℤ) - Nat.count (fun j => D.origin newArray oldArray j = none) j +
        s.runningOffset ≠ i) ↔
        rank (D.origin newArray oldArray) j ≠ rank (D.origin oldArray newArray) i := by
      have hr := rank_add_count (D.origin newArray oldArray) j
      have hr' := rank_add_count (D.origin oldArray newArray) i
      rw [h.runningOffset]
      omega
    simp only [scanInsert, hoffset, Option.map_some, hmoved]
    refine ⟨_, rfl, ?_, ?_, ?_, ?_, ?_⟩
    · simp [h.runningOffset, Nat.count_succ, ho]
    · simp [h.mInserts, Finset.range_add_one, Finset.filter_insert, ho]
    · intro j'
      rw [Nat.exists_lt_succ_right]
      simp only [ho, hn]
      split_ifs with hup
      · rw [Finset.mem_insert, h.mem_mUpdates, or_comm]
        refine or_congr_right ⟨fun heq => ⟨n, by rw [heq], rfl, hup⟩, ?_⟩
        rintro ⟨_, heq, _⟩
        exact (Option.some.inj heq).symm
      · rw [h.mem_mUpdates]
        refine (or_iff_left ?_).symm
        rintro ⟨_, _, hn', hup'⟩
        exact hup (Option.some.inj hn' ▸ hup')
    · simp only [h.mMoves, List.range_succ, List.filterMap_append]
      split_ifs with hmv <;> simp [ho, hmv]
    · rw [h.newMap, indexMap_take_succ hn]

theorem scanDeletes_spec (oldArray newArray : List α) :
    (oldArray.zip (oldArray.mapIdx fun j o =>
        ⟨D.diffIdentifier o, D.origin newArray oldArray j⟩)).zipIdx.foldl (scanDelete D) {} =
      deleteScanAt D oldArray newArray oldArray.length := by
  have h := Loops.foldl_zipIdx (P := fun j s => s = deleteScanAt D oldArray newArray j)
    (f := scanDelete D) (l := oldArray.zip (oldArray.mapIdx fun j o =>
        ⟨D.diffIdentifier o, D.origin newArray oldArray j⟩)) (s := {}) ?_ rfl
  · simpa using h
  · rintro j ⟨o, record⟩ s hx rfl
    obtain ⟨ho, rfl⟩ := getElem?_zip_mapIdx hx
    exact scanDelete_spec ho

theorem scanInserts_spec (table : κ → IGListEntry) (oldArray newArray : List α) :
    ∃ s, (newArray.zip (newArray.mapIdx fun i n =>
        ⟨D.diffIdentifier n, D.origin oldArray newArray i⟩)).zipIdx.foldlM
          (scanInsert D table (deleteScanAt D oldArray newArray oldArray.length).deleteOffsets) {} =
        some s ∧
      InsertScanAt D table oldArray newArray newArray.length s := by
  have h := Loops.foldlM_zipIdx (P := InsertScanAt D table oldArray newArray)
    (f := scanInsert D table (deleteScanAt D oldArray newArray oldArray.length).deleteOffsets)
    (l := newArray.zip (newArray.mapIdx fun i n =>
        ⟨D.diffIdentifier n, D.origin oldArray newArray i⟩)) (s := {}) ?_ ?_
  · simpa using h
  · rintro i ⟨n, record⟩ s hx hs
    obtain ⟨hn, rfl⟩ := getElem?_zip_mapIdx hx
    exact scanInsert_spec hn hs
  · exact ⟨by simp, by simp, by simp, by simp, rfl⟩

/-! ## The difference -/

variable [DecidableEq α]

/-- What the difference of two arrays is: the objects of the arrays are paired, occurrence by
    occurrence, and a pair moves if it has another rank among the pairs in the two arrays. -/
structure IsDiff (D : IGListDiffable α κ) (option : IGListDiffOption) (oldArray newArray : List α)
    (r : IGListIndexSetResult κ) : Prop where
  mem_inserts : ∀ i, i ∈ r.inserts ↔ i < newArray.length ∧ D.origin oldArray newArray i = none
  mem_deletes : ∀ j, j ∈ r.deletes ↔ j < oldArray.length ∧ D.origin newArray oldArray j = none
  mem_updates : ∀ j, j ∈ r.updates ↔ ∃ i n, D.origin oldArray newArray i = some j ∧
    newArray[i]? = some n ∧
      UpdatedBefore D option oldArray newArray newArray.length (D.diffIdentifier n)
  moves : r.moves = (List.range newArray.length).filterMap fun i =>
    (D.origin oldArray newArray i).bind fun j =>
      if rank (D.origin newArray oldArray) j ≠ rank (D.origin oldArray newArray) i then some (j, i)
      else none
  oldIndexMap : r.oldIndexMap = indexMap D oldArray
  newIndexMap : r.newIndexMap = indexMap D newArray

/-- The edits of a difference. -/
def IGListIndexSetResult.edits (r : IGListIndexSetResult κ) : Edits :=
  ⟨r.deletes, r.inserts, r.moves, []⟩

section
variable {option : IGListDiffOption} {oldArray newArray : List α} {r : IGListIndexSetResult κ}

theorem IsDiff.mem_moves (h : IsDiff D option oldArray newArray r) {i j : ℕ} :
    (j, i) ∈ r.moves ↔ D.origin oldArray newArray i = some j ∧
      rank (D.origin newArray oldArray) j ≠ rank (D.origin oldArray newArray) i := by
  simp only [h.moves, List.mem_filterMap, List.mem_range, Option.bind_eq_some_iff]
  constructor
  · rintro ⟨i', _, j', ho, hmv⟩
    split_ifs at hmv with hr
    obtain ⟨rfl, rfl⟩ := Prod.mk.inj (Option.some.inj hmv)
    exact ⟨ho, hr⟩
  · rintro ⟨ho, hr⟩
    exact ⟨i, (origin_lt ho).1, j, ho, by rw [if_pos hr]⟩

theorem IsDiff.nodup_moves (h : IsDiff D option oldArray newArray r) : r.moves.Nodup := by
  rw [h.moves]
  refine List.Nodup.filterMap ?_ List.nodup_range
  intro i i' mv hi hi'
  simp only [Option.mem_def, Option.bind_eq_some_iff] at hi hi'
  obtain ⟨j, _, hmv⟩ := hi
  obtain ⟨j', _, hmv'⟩ := hi'
  split_ifs at hmv hmv'
  exact (Prod.mk.inj (Option.some.inj (hmv.trans hmv'.symm))).2

/-- The edits of a difference track the objects. -/
theorem IsDiff.tracks (h : IsDiff D option oldArray newArray r) :
    Tracks r.edits oldArray.length newArray.length (D.origin oldArray newArray) where
  lt := origin_lt
  inj := counterpart_inj
  mem_deletes := by
    intro j
    rw [IGListIndexSetResult.edits, h.mem_deletes, Option.eq_none_iff_forall_not_mem]
    refine and_congr_right fun _ => forall_congr' fun i => not_congr ?_
    exact origin_comm
  mem_inserts := h.mem_inserts _
  of_move hmv := (h.mem_moves.1 hmv).1
  nodup := h.nodup_moves
  ordered := by
    intro i i' j j' ho ho' hmv hmv' hlt
    have hr := not_not.1 fun hr => hmv (h.mem_moves.2 ⟨ho, hr⟩)
    have hr' := not_not.1 fun hr => hmv' (h.mem_moves.2 ⟨ho', hr⟩)
    exact lt_of_rank_eq ho hr hr' hlt

/-- The records of the new array after pass 3. -/
theorem Matched.newResultsArray_eq {s : MatchState κ}
    (h : Matched D option oldArray newArray newArray.length s) :
    s.newResultsArray =
      newArray.mapIdx fun i n => ⟨D.diffIdentifier n, D.origin oldArray newArray i⟩ := by
  refine List.ext_getElem? fun i => ?_
  rw [h.newResults, List.getElem?_mapIdx]
  rcases hn : newArray[i]? with _ | n
  · rfl
  · rw [Option.map_some, Option.map_some, if_pos (List.getElem?_eq_some_iff.1 hn).1]

/-- The records of the old array after pass 3. -/
theorem Matched.oldResultsArray_eq {s : MatchState κ}
    (h : Matched D option oldArray newArray newArray.length s) :
    s.oldResultsArray =
      oldArray.mapIdx fun j o => ⟨D.diffIdentifier o, D.origin newArray oldArray j⟩ := by
  refine List.ext_getElem? fun j => ?_
  rw [h.oldResults, List.getElem?_mapIdx]
  rcases hi : D.origin newArray oldArray j with _ | i
  · rfl
  · rw [Option.filter_some, if_pos (by simpa using (origin_lt hi).2)]

theorem isDiff_of_scans {s : MatchState κ}
    (hs : Matched D option oldArray newArray newArray.length s)
    {t : InsertScan κ} (ht : InsertScanAt D s.table oldArray newArray newArray.length t) :
    IsDiff D option oldArray newArray
      { inserts := t.mInserts
        deletes := (deleteScanAt D oldArray newArray oldArray.length).mDeletes
        updates := t.mUpdates
        moves := t.mMoves
        oldIndexMap := (deleteScanAt D oldArray newArray oldArray.length).oldMap
        newIndexMap := t.newMap } where
  mem_inserts := by simp [ht.mInserts]
  mem_deletes := by simp [deleteScanAt]
  mem_updates := by
    intro j
    rw [ht.mem_mUpdates]
    constructor
    · rintro ⟨i, _, n, ho, hn, hup⟩
      exact ⟨i, n, ho, hn, (hs.table _).updated.1 hup⟩
    · rintro ⟨i, n, ho, hn, hup⟩
      exact ⟨i, (origin_lt ho).1, n, ho, hn, (hs.table _).updated.2 hup⟩
  moves := ht.mMoves
  oldIndexMap := by rw [deleteScanAt, List.take_length]
  newIndexMap := by rw [ht.newMap, List.take_length]

theorem isDiff_nil_right (oldArray : List α) :
    IsDiff D option oldArray []
      { inserts := ∅
        deletes := Finset.range oldArray.length
        updates := ∅
        moves := []
        oldIndexMap := indexMap D oldArray
        newIndexMap := fun _ => none } := by
  constructor <;> simp [IGListDiffable.origin, counterpart, indexMap]

theorem isDiff_nil_left (newArray : List α) :
    IsDiff D option [] newArray
      { inserts := Finset.range newArray.length
        deletes := ∅
        updates := ∅
        moves := []
        oldIndexMap := fun _ => none
        newIndexMap := indexMap D newArray } := by
  constructor <;> simp [IGListDiffable.origin, counterpart, indexMap]

/-- **The difference of two arrays**: no assertion fails and no index is outside its array, and the
    result is the difference of the arrays, whatever identifiers repeat. -/
theorem IGListDiffing_spec (D : IGListDiffable α κ) (option : IGListDiffOption)
    (oldArray newArray : List α) :
    ∃ r, IGListDiffing D oldArray newArray option = some r ∧
      IsDiff D option oldArray newArray r := by
  rw [IGListDiffing]
  split_ifs with hnew hold
  · obtain rfl := List.length_eq_zero_iff.1 hnew
    exact ⟨_, rfl, isDiff_nil_right oldArray⟩
  · obtain rfl := List.length_eq_zero_iff.1 hold
    exact ⟨_, rfl, isDiff_nil_left newArray⟩
  · obtain ⟨s, hs, hmatched⟩ := matchLoop_spec (D := D) option oldArray newArray
    obtain ⟨t, ht, hscan⟩ := scanInserts_spec (D := D) s.table oldArray newArray
    have hdiff := isDiff_of_scans hmatched hscan
    have hcount := hdiff.tracks.count
    simp only [IGListIndexSetResult.edits] at hcount
    simp only [hs, Option.bind_some, hmatched.oldResultsArray_eq, hmatched.newResultsArray_eq,
      scanDeletes_spec, ht]
    rw [if_pos (by omega)]
    exact ⟨_, rfl, hdiff⟩

/-- The number of changes: `changeCount`. -/
def IGListIndexSetResult.changeCount (r : IGListIndexSetResult κ) : ℕ :=
  r.inserts.card + r.deletes.card + r.updates.card + r.moves.length

/-- `hasChanges` -/
def IGListIndexSetResult.hasChanges (r : IGListIndexSetResult κ) : Bool := 0 < r.changeCount

/-- No object moves iff the pairs are in the same order in both arrays. -/
theorem IsDiff.moves_eq_nil (h : IsDiff D option oldArray newArray r) :
    r.moves = [] ↔ ∀ i i' j j', D.origin oldArray newArray i = some j →
      D.origin oldArray newArray i' = some j' → i < i' → j < j' := by
  constructor
  · intro hnil i i' j j' ho ho' hlt
    exact h.tracks.ordered ho ho' (by simp [IGListIndexSetResult.edits, hnil])
      (by simp [IGListIndexSetResult.edits, hnil]) hlt
  · intro hinc
    refine List.eq_nil_iff_forall_not_mem.2 ?_
    rintro ⟨j, i⟩ hmv
    obtain ⟨ho, hr⟩ := h.mem_moves.1 hmv
    refine hr (BatchUpdate.rank_eq_of_increasing origin_comm ?_ ho)
    intro i i' j j' ho ho' hlt
    exact hinc i i' j j' ho ho' hlt

/-- If nothing is inserted, deleted or moved, every object is paired with the one at its index. -/
theorem IsDiff.origin_eq (h : IsDiff D option oldArray newArray r) (hins : r.inserts = ∅)
    (hdel : r.deletes = ∅) (hmv : r.moves = []) {i : ℕ} (hi : i < newArray.length) :
    D.origin oldArray newArray i = some i := by
  have hnew : ∀ i < newArray.length, (D.origin oldArray newArray i).isSome := by
    intro i hi
    by_contra hnone
    have := (h.mem_inserts i).2 ⟨hi, by simpa using hnone⟩
    simp [hins] at this
  have hold : ∀ j < oldArray.length, (D.origin newArray oldArray j).isSome := by
    intro j hj
    by_contra hnone
    have := (h.mem_deletes j).2 ⟨hj, by simpa using hnone⟩
    simp [hdel] at this
  obtain ⟨j, hj⟩ := Option.isSome_iff_exists.1 (hnew i hi)
  -- every object is paired, so that its rank is its index
  have hrank : rank (D.origin newArray oldArray) j = rank (D.origin oldArray newArray) i := by
    by_contra hr
    have := h.mem_moves.2 ⟨hj, hr⟩
    simp [hmv] at this
  have hri : rank (D.origin oldArray newArray) i = i :=
    Nat.count_iff_forall.2 fun i' hi' => hnew i' (hi'.trans hi)
  have hrj : rank (D.origin newArray oldArray) j = j :=
    Nat.count_iff_forall.2 fun j' hj' => hold j' (hj'.trans (origin_lt hj).2)
  rw [hri, hrj] at hrank
  rw [hj, hrank]

/-- **A difference has no changes iff the arrays have the same identifiers in the same order, and no
    object has changed.** -/
theorem IsDiff.hasChanges_eq_false (h : IsDiff D option oldArray newArray r) :
    r.hasChanges = false ↔
      oldArray.map D.diffIdentifier = newArray.map D.diffIdentifier ∧
        ∀ (i : ℕ) o n, oldArray[i]? = some o → newArray[i]? = some n →
          isUpdated D option n o = false := by
  have hcount : r.hasChanges = false ↔
      r.inserts = ∅ ∧ r.deletes = ∅ ∧ r.updates = ∅ ∧ r.moves = [] := by
    rw [IGListIndexSetResult.hasChanges, decide_eq_false_iff_not]
    simp only [IGListIndexSetResult.changeCount, not_lt, Nat.le_zero, Nat.add_eq_zero_iff,
      Finset.card_eq_zero, List.length_eq_zero_iff, and_assoc]
  rw [hcount]
  constructor
  · rintro ⟨hins, hdel, hup, hmv⟩
    have horigin := fun i => h.origin_eq hins hdel hmv (i := i)
    refine ⟨List.ext_getElem? fun i => ?_, fun i o n ho hn => ?_⟩
    · rcases Nat.lt_or_ge i newArray.length with hi | hi
      · obtain ⟨n, o, hn, ho, hk⟩ := origin_objects (horigin i hi)
        rw [List.getElem?_map, List.getElem?_map, hn, ho, Option.map_some, Option.map_some, hk]
      · have hold : oldArray.length ≤ i := by
          by_contra hlt
          have hsome : D.origin newArray oldArray i ≠ none := fun hnone => by
            have := (h.mem_deletes i).2 ⟨by omega, hnone⟩
            simp [hdel] at this
          obtain ⟨i', hi'⟩ := Option.ne_none_iff_exists'.1 hsome
          have hi'new := (origin_lt hi').2
          have := (origin_comm.2 hi').symm.trans (horigin i' hi'new)
          have := Option.some.inj this
          omega
        rw [List.getElem?_eq_none (by simpa using hold), List.getElem?_eq_none (by simpa using hi)]
    · have hi := (List.getElem?_eq_some_iff.1 hn).1
      by_contra hchanged
      have := (h.mem_updates i).2 ⟨i, n, horigin i hi, hn, i, hi, i, n, o, horigin i hi, hn, ho,
        rfl, by simpa using hchanged⟩
      simp [hup] at this
  · rintro ⟨hmap, hsame⟩
    have horigin := fun i => origin_of_map_eq hmap (i := i)
    have hlen : oldArray.length = newArray.length := by simpa using congrArg List.length hmap
    refine ⟨?_, ?_, ?_, ?_⟩
    · refine Finset.eq_empty_iff_forall_notMem.2 fun i hi => ?_
      obtain ⟨hlt, hnone⟩ := (h.mem_inserts i).1 hi
      simp [horigin i hlt] at hnone
    · refine Finset.eq_empty_iff_forall_notMem.2 fun j hj => ?_
      obtain ⟨hlt, hnone⟩ := (h.mem_deletes j).1 hj
      simp [origin_of_map_eq hmap.symm hlt] at hnone
    · refine Finset.eq_empty_iff_forall_notMem.2 fun j hj => ?_
      obtain ⟨_, _, _, _, i, hi, j, n, o, ho, hn, hj, _, hchanged⟩ := (h.mem_updates j).1 hj
      rw [horigin i hi] at ho
      obtain rfl := Option.some.inj ho
      simp [hsame i o n hj hn] at hchanged
    · refine h.moves_eq_nil.2 fun i i' j j' ho ho' hlt => ?_
      rw [horigin i (origin_lt ho).1] at ho
      rw [horigin i' (origin_lt ho').1] at ho'
      obtain rfl := Option.some.inj ho
      obtain rfl := Option.some.inj ho'
      exact hlt

end

end

end HeroQ
