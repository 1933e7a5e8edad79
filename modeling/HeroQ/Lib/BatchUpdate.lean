/-
  Batch updates: the sections of a list, each with its items, become those of a data source by
  deletions, insertions and moves of sections and reloads of items, all at once.

  A deletion names a place of the old list, an insertion a place of the new one, and a move a place
  of each; the sections that are neither deleted nor moved keep their order and fill the places that
  are left.  A section that is kept must keep the number of its items, and shows the items it did,
  but for those that are reloaded.  `Documented` says this of a function that carries out batch
  updates, and nothing of edits that are inconsistent; `perform` refuses these.

  * `Tracks.origin_eq`, `Tracks.perform_forall₂`: if the edits track the sections, every section
    that is kept arrives at its place;
  * `lt_of_rank_eq`, `rank_eq_of_increasing`: moving the sections whose rank among the kept ones
    changes is enough, and none has to move iff the kept sections are in the same order.
-/
import Mathlib.Data.List.Sort
import Mathlib.Data.Nat.Count
import Mathlib.Data.Finset.Card
import Mathlib.Data.Finset.Range

namespace BatchUpdate

variable {α β : Type*}

/-- The edits of a batch update: the places of the old list whose sections are deleted, the places
    of the new list where sections are inserted, the moves, from a place of the old list to one of
    the new, and the items that are reloaded, each with the place of its section in the old list. -/
structure Edits where
  deletes : Finset ℕ
  inserts : Finset ℕ
  moves : List (ℕ × ℕ)
  reloads : List (ℕ × ℕ)
  deriving DecidableEq

namespace Edits

/-- The places of the old list whose sections stay, in order. -/
def stays (e : Edits) (n : ℕ) : List ℕ :=
  (List.range n).filter fun j => j ∉ e.deletes ∧ j ∉ e.moves.map Prod.fst

/-- The places of the new list to which the sections that stay go, in order. -/
def vacant (e : Edits) (m : ℕ) : List ℕ :=
  (List.range m).filter fun i => i ∉ e.inserts ∧ i ∉ e.moves.map Prod.snd

/-- The place in the old list of the section at a place of the new one: the section moves there, or
    stays. -/
def origin (e : Edits) (n m i : ℕ) : Option ℕ :=
  if i ∈ e.inserts then none
  else ((e.moves.find? fun mv => mv.2 == i).map Prod.fst).or
    (((e.vacant m).zip (e.stays n)).lookup i)

/-- The edits can be made to sections with the numbers `before` of items when the data source has
    the numbers `after`: nothing is deleted or moved twice, the numbers of sections agree, a section
    that is kept has as many items as before, and what is reloaded is an item of a section that
    stays. -/
structure Consistent (e : Edits) (before after : List ℕ) : Prop where
  delete_lt : ∀ j ∈ e.deletes, j < before.length
  insert_lt : ∀ i ∈ e.inserts, i < after.length
  move_lt : ∀ mv ∈ e.moves, (mv.1 < before.length ∧ mv.1 ∉ e.deletes) ∧
    mv.2 < after.length ∧ mv.2 ∉ e.inserts
  from_nodup : (e.moves.map Prod.fst).Nodup
  to_nodup : (e.moves.map Prod.snd).Nodup
  count : before.length + e.inserts.card = after.length + e.deletes.card
  items : ∀ i < after.length, ∀ j ∈ e.origin before.length after.length i, before[j]? = after[i]?
  reloads : ∀ item ∈ e.reloads, item.1 ∉ e.deletes ∧ item.1 ∉ e.moves.map Prod.fst ∧
    item.2 < before[item.1]?.getD 0

instance (e : Edits) (before after : List ℕ) : Decidable (e.Consistent before after) :=
  decidable_of_iff
    ((∀ j ∈ e.deletes, j < before.length) ∧ (∀ i ∈ e.inserts, i < after.length) ∧
      (∀ mv ∈ e.moves, (mv.1 < before.length ∧ mv.1 ∉ e.deletes) ∧
        mv.2 < after.length ∧ mv.2 ∉ e.inserts) ∧
      (e.moves.map Prod.fst).Nodup ∧ (e.moves.map Prod.snd).Nodup ∧
      before.length + e.inserts.card = after.length + e.deletes.card ∧
      (∀ i < after.length, ∀ j ∈ e.origin before.length after.length i,
        before[j]? = after[i]?) ∧
      ∀ item ∈ e.reloads, item.1 ∉ e.deletes ∧ item.1 ∉ e.moves.map Prod.fst ∧
        item.2 < before[item.1]?.getD 0)
    ⟨fun ⟨h₁, h₂, h₃, h₄, h₅, h₆, h₇, h₈⟩ => ⟨h₁, h₂, h₃, h₄, h₅, h₆, h₇, h₈⟩,
      fun ⟨h₁, h₂, h₃, h₄, h₅, h₆, h₇, h₈⟩ => ⟨h₁, h₂, h₃, h₄, h₅, h₆, h₇, h₈⟩⟩

/-- The items of a section that is kept: those that are reloaded are the data source's. -/
def kept (e : Edits) (j : ℕ) (old new : List β) : List β :=
  (old.zip new).mapIdx fun k item => if (j, k) ∈ e.reloads then item.2 else item.1

/-- The sections after the batch update of `old`, when the data source has `new`. -/
def result (e : Edits) (old new : List (List β)) : List (List β) :=
  new.mapIdx fun i items => match e.origin old.length new.length i with
    | some j => e.kept j (old[j]?.getD []) items
    | none => items

end Edits

/-- Batch updates are carried out as documented, if they are consistent with the data source. -/
def Documented
    (performBatchUpdates : Edits → List (List β) → List (List β) → Option (List (List β))) : Prop :=
  ∀ (e : Edits) (old new : List (List β)),
    e.Consistent (old.map List.length) (new.map List.length) →
      performBatchUpdates e old new = some (e.result old new)

/-- Batch updates that refuse what is inconsistent. -/
def perform (e : Edits) (old new : List (List β)) : Option (List (List β)) :=
  if e.Consistent (old.map List.length) (new.map List.length) then some (e.result old new)
  else none

theorem documented_perform : Documented (perform (β := β)) := fun _ _ _ h => if_pos h

/-- The edits track the sections: `origin` is the place in the old list of each section that is
    kept, the moves are from origins, and the sections that do not move keep their order. -/
structure Tracks (e : Edits) (n m : ℕ) (origin : ℕ → Option ℕ) : Prop where
  lt : ∀ {i j}, origin i = some j → i < m ∧ j < n
  inj : ∀ {i i' j}, origin i = some j → origin i' = some j → i = i'
  mem_deletes : ∀ {j}, j ∈ e.deletes ↔ j < n ∧ ∀ i, origin i ≠ some j
  mem_inserts : ∀ {i}, i ∈ e.inserts ↔ i < m ∧ origin i = none
  of_move : ∀ {j i}, (j, i) ∈ e.moves → origin i = some j
  nodup : e.moves.Nodup
  ordered : ∀ {i i' j j'}, origin i = some j → origin i' = some j' →
    (j, i) ∉ e.moves → (j', i') ∉ e.moves → i < i' → j < j'

namespace Tracks

variable {e : Edits} {n m : ℕ} {origin : ℕ → Option ℕ}

/-- A section moves iff some move is from its old place. -/
theorem mem_froms (h : Tracks e n m origin) {i j : ℕ} (ho : origin i = some j) :
    j ∈ e.moves.map Prod.fst ↔ (j, i) ∈ e.moves := by
  simp only [List.mem_map, Prod.exists, exists_and_right, exists_eq_right]
  refine ⟨fun ⟨i', hi'⟩ => ?_, fun hmv => ⟨i, hmv⟩⟩
  rwa [h.inj ho (h.of_move hi')]

/-- A section moves iff some move is to its new place. -/
theorem mem_tos (h : Tracks e n m origin) {i j : ℕ} (ho : origin i = some j) :
    i ∈ e.moves.map Prod.snd ↔ (j, i) ∈ e.moves := by
  simp only [List.mem_map, Prod.exists, exists_eq_right]
  refine ⟨fun ⟨j', hj'⟩ => ?_, fun hmv => ⟨j, hmv⟩⟩
  rwa [Option.some.inj (ho.symm.trans (h.of_move hj'))]

theorem mem_vacant (h : Tracks e n m origin) {i : ℕ} :
    i ∈ e.vacant m ↔ ∃ j, origin i = some j ∧ (j, i) ∉ e.moves := by
  simp only [Edits.vacant, List.mem_filter, List.mem_range, decide_eq_true_eq]
  constructor
  · rintro ⟨him, hins, hto⟩
    have hsome : origin i ≠ none := fun hnone => hins (h.mem_inserts.2 ⟨him, hnone⟩)
    obtain ⟨j, hj⟩ := Option.ne_none_iff_exists'.1 hsome
    exact ⟨j, hj, fun hmv => hto ((h.mem_tos hj).2 hmv)⟩
  · rintro ⟨j, hj, hmv⟩
    refine ⟨(h.lt hj).1, fun hins => ?_, fun hto => hmv ((h.mem_tos hj).1 hto)⟩
    simpa [hj] using (h.mem_inserts.1 hins).2

theorem mem_stays (h : Tracks e n m origin) {j : ℕ} :
    j ∈ e.stays n ↔ ∃ i, origin i = some j ∧ (j, i) ∉ e.moves := by
  simp only [Edits.stays, List.mem_filter, List.mem_range, decide_eq_true_eq]
  constructor
  · rintro ⟨hjn, hdel, hfrom⟩
    have hsome : ∃ i, origin i = some j := by
      by_contra hno
      exact hdel (h.mem_deletes.2 ⟨hjn, not_exists.1 hno⟩)
    obtain ⟨i, hi⟩ := hsome
    exact ⟨i, hi, fun hmv => hfrom ((h.mem_froms hi).2 hmv)⟩
  · rintro ⟨i, hi, hmv⟩
    refine ⟨(h.lt hi).2, fun hdel => ?_, fun hfrom => hmv ((h.mem_froms hi).1 hfrom)⟩
    exact (h.mem_deletes.1 hdel).2 i hi

/-- The sections that stay keep their order. -/
theorem stays_eq (h : Tracks e n m origin) : e.stays n = (e.vacant m).filterMap origin := by
  refine List.Pairwise.eq_of_mem_iff (r := (· < ·)) ?_ ?_ fun j => ?_
  · exact List.Pairwise.filter _ List.pairwise_lt_range
  · refine List.pairwise_filterMap.2 ?_
    refine (List.Pairwise.filter _ List.pairwise_lt_range).imp_of_mem ?_
    intro i i' hi hi' hlt j hj j' hj'
    obtain ⟨j₁, hj₁, hmv⟩ := h.mem_vacant.1 hi
    obtain ⟨j₂, hj₂, hmv'⟩ := h.mem_vacant.1 hi'
    rw [hj] at hj₁
    rw [hj'] at hj₂
    obtain rfl := Option.some.inj hj₁
    obtain rfl := Option.some.inj hj₂
    exact h.ordered hj hj' hmv hmv' hlt
  · rw [h.mem_stays, List.mem_filterMap]
    constructor
    · rintro ⟨i, hi, hmv⟩
      exact ⟨i, h.mem_vacant.2 ⟨j, hi, hmv⟩, hi⟩
    · rintro ⟨i, hopen, hi⟩
      obtain ⟨j', hj', hmv⟩ := h.mem_vacant.1 hopen
      obtain rfl := Option.some.inj (hi.symm.trans hj')
      exact ⟨i, hi, hmv⟩

theorem count (h : Tracks e n m origin) : n + e.inserts.card = m + e.deletes.card := by
  have hdel : e.deletes ⊆ Finset.range n := fun j hj => Finset.mem_range.2 (h.mem_deletes.1 hj).1
  have hins : e.inserts ⊆ Finset.range m := fun i hi => Finset.mem_range.2 (h.mem_inserts.1 hi).1
  -- the sections that are not new and those that are not deleted are the same
  have hcard : (Finset.range m \ e.inserts).card = (Finset.range n \ e.deletes).card := by
    have hsome : ∀ i ∈ Finset.range m \ e.inserts, ∃ j, origin i = some j := by
      intro i hi
      rw [Finset.mem_sdiff, Finset.mem_range, h.mem_inserts] at hi
      exact Option.ne_none_iff_exists'.1 fun hnone => hi.2 ⟨hi.1, hnone⟩
    refine Finset.card_bij (fun i _ => (origin i).getD 0) ?_ ?_ ?_
    · intro i hi
      obtain ⟨j, hj⟩ := hsome i hi
      rw [hj, Option.getD_some, Finset.mem_sdiff, Finset.mem_range, h.mem_deletes]
      exact ⟨(h.lt hj).2, fun hdel => hdel.2 i hj⟩
    · intro i hi i' hi' heq
      obtain ⟨j, hj⟩ := hsome i hi
      obtain ⟨j', hj'⟩ := hsome i' hi'
      rw [hj, hj', Option.getD_some, Option.getD_some] at heq
      exact h.inj hj (heq ▸ hj')
    · intro j hj
      rw [Finset.mem_sdiff, Finset.mem_range, h.mem_deletes] at hj
      have ⟨i, hi⟩ : ∃ i, origin i = some j := by
        by_contra hno
        exact hj.2 ⟨hj.1, not_exists.1 hno⟩
      refine ⟨i, ?_, by rw [hi, Option.getD_some]⟩
      rw [Finset.mem_sdiff, Finset.mem_range, h.mem_inserts]
      exact ⟨(h.lt hi).1, fun hins => by simp [hi] at hins⟩
  rw [Finset.card_sdiff_of_subset hins, Finset.card_sdiff_of_subset hdel, Finset.card_range,
    Finset.card_range] at hcard
  have := Finset.card_le_card hdel
  have := Finset.card_le_card hins
  rw [Finset.card_range] at *
  omega

theorem lookup_zip_filterMap {l : List ℕ} {f : ℕ → Option ℕ} (hsome : ∀ i ∈ l, (f i).isSome)
    {i : ℕ} (hi : i ∈ l) : (l.zip (l.filterMap f)).lookup i = f i := by
  induction l with
  | nil => cases hi
  | cons a l ih =>
    obtain ⟨b, hb⟩ := Option.isSome_iff_exists.1 (hsome a List.mem_cons_self)
    rw [List.filterMap_cons_some hb, List.zip_cons_cons, List.lookup_cons]
    rcases eq_or_ne i a with rfl | hne
    · rw [beq_self_eq_true, hb]
    · rw [beq_false_of_ne hne]
      exact ih (fun i' hi' => hsome i' (List.mem_cons_of_mem a hi'))
        ((List.mem_cons.1 hi).resolve_left hne)

/-- **Every section that is kept arrives at its place.** -/
theorem origin_eq (h : Tracks e n m origin) {i : ℕ} (hi : i < m) :
    e.origin n m i = origin i := by
  rw [Edits.origin]
  split_ifs with hins
  · exact (h.mem_inserts.1 hins).2.symm
  · obtain ⟨j, hj⟩ : ∃ j, origin i = some j :=
      Option.ne_none_iff_exists'.1 fun hnone => hins (h.mem_inserts.2 ⟨hi, hnone⟩)
    cases hfind : e.moves.find? fun mv => mv.2 == i with
    | some mv =>
      obtain rfl : mv.2 = i := by simpa using List.find?_some hfind
      exact (h.of_move (List.mem_of_find?_eq_some hfind)).symm
    | none =>
      have hmv : (j, i) ∉ e.moves := fun hmv => by
        simpa using List.find?_eq_none.1 hfind _ hmv
      rw [Option.map_none, Option.none_or, h.stays_eq]
      refine lookup_zip_filterMap (fun i' hi' => ?_) (h.mem_vacant.2 ⟨j, hj, hmv⟩)
      obtain ⟨j', hj', -⟩ := h.mem_vacant.1 hi'
      rw [hj']
      rfl

theorem consistent {before after : List ℕ} (h : Tracks e before.length after.length origin)
    (hitems : ∀ {i j}, origin i = some j → before[j]? = after[i]?)
    (hreloads : ∀ item ∈ e.reloads, item.1 ∉ e.deletes ∧ item.1 ∉ e.moves.map Prod.fst ∧
      item.2 < before[item.1]?.getD 0) : e.Consistent before after where
  delete_lt _ hj := (h.mem_deletes.1 hj).1
  insert_lt _ hi := (h.mem_inserts.1 hi).1
  move_lt := by
    rintro ⟨j, i⟩ hmv
    have ho := h.of_move hmv
    refine ⟨⟨(h.lt ho).2, fun hdel => (h.mem_deletes.1 hdel).2 i ho⟩, (h.lt ho).1, fun hins => ?_⟩
    simpa [ho] using (h.mem_inserts.1 hins).2
  from_nodup := by
    refine h.nodup.map_on ?_
    rintro ⟨j, i⟩ hmv ⟨j', i'⟩ hmv' (rfl : j = j')
    rw [h.inj (h.of_move hmv) (h.of_move hmv')]
  to_nodup := by
    refine h.nodup.map_on ?_
    rintro ⟨j, i⟩ hmv ⟨j', i'⟩ hmv' (rfl : i = i')
    rw [Option.some.inj ((h.of_move hmv).symm.trans (h.of_move hmv'))]
  count := h.count
  items i hi j hj := hitems ((h.origin_eq hi).symm.trans hj)
  reloads := hreloads

end Tracks

/-! ## Sections of objects -/

section
variable {e : Edits} {origin : ℕ → Option ℕ} {cells : α → List β} {old new : List α}

/-- The sections in `reloaded` stay, and all their items are reloaded, and no others. -/
structure Reloads (e : Edits) (before : List ℕ) (reloaded : Finset ℕ) : Prop where
  delete : ∀ j ∈ reloaded, j ∉ e.deletes
  move : ∀ j ∈ reloaded, j ∉ e.moves.map Prod.fst
  mem : ∀ j k, (j, k) ∈ e.reloads ↔ j ∈ reloaded ∧ k < before[j]?.getD 0

/-- The object whose items end at a place of the new list. -/
def version (origin : ℕ → Option ℕ) (reloaded : Finset ℕ) (old : List α) (i : ℕ) (object : α) : α :=
  (((origin i).filter (· ∉ reloaded)).bind (old[·]?)).getD object

/-- The items of a section that is kept are those of the object before or of the object after. -/
theorem Reloads.kept_eq {before : List ℕ} {reloaded : Finset ℕ} (h : Reloads e before reloaded)
    {j : ℕ} {oldItems newItems : List β} (hbefore : before[j]? = some oldItems.length)
    (hlength : oldItems.length = newItems.length) :
    e.kept j oldItems newItems = if j ∈ reloaded then newItems else oldItems := by
  have hmem : ∀ k < oldItems.length, ((j, k) ∈ e.reloads ↔ j ∈ reloaded) := by
    intro k hk
    rw [h.mem, hbefore, Option.getD_some]
    exact and_iff_left hk
  refine List.ext_getElem ?_ fun k hk hk' => ?_
  · split_ifs <;> simp [Edits.kept, hlength]
  · have hold : k < oldItems.length := by
      have := hk
      simp only [Edits.kept, List.length_mapIdx, List.length_zip] at this
      omega
    simp only [Edits.kept, List.getElem_mapIdx, List.getElem_zip, hmem k hold]
    split_ifs <;> rfl

/-- **A consistent batch update goes through.**  If the edits track the sections of the objects, and
    the objects that are kept keep the number of their items, the collection view shows the objects
    after, section by section, or those before where the section is kept and not reloaded. -/
theorem Tracks.perform_forall₂ (h : Tracks e old.length new.length origin)
    {performBatchUpdates : Edits → List (List β) → List (List β) → Option (List (List β))}
    (hperform : Documented performBatchUpdates) {reloaded : Finset ℕ}
    (hreloads : Reloads e (old.map fun object => (cells object).length) reloaded)
    (hcells : ∀ {i j a b}, origin i = some j → old[j]? = some a → new[i]? = some b →
      (cells a).length = (cells b).length)
    {R : α → α → Prop} (hrefl : ∀ a, R a a)
    (hR : ∀ {i j a b}, origin i = some j → j ∉ reloaded → old[j]? = some a → new[i]? = some b →
      R a b) :
    ∃ versions, performBatchUpdates e (old.map cells) (new.map cells) =
      some (versions.map cells) ∧ List.Forall₂ R versions new := by
  have hcounts : ∀ l : List α, (l.map cells).map List.length = l.map fun a => (cells a).length :=
    fun l => List.map_map
  have hconsistent : e.Consistent ((old.map cells).map List.length)
      ((new.map cells).map List.length) := by
    rw [hcounts, hcounts]
    refine Tracks.consistent (by simpa using h) (fun {i j} ho => ?_) fun item hitem => ?_
    · obtain ⟨hi, hj⟩ := h.lt ho
      simp only [List.getElem?_map, List.getElem?_eq_getElem hi, List.getElem?_eq_getElem hj,
        Option.map_some]
      rw [hcells ho (List.getElem?_eq_getElem hj) (List.getElem?_eq_getElem hi)]
    · obtain ⟨hmem, hlt⟩ := (hreloads.mem item.1 item.2).1 hitem
      exact ⟨hreloads.delete _ hmem, hreloads.move _ hmem, hlt⟩
  refine ⟨new.mapIdx (version origin reloaded old), ?_, ?_⟩
  · rw [hperform _ _ _ hconsistent]
    refine congrArg some (List.ext_getElem (by simp [Edits.result]) fun i hi hi' => ?_)
    have hi : i < new.length := by simpa [Edits.result] using hi
    simp only [Edits.result, List.getElem_mapIdx, List.getElem_map, List.length_map,
      h.origin_eq hi, version]
    cases ho : origin i with
    | none => rfl
    | some j =>
      obtain ⟨_, hj⟩ := h.lt ho
      have hold := List.getElem?_eq_getElem hj
      have hlength := hcells ho hold (List.getElem?_eq_getElem hi)
      simp only [List.getElem?_map, hold, Option.map_some, Option.getD_some]
      rw [hreloads.kept_eq (by rw [List.getElem?_map, hold, Option.map_some]) hlength]
      by_cases hmem : j ∈ reloaded <;> simp [Option.filter_some, hmem, hold]
  · rw [List.forall₂_iff_get]
    refine ⟨by simp, fun i hi hi' => ?_⟩
    simp only [List.get_eq_getElem, List.getElem_mapIdx, version]
    cases ho : origin i with
    | none => exact hrefl _
    | some j =>
      have hold := List.getElem?_eq_getElem (h.lt ho).2
      by_cases hmem : j ∈ reloaded
      · simpa [Option.filter_some, hmem] using hrefl _
      · simpa [Option.filter_some, hmem, hold] using
          hR ho hmem hold (List.getElem?_eq_getElem hi')

end

/-! ## Which sections move -/

section
variable {origin target : ℕ → Option ℕ}

/-- How many of the paired sections come before. -/
def rank (f : ℕ → Option ℕ) (i : ℕ) : ℕ := Nat.count (fun i => (f i).isSome) i

theorem rank_lt {f : ℕ → Option ℕ} {i i' j : ℕ} (hi : f i = some j) (hlt : i < i') :
    rank f i < rank f i' :=
  Nat.count_strict_mono (by rw [hi]; rfl) hlt

/-- The sections that come before are paired or not. -/
theorem rank_add_count (f : ℕ → Option ℕ) (i : ℕ) :
    rank f i + Nat.count (fun i => f i = none) i = i := by
  induction i with
  | zero => rfl
  | succ i ih =>
    rw [rank] at ih ⊢
    rw [Nat.count_succ, Nat.count_succ]
    rcases f i with _ | j <;> simp <;> omega

/-- Sections with the same rank in both lists keep their order. -/
theorem lt_of_rank_eq {i i' j j' : ℕ} (hi : origin i = some j)
    (hr : rank target j = rank origin i) (hr' : rank target j' = rank origin i') (hlt : i < i') :
    j < j' := by
  have h := rank_lt hi hlt
  rw [← hr, ← hr'] at h
  exact Nat.lt_of_count_lt_count h

/-- If the pairing is increasing, all paired sections have the same rank in both lists. -/
theorem rank_eq_of_increasing (hpair : ∀ {i j}, origin i = some j ↔ target j = some i)
    (hinc : ∀ {i i' j j'}, origin i = some j → origin i' = some j' → i < i' → j < j')
    {i j : ℕ} (hi : origin i = some j) : rank target j = rank origin i := by
  have hlt : ∀ {i' j'}, origin i' = some j' → (j' < j ↔ i' < i) := by
    intro i' j' hi'
    refine ⟨fun h => ?_, hinc hi' hi⟩
    rcases Nat.lt_trichotomy i' i with hlt | rfl | hgt
    · exact hlt
    · rw [Option.some.inj (hi.symm.trans hi')] at h
      exact absurd h (lt_irrefl _)
    · exact absurd h (hinc hi hi' hgt).not_gt
  rw [rank, rank, Nat.count_eq_card_filter_range, Nat.count_eq_card_filter_range]
  refine Finset.card_bij (fun j' _ => (target j').getD 0) ?_ ?_ ?_
  · intro j' hj'
    obtain ⟨hjlt, hsome⟩ := Finset.mem_filter.1 hj'
    obtain ⟨i', hi'⟩ := Option.isSome_iff_exists.1 hsome
    rw [hi', Option.getD_some, Finset.mem_filter, Finset.mem_range, hpair.2 hi']
    exact ⟨(hlt (hpair.2 hi')).1 (Finset.mem_range.1 hjlt), rfl⟩
  · intro j₁ hj₁ j₂ hj₂ heq
    obtain ⟨i₁, hi₁⟩ := Option.isSome_iff_exists.1 (Finset.mem_filter.1 hj₁).2
    obtain ⟨i₂, hi₂⟩ := Option.isSome_iff_exists.1 (Finset.mem_filter.1 hj₂).2
    rw [hi₁, hi₂, Option.getD_some, Option.getD_some] at heq
    subst heq
    exact Option.some.inj ((hpair.2 hi₁).symm.trans (hpair.2 hi₂))
  · intro i' hi'
    obtain ⟨hilt, hsome⟩ := Finset.mem_filter.1 hi'
    obtain ⟨j', hj'⟩ := Option.isSome_iff_exists.1 hsome
    refine ⟨j', ?_, by rw [hpair.1 hj', Option.getD_some]⟩
    rw [Finset.mem_filter, Finset.mem_range, hpair.1 hj']
    exact ⟨(hlt hj').2 (Finset.mem_range.1 hilt), rfl⟩

end

end BatchUpdate
