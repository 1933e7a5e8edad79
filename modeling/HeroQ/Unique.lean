/-
  `Array.unique(map:)` (`Extension+Array.swift`): the loop with its growing set computes the first
  occurrences by key.
-/
import HeroQ.Lib.FirstOcc
import Mathlib.Data.Finset.Insert

namespace HeroQ

variable {α κ : Type*} [DecidableEq κ]

/-- One iteration of the loop of `unique`, on the set of the keys seen and the array built. -/
def uniqueStep (map : α → κ) (acc : Finset κ × List α) (value : α) : Finset κ × List α :=
  if map value ∉ acc.1 then (insert (map value) acc.1, acc.2 ++ [value]) else acc

/-- `unique(map:)` -/
def unique (map : α → κ) (array : List α) : List α :=
  (array.foldl (uniqueStep map) (∅, [])).2

/-- The loop keeps the first occurrences among the elements whose keys are not in the set yet. -/
theorem foldl_uniqueStep (map : α → κ) (array : List α) : ∀ (set : Finset κ) (out : List α),
    (array.foldl (uniqueStep map) (set, out)).2 =
      out ++ (FirstOcc.firstOcc map array).filter fun a => map a ∉ set := by
  induction array with
  | nil => intro set out; simp
  | cons a array ih =>
    intro set out
    rw [List.foldl_cons, FirstOcc.firstOcc_cons, List.filter_cons, List.filter_filter]
    by_cases h : map a ∈ set
    · rw [uniqueStep, if_neg (not_not.2 h), ih, if_neg (by simpa using h)]
      congr 1
      -- a key that is not in the set differs from the key of `a`
      refine List.filter_congr fun b _ => ?_
      by_cases hb : map b = map a
      · simp [hb, h]
      · simp [hb]
    · rw [uniqueStep, if_pos h, ih, if_pos (by simpa using h), List.append_assoc,
        List.singleton_append]
      congr 2
      refine List.filter_congr fun b _ => ?_
      simp only [Finset.mem_insert, not_or, Bool.decide_and, ne_eq, Bool.and_comm]

/-- **`unique(map:)` keeps the first occurrences by key.** -/
theorem unique_eq_firstOcc (map : α → κ) (array : List α) :
    unique map array = FirstOcc.firstOcc map array := by
  rw [unique, foldl_uniqueStep]
  simp

/-- **What `unique(map:)` returns**: a sublist with distinct keys, with the first element of each
    key; so a second pass changes nothing, and the first pass changes nothing iff the keys were
    distinct. -/
theorem unique_firsts (map : α → κ) (array : List α) :
    (unique map array).Sublist array ∧
      ((unique map array).map map).Nodup ∧
      (∀ a ∈ array, ∃ b ∈ unique map array, map b = map a ∧
        array.find? (fun c => map c = map a) = some b) ∧
      unique map (unique map array) = unique map array ∧
      (unique map array = array ↔ (array.map map).Nodup) := by
  simp only [unique_eq_firstOcc]
  refine ⟨FirstOcc.firstOcc_sublist map array, FirstOcc.nodup_firstOcc map array, fun a ha => ?_,
    ?_, FirstOcc.firstOcc_eq_self_iff map⟩
  · obtain ⟨b, hb, hkey⟩ := List.mem_map.1
      ((FirstOcc.mem_map_firstOcc map).2 (List.mem_map_of_mem ha))
    refine ⟨b, hb, hkey, ?_⟩
    rw [← hkey]
    exact (FirstOcc.mem_firstOcc_iff map).1 hb
  · exact (FirstOcc.firstOcc_eq_self_iff map).2 (FirstOcc.nodup_firstOcc map array)

end HeroQ
