/-
  Lists cut into groups by a loop.

  * `foldl_step`: a loop that opens a new group whenever the key changes cuts the list into its
    maximal runs of equal keys, less those elements at its front that have the initial key;
  * `splitBy_map`: cutting commutes with maps.

  Keys are compared by a partial equivalence: a key need not be equal to itself.
-/
import Mathlib.Data.List.SplitBy
import Mathlib.Data.List.ModifyLast

namespace Groups

variable {α β κ : Type*} [BEq κ] (key : α → κ)

/-- One turn of the loop, on the groups so far and the key of the last of them. -/
def step (s : List (List α) × κ) (a : α) : List (List α) × κ :=
  if s.2 != key a then (s.1 ++ [[a]], key a) else (s.1.modifyLast (· ++ [a]), s.2)

theorem step_new {gs : List (List α)} {cur : κ} {a : α} (h : (cur == key a) = false) :
    step key (gs, cur) a = (gs ++ [[a]], key a) := by
  rw [step, if_pos (by simp [bne, h])]

theorem step_same {gs : List (List α)} {g : List α} {cur : κ} {a : α}
    (h : (cur == key a) = true) :
    step key (gs ++ [g], cur) a = (gs ++ [g ++ [a]], cur) := by
  rw [step, if_neg (by simp [bne, h]), List.modifyLast_concat]

section
variable [PartialEquivBEq κ]

/-- The loop with a group open.  The current key is equal to the same keys as that of the last
    element, which need not be equal to itself. -/
theorem foldl_step_open : ∀ (l : List α) (gs : List (List α)) (g : List α) (last : α) (cur : κ),
    (g ++ [last]).IsChain (fun a b => (key a == key b) = true) →
    (∀ k, (cur == k) = (key last == k)) →
    (l.foldl (step key) (gs ++ [g ++ [last]], cur)).1 =
      gs ++ (g ++ last :: l).splitBy fun a b => key a == key b := by
  intro l
  induction l with
  | nil =>
    intro gs g last cur hchain _
    rw [List.foldl_nil, List.splitBy_of_isChain (by simp) hchain]
  | cons a l ih =>
    intro gs g last cur hchain hcur
    cases hkey : cur == key a with
    | true =>
      have hrel : (key last == key a) = true := hcur _ ▸ hkey
      rw [List.foldl_cons, step_same key hkey, ih gs (g ++ [last]) a cur]
      · simp
      · exact List.isChain_append.2 ⟨hchain, by simp, by simpa using hrel⟩
      · intro k
        rw [hcur, BEq.congr_left hrel]
    | false =>
      have hrel : (key last == key a) = false := hcur _ ▸ hkey
      rw [List.foldl_cons, step_new key hkey]
      have hnext := ih (gs ++ [g ++ [last]]) [] a (key a) (by simp) fun _ => rfl
      -- the group that was open is complete
      have hcut : ((g ++ [last]) ++ a :: l).splitBy (fun a b => key a == key b) =
          [g ++ [last]] ++ (a :: l).splitBy fun a b => key a == key b := by
        rw [List.splitBy_append_cons l (by simpa using hrel),
          List.splitBy_of_isChain (by simp) hchain]
      rw [List.append_cons g last (a :: l), hcut, ← List.append_assoc]
      exact hnext

/-- **The loop cuts the list into its maximal runs of equal keys**, less those elements at its front
    that have the initial key. -/
theorem foldl_step (cur : κ) : ∀ l : List α,
    (l.foldl (step key) ([], cur)).1 =
      (l.dropWhile fun a => cur == key a).splitBy fun a b => key a == key b := by
  intro l
  induction l with
  | nil => rfl
  | cons a l ih =>
    cases hkey : cur == key a with
    | true =>
      have hstep : step key ([], cur) a = ([], cur) := by
        rw [step, if_neg (by simp [bne, hkey])]
        rfl
      rw [List.dropWhile_cons, if_pos hkey, ← ih, List.foldl_cons, hstep]
    | false =>
      rw [List.dropWhile_cons, hkey, List.foldl_cons, step_new key hkey]
      exact foldl_step_open key l [] [] a (key a) (by simp) fun _ => rfl

end

/-- Cutting commutes with maps. -/
theorem splitBy_map (f : α → β) (r : β → β → Bool) (l : List α) :
    (l.map f).splitBy r = (l.splitBy fun a b => r (f a) (f b)).map (List.map f) := by
  rw [List.splitBy_eq_iff]
  refine ⟨?_, ?_, ?_, ?_⟩
  · rw [← List.map_flatten, List.flatten_splitBy]
  · simp
  · intro g' hg'
    obtain ⟨g, hg, rfl⟩ := List.mem_map.1 hg'
    exact List.isChain_map_of_isChain f (fun _ _ h => h) (List.isChain_of_mem_splitBy hg)
  · refine List.isChain_map_of_isChain (List.map f) ?_
      (List.isChain_getLast_head_splitBy (fun a b => r (f a) (f b)) l)
    rintro g h ⟨hg, hh, hrel⟩
    refine ⟨by simpa using hg, by simpa using hh, ?_⟩
    rw [List.getLast_map, List.head_map]
    exact hrel

end Groups
