/-
  Comparison sorts, known only by their contract.

  A `Sorter` returns an ordered permutation for every strict weak order, and promises nothing about
  the order of elements that compare equal.  What it returns on two permutations of one list can
  therefore differ, but not in the keys it was sorted by (`map_sort_of_perm`), and not at all if
  the keys are distinct (`sort_eq_of_perm`).
-/
import Mathlib.Data.List.Sort
import Mathlib.Data.List.Nodup
import Mathlib.Order.RelClasses

/-- A comparison sort. -/
structure Sorter where
  sort : ∀ {α : Type}, (α → α → Bool) → List α → List α
  perm : ∀ {α : Type} (lt : α → α → Bool) (l : List α), (sort lt l).Perm l
  ordered : ∀ {α : Type} (lt : α → α → Bool) (l : List α), IsStrictWeakOrder α (fun a b => lt a b) →
    (sort lt l).Pairwise fun a b => lt b a = false

namespace Sorter

/-- Insertion sort, which is stable. -/
def insertion : Sorter where
  sort lt l := l.insertionSort fun a b => lt b a = false
  perm _ l := List.perm_insertionSort _ l
  ordered := by
    intro α lt l h
    have htotal : Std.Total fun a b => lt b a = false := ⟨fun a b => by
      by_contra hab
      simp only [not_or, Bool.not_eq_false] at hab
      exact h.irrefl a (h.trans a b a hab.2 hab.1)⟩
    have htrans : IsTrans α fun a b => lt b a = false := ⟨fun a b c hab hbc => by
      by_contra hac
      rw [Bool.not_eq_false] at hac
      by_cases hcb : lt a b
      · exact absurd (h.trans c a b hac hcb) (by simp [hbc])
      · by_cases hbc' : lt b c
        · exact absurd (h.trans b c a hbc' hac) (by simp [hab])
        · exact (h.incomp_trans a b c ⟨hcb, by simp [hab]⟩ ⟨hbc', by simp [hbc]⟩).2 hac⟩
    exact List.pairwise_insertionSort _ l

/-- A test that holds on an initial part of a list, on the first `k` elements. -/
theorem countP_take {α : Type} {p : α → Bool} {l : List α}
    (h : l.Pairwise fun a b => p b = true → p a = true) : ∀ k : ℕ,
    (l.take k).countP p = min k (l.countP p) := by
  induction l with
  | nil => simp
  | cons a l ih =>
    intro k
    obtain ⟨ha, hl⟩ := List.pairwise_cons.1 h
    cases k with
    | zero => simp
    | succ k =>
      rw [List.take_succ_cons, List.countP_cons, List.countP_cons, ih hl]
      by_cases hpa : p a = true
      · simp only [hpa, if_true]
        omega
      · have hnone : l.countP p = 0 := List.countP_eq_zero.2 fun b hb hpb => hpa (ha b hb hpb)
        simp [hpa, hnone]

variable (S : Sorter)

/-- The order of keys, as an order of the elements that have them. -/
def byKey {α β : Type} (r : β → β → Prop) [DecidableRel r] (key : α → β) (a b : α) : Bool :=
  decide (r (key a) (key b))

/-- Incomparable keys are equal. -/
theorem eq_of_not_rel {β : Type} (r : β → β → Prop) [IsStrictTotalOrder β r] {x y : β}
    (h : ¬ r y x) (h' : ¬ r x y) : x = y := by
  rcases trichotomous_of r x y with h₁ | h₁ | h₁
  exacts [absurd h₁ h', h₁, absurd h₁ h]

theorem byKey_strictWeak {α β : Type} (r : β → β → Prop) [DecidableRel r] [IsStrictTotalOrder β r]
    (key : α → β) : IsStrictWeakOrder α fun a b => byKey r key a b where
  irrefl a := by simp [byKey, irrefl (r := r)]
  trans a b c hab hbc := by
    simp only [byKey, decide_eq_true_eq] at hab hbc ⊢
    exact IsTrans.trans _ _ _ hab hbc
  incomp_trans a b c hab hbc := by
    simp only [byKey, decide_eq_true_eq] at hab hbc ⊢
    rw [eq_of_not_rel r hab.2 hab.1]; exact hbc

section
variable {α β : Type} (r : β → β → Prop) [DecidableRel r] [IsStrictTotalOrder β r] (key : α → β)

theorem mem_sort {lt : α → α → Bool} {l : List α} {a : α} : a ∈ S.sort lt l ↔ a ∈ l :=
  (S.perm lt l).mem_iff

theorem length_sort (lt : α → α → Bool) (l : List α) : (S.sort lt l).length = l.length :=
  (S.perm lt l).length_eq

/-- A list sorted by keys is ordered by them. -/
theorem sort_ordered (l : List α) :
    (S.sort (byKey r key) l).Pairwise fun a b => ¬ r (key b) (key a) := by
  refine (S.ordered _ l (byKey_strictWeak r key)).imp fun {a b} h => ?_
  simpa [byKey] using h

/-- **The first `k` of a sorted list**: with the others they are a permutation of the list, and no
    other comes before one of them. -/
theorem sort_take (k : ℕ) (l : List α) :
    ∃ rest, ((S.sort (byKey r key) l).take k ++ rest).Perm l ∧
      ∀ a ∈ (S.sort (byKey r key) l).take k, ∀ b ∈ rest, ¬ r (key b) (key a) := by
  refine ⟨(S.sort (byKey r key) l).drop k, ?_, ?_⟩
  · rw [List.take_append_drop]
    exact S.perm _ l
  · have hord := S.sort_ordered r key l
    rw [← List.take_append_drop k (S.sort (byKey r key) l), List.pairwise_append] at hord
    exact hord.2.2

/-- **The keys of a sorted list** are those of any permutation that is ordered by them. -/
theorem map_sort_of_ordered {l l' : List α} (h : l'.Perm l)
    (hord : l'.Pairwise fun a b => ¬ r (key b) (key a)) :
    (S.sort (byKey r key) l).map key = l'.map key := by
  have hperm : ((S.sort (byKey r key) l).map key).Perm (l'.map key) :=
    ((S.perm _ l).trans h.symm).map key
  have h₁ : ((S.sort (byKey r key) l).map key).Pairwise fun x y => ¬ r y x :=
    List.pairwise_map.2 (S.sort_ordered r key l)
  have h₂ : (l'.map key).Pairwise fun x y => ¬ r y x := List.pairwise_map.2 hord
  exact hperm.eq_of_pairwise (fun x y _ _ hxy hyx => eq_of_not_rel r hxy hyx) h₁ h₂

/-- **Sorting two permutations gives the same sequence of keys.** -/
theorem map_sort_of_perm {l l' : List α} (h : l.Perm l') :
    (S.sort (byKey r key) l).map key = (S.sort (byKey r key) l').map key :=
  S.map_sort_of_ordered r key ((S.perm _ l').trans h.symm) (S.sort_ordered r key l')

/-- **Sorting two permutations gives the same list** if the keys are distinct. -/
theorem sort_eq_of_perm {l l' : List α} (hl : (l.map key).Nodup) (h : l.Perm l') :
    S.sort (byKey r key) l = S.sort (byKey r key) l' := by
  have hperm : (S.sort (byKey r key) l).Perm (S.sort (byKey r key) l') :=
    (S.perm _ l).trans (h.trans (S.perm _ l').symm)
  refine hperm.eq_of_pairwise ?_ (S.sort_ordered r key l) (S.sort_ordered r key l')
  intro a b ha hb hab hba
  refine List.inj_on_of_nodup_map hl (S.mem_sort.1 ha) ?_ (eq_of_not_rel r hab hba)
  exact h.mem_iff.2 (S.mem_sort.1 hb)

/-- A list with distinct keys is sorted strictly. -/
theorem sort_strict {l : List α} (hl : (l.map key).Nodup) :
    (S.sort (byKey r key) l).Pairwise fun a b => r (key a) (key b) := by
  have hnd : (S.sort (byKey r key) l).Pairwise fun a b => key a ≠ key b :=
    List.pairwise_map.1 (((S.perm _ l).map key).nodup_iff.2 hl)
  refine (S.sort_ordered r key l).imp₂ (fun {a b} h hne => ?_) hnd
  rcases trichotomous_of r (key a) (key b) with h₁ | h₁ | h₁
  exacts [h₁, absurd h₁ hne, absurd h₁ h]

/-! ## The first elements of a sorted list and of a sorted part of it -/

/-- How many of the first `k` elements do not come after `x`. -/
theorem countP_take_sort (x : β) (k : ℕ) (l : List α) :
    ((S.sort (byKey r key) l).take k).countP (fun a => decide ¬ r x (key a)) =
      min k (l.countP fun a => decide ¬ r x (key a)) := by
  rw [← (S.perm (byKey r key) l).countP_eq]
  refine countP_take ((S.sort_ordered r key l).imp fun {a b} hab hb => ?_) k
  rw [decide_eq_true_eq] at hb ⊢
  intro ha
  rcases trichotomous_of r (key b) x with hbx | hbx | hxb
  exacts [hab (IsTrans.trans _ _ _ hbx ha), hab (hbx ▸ ha), hb hxb]

/-- **The first keys of a sorted list** are those of any ordered part of it that no other element
    comes before. -/
theorem map_take_sort {front rest l : List α} (h : (front ++ rest).Perm l)
    (hord : front.Pairwise fun a b => ¬ r (key b) (key a))
    (hfirst : ∀ a ∈ front, ∀ b ∈ rest, ¬ r (key b) (key a)) :
    ((S.sort (byKey r key) l).take front.length).map key = front.map key := by
  have hperm : (front ++ S.sort (byKey r key) rest).Perm l :=
    ((S.perm _ rest).append_left front).trans h
  have hkeys := S.map_sort_of_ordered r key hperm (List.pairwise_append.2
    ⟨hord, S.sort_ordered r key rest, fun a ha b hb => hfirst a ha b (S.mem_sort.1 hb)⟩)
  rw [List.map_take, hkeys, ← List.map_take, List.take_left]

/-- If every element outside a part has `k` elements of the part that do not come after it, the
    part has the first `k` keys of the list. -/
theorem map_take_sort_filter {p : α → Bool} {k : ℕ} {l : List α}
    (h : ∀ b ∈ l, p b = false → k ≤ (l.filter p).countP fun a => decide ¬ r (key b) (key a)) :
    ((S.sort (byKey r key) (l.filter p)).take k).map key =
      ((S.sort (byKey r key) l).take k).map key := by
  by_cases hall : ∀ b ∈ l, p b = true
  · rw [List.filter_eq_self.2 hall]
  · push Not at hall
    obtain ⟨b₀, hb₀, hpb₀⟩ := hall
    obtain ⟨rest, hrest, hfirst⟩ := S.sort_take r key k (l.filter p)
    set front := (S.sort (byKey r key) (l.filter p)).take k with hfront
    have hlen : front.length = k := by
      rw [hfront, List.length_take, S.length_sort, Nat.min_eq_left]
      exact (h b₀ hb₀ (Bool.eq_false_iff.2 hpb₀)).trans List.countP_le_length
    have hperm : (front ++ (rest ++ l.filter fun a => !p a)).Perm l := by
      rw [← List.append_assoc]
      exact (hrest.append_right _).trans (List.filter_append_perm p l)
    rw [← hlen]
    refine (S.map_take_sort r key hperm
      ((S.sort_ordered r key _).sublist (List.take_sublist k _)) fun a ha b hb => ?_).symm
    rcases List.mem_append.1 hb with hb | hb
    · exact hfirst a ha b hb
    · -- all `k` elements in front do not come after `b`
      obtain ⟨hbl, hpb⟩ := List.mem_filter.1 hb
      have hcount := S.countP_take_sort r key (key b) k (l.filter p)
      rw [Nat.min_eq_left (h b hbl (by simpa using hpb)), ← hfront, ← hlen] at hcount
      exact of_decide_eq_true (List.countP_eq_length.1 hcount a ha)

/-- **A part of a list has the same first `k` keys as the list** iff every element outside the part
    has `k` elements of the part that do not come after it. -/
theorem sort_take_filter_iff (p : α → Bool) (k : ℕ) (l : List α) :
    ((S.sort (byKey r key) (l.filter p)).take k).map key =
        ((S.sort (byKey r key) l).take k).map key ↔
      ∀ b ∈ l, p b = false → k ≤ (l.filter p).countP fun a => decide ¬ r (key b) (key a) := by
  refine ⟨fun h b hb hpb => ?_, S.map_take_sort_filter r key⟩
  -- `b` itself is one more that does not come after `b`
  have hcount := congrArg (List.countP fun x => decide ¬ r (key b) x) h
  simp only [List.countP_map, Function.comp_def, countP_take_sort] at hcount
  rw [← (List.filter_append_perm p l).countP_eq, List.countP_append] at hcount
  have hself : 0 < (l.filter fun a => !p a).countP fun a => decide ¬ r (key b) (key a) := by
    refine List.countP_pos_iff.2 ⟨b, List.mem_filter.2 ⟨hb, by simp [hpb]⟩, ?_⟩
    exact decide_eq_true (irrefl (r := r) (key b))
  omega

end

end Sorter
