/-
  Loops over arrays: collecting into a second array, writing in place, and the invariant rule
  (`foldlM_zipIdx`).

  An array is the list of its elements.  Writing to an element traps if the index, a signed
  integer, is out of bounds (`update` is `none`).
-/
import Mathlib.Data.List.Basic
import Mathlib.Algebra.Order.Ring.Int

namespace Loops

variable {α β : Type*}

/-- A loop that appends one element for each element is a map. -/
theorem foldl_concat (f : α → β) (l : List α) : ∀ acc : List β,
    l.foldl (fun acc a => acc ++ [f a]) acc = acc ++ l.map f := by
  induction l with
  | nil => intro acc; simp
  | cons a l ih => intro acc; rw [List.foldl_cons, ih, List.append_assoc]; rfl

/-- A loop that appends a list for each element. -/
theorem foldl_concats (f : α → List β) (l : List α) : ∀ acc : List β,
    l.foldl (fun acc a => acc ++ f a) acc = acc ++ l.flatMap f := by
  induction l with
  | nil => intro acc; simp
  | cons a l ih => intro acc; rw [List.foldl_cons, ih, List.append_assoc]; rfl

/-- A search by element through an array with its indices finds the first element that passes the
    test, with its index. -/
theorem find?_zipIdx (p : α → Bool) (l : List α) : ∀ k : ℕ,
    (l.zipIdx k).find? (fun x => p x.1) = (l.find? p).map fun a => (a, k + l.findIdx p) := by
  induction l with
  | nil => intro k; rfl
  | cons a l ih =>
    intro k
    rw [List.zipIdx_cons, List.find?_cons, List.find?_cons, List.findIdx_cons]
    cases p a with
    | true => rfl
    | false =>
      rw [ih]
      simp only [cond_false, Nat.add_assoc, Nat.add_comm 1]

/-- What a search returns of the first element that passes the test. -/
theorem findSome?_ite (p : α → Bool) (f : α → β) (l : List α) :
    l.findSome? (fun a => if p a then some (f a) else none) = (l.find? p).map f := by
  induction l with
  | nil => rfl
  | cons a l ih =>
    rw [List.findSome?_cons, List.find?_cons]
    cases p a with
    | true => rfl
    | false => exact ih

/-- Write to the element at the index `i`. -/
def update (l : List α) (i : Int) (f : α → α) : Option (List α) :=
  if 0 ≤ i ∧ i < l.length then some (l.modify i.toNat f) else none

theorem update_nat {l : List α} {k : ℕ} (hk : k < l.length) (f : α → α) :
    update l k f = some (l.modify k f) := by
  rw [update, if_pos ⟨Int.natCast_nonneg k, by exact_mod_cast hk⟩, Int.toNat_natCast]

theorem update_append (pre : List α) (a : α) (suf : List α) (f : α → α) :
    update (pre ++ a :: suf) pre.length f = some (pre ++ f a :: suf) := by
  rw [update_nat (by simp)]
  congr 1
  induction pre with
  | nil => rfl
  | cons b pre ih => rw [List.cons_append, List.length_cons, List.modify_succ_cons, ih]; rfl

/-- **A loop over an array that writes to the elements passing a test**, while it runs over the
    elements the array had before the loop. -/
theorem forEach_update (p : α → Bool) (f : α → α) (l : List α) :
    l.zipIdx.foldlM (fun (l' : List α) (x : α × ℕ) => if p x.1 then update l' x.2 f else some l') l =
      some (l.map fun a => if p a then f a else a) := by
  -- the elements in front of the loop's position are already written, the others are not
  have key : ∀ (suf pre : List α),
      (suf.zipIdx pre.length).foldlM
          (fun (l' : List α) (x : α × ℕ) => if p x.1 then update l' x.2 f else some l')
          (pre ++ suf) =
        some (pre ++ suf.map fun a => if p a then f a else a) := by
    intro suf
    induction suf with
    | nil => intro pre; rfl
    | cons a suf ih =>
      intro pre
      have hstep : (if p a then update (pre ++ a :: suf) pre.length f else some (pre ++ a :: suf)) =
          some ((pre ++ [if p a then f a else a]) ++ suf) := by
        split_ifs
        · rw [update_append]; simp
        · simp
      rw [List.zipIdx_cons, List.foldlM_cons, hstep]
      have := ih (pre ++ [if p a then f a else a])
      rw [List.length_append, List.length_singleton] at this
      simpa using this
  exact key l []

/-- **The invariant rule for a loop over an array with its indices** that may trap: if every turn
    passes and keeps the invariant, the loop passes and keeps it. -/
theorem foldlM_zipIdx {σ : Type*} {P : ℕ → σ → Prop} {f : σ → α × ℕ → Option σ} {l : List α}
    (hstep : ∀ i a s, l[i]? = some a → P i s → ∃ s', f s (a, i) = some s' ∧ P (i + 1) s')
    {s : σ} (hs : P 0 s) : ∃ s', l.zipIdx.foldlM f s = some s' ∧ P l.length s' := by
  -- the rule for what is left of the loop after the elements of `pre`
  have key : ∀ (suf pre : List α) (s : σ), l = pre ++ suf → P pre.length s →
      ∃ s', (suf.zipIdx pre.length).foldlM f s = some s' ∧ P l.length s' := by
    intro suf
    induction suf with
    | nil =>
      rintro pre s rfl hs
      exact ⟨s, rfl, by simpa using hs⟩
    | cons a suf ih =>
      rintro pre s rfl hs
      obtain ⟨s₁, hf, hs₁⟩ := hstep pre.length a s (by simp) hs
      have := ih (pre ++ [a]) s₁ (by simp) (by simpa using hs₁)
      rw [List.zipIdx_cons, List.foldlM_cons, hf]
      simpa using this
  exact key l [] s rfl hs

/-- The invariant rule for a loop over an array with its indices. -/
theorem foldl_zipIdx {σ : Type*} {P : ℕ → σ → Prop} {f : σ → α × ℕ → σ} {l : List α}
    (hstep : ∀ i a s, l[i]? = some a → P i s → P (i + 1) (f s (a, i))) {s : σ} (hs : P 0 s) :
    P l.length (l.zipIdx.foldl f s) := by
  obtain ⟨s', hs', hP⟩ := foldlM_zipIdx (f := fun s x => some (f s x))
    (fun i a s ha hP => ⟨_, rfl, hstep i a s ha hP⟩) hs
  have hpure : l.zipIdx.foldlM (fun s x => some (f s x)) s = some (l.zipIdx.foldl f s) :=
    List.foldlM_pure
  rwa [Option.some.inj (hpure.symm.trans hs')]

end Loops
