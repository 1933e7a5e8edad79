/-
  Pairing the items of two lists, occurrence by occurrence.

  The `c`-th item equal to `k` of one list is paired with the `c`-th item equal to `k` of the other
  (`counterpart`); what one list has more often than the other stays unpaired.

  * `counterpart_comm`: the pairing is symmetric, so a partial bijection;
  * `counterpart_of_nodup`: in lists without repetitions it pairs the equal items.
-/
import Mathlib.Data.List.Basic

namespace Occurrences

variable {κ : Type*} [DecidableEq κ]

/-- The place of the `c`-th item equal to `k`, in a list whose places are counted from `s`. -/
theorem getElem?_idxsOf (k : κ) (l : List κ) : ∀ (s c j : ℕ),
    (l.idxsOf k s)[c]? = some (s + j) ↔ l[j]? = some k ∧ (l.take j).count k = c := by
  induction l with
  | nil => intro s c j; simp
  | cons a l ih =>
    intro s c j
    have hlt : ∀ c, (l.idxsOf k (s + 1))[c]? ≠ some s := fun c hc =>
      absurd (List.ge_of_mem_idxsOf s (List.mem_of_getElem? hc)) (by omega)
    by_cases ha : a = k
    · rw [List.idxsOf_cons, if_pos (by simpa using ha)]
      rcases c with _ | c <;> rcases j with _ | j
      · simp [ha]
      · simp [ha]
      · simp [ha, hlt]
      · have := ih (s + 1) c j
        rw [show s + 1 + j = s + (j + 1) by omega] at this
        simpa [ha] using this
    · rw [List.idxsOf_cons, if_neg (by simpa using ha)]
      rcases j with _ | j
      · simpa [ha] using hlt c
      · have := ih (s + 1) c j
        rw [show s + 1 + j = s + (j + 1) by omega] at this
        simpa [ha] using this

/-- Where the item at the place `i` of `new` comes from in `old`: items that are equal are paired in
    their order. -/
def counterpart (old new : List κ) (i : ℕ) : Option ℕ :=
  (new[i]?).bind fun k => (old.idxsOf k)[(new.take i).count k]?

/-- Paired items are equal, and as many like them stand before the one as before the other. -/
theorem counterpart_eq_some {old new : List κ} {i j : ℕ} :
    counterpart old new i = some j ↔
      ∃ k, new[i]? = some k ∧ old[j]? = some k ∧ (old.take j).count k = (new.take i).count k := by
  rw [counterpart, Option.bind_eq_some_iff]
  refine exists_congr fun k => and_congr_right fun _ => ?_
  simpa using getElem?_idxsOf k old 0 ((new.take i).count k) j

/-- **The pairing is symmetric.** -/
theorem counterpart_comm {old new : List κ} {i j : ℕ} :
    counterpart old new i = some j ↔ counterpart new old j = some i := by
  rw [counterpart_eq_some, counterpart_eq_some]
  refine exists_congr fun k => ?_
  constructor
  · rintro ⟨hn, ho, hc⟩
    exact ⟨ho, hn, hc.symm⟩
  · rintro ⟨ho, hn, hc⟩
    exact ⟨hn, ho, hc.symm⟩

theorem counterpart_inj {old new : List κ} {i i' j : ℕ} (h : counterpart old new i = some j)
    (h' : counterpart old new i' = some j) : i = i' := by
  rw [counterpart_comm] at h h'
  exact Option.some.inj (h.symm.trans h')

theorem counterpart_lt {old new : List κ} {i j : ℕ} (h : counterpart old new i = some j) :
    i < new.length ∧ j < old.length := by
  obtain ⟨k, hn, ho, _⟩ := counterpart_eq_some.1 h
  exact ⟨(List.getElem?_eq_some_iff.1 hn).1, (List.getElem?_eq_some_iff.1 ho).1⟩

theorem count_take_of_nodup {l : List κ} (hl : l.Nodup) {i : ℕ} {k : κ} (hk : l[i]? = some k) :
    (l.take i).count k = 0 := by
  obtain ⟨hi, rfl⟩ := List.getElem?_eq_some_iff.1 hk
  rw [List.count_eq_zero, List.mem_take_iff_getElem]
  rintro ⟨i', hi', h⟩
  have := (List.getElem_inj hl).1 h
  omega

/-- In lists without repetitions the equal items are paired. -/
theorem counterpart_of_nodup {old new : List κ} (ho : old.Nodup) (hn : new.Nodup) {i j : ℕ} :
    counterpart old new i = some j ↔ ∃ k, new[i]? = some k ∧ old[j]? = some k := by
  rw [counterpart_eq_some]
  refine exists_congr fun k => and_congr_right fun hi => ⟨And.left, fun hj => ⟨hj, ?_⟩⟩
  rw [count_take_of_nodup ho hj, count_take_of_nodup hn hi]

end Occurrences
