/-
  First occurrences by key, and any-of selections.

  * `firstOcc key l` keeps of `l` the first element with each key, in order.
  * `anyOf key ms l` selects from `l` by several tests: one pass over `l` for each test, the passes
    one after another, and of these the first occurrences.  If the keys of `l` are distinct this is
    the selection of the elements that pass some test (`anyOf_perm`), ordered by the first test
    they pass and then as in `l` (`anyOf_lex`), and it is `l` itself iff every element passes some
    test and `l` is already in that order (`anyOf_eq_self_iff`).
-/
import Mathlib.Data.List.Nodup
import Mathlib.Data.List.Perm.Basic

namespace FirstOcc

variable {α κ : Type*} [DecidableEq κ] (key : α → κ)

/-- Of the elements with equal keys, the first one. -/
def firstOcc : List α → List α
  | [] => []
  | a :: l => a :: (firstOcc l).filter fun b => key b ≠ key a

@[simp] theorem firstOcc_nil : firstOcc key [] = [] := rfl

theorem firstOcc_cons (a : α) (l : List α) :
    firstOcc key (a :: l) = a :: (firstOcc key l).filter fun b => key b ≠ key a := rfl

theorem firstOcc_sublist : ∀ l : List α, (firstOcc key l).Sublist l
  | [] => List.Sublist.refl _
  | a :: l => (List.filter_sublist.trans (firstOcc_sublist l)).cons_cons a

theorem nodup_firstOcc (l : List α) : ((firstOcc key l).map key).Nodup := by
  induction l with
  | nil => exact List.nodup_nil
  | cons a l ih =>
    rw [firstOcc_cons, List.map_cons, List.nodup_cons]
    refine ⟨fun h => ?_, ih.sublist (List.filter_sublist.map key)⟩
    obtain ⟨b, hb, hk⟩ := List.mem_map.1 h
    simp [hk] at hb

/-- **The first element with each key is kept**, also under a test that only reads keys. -/
theorem find?_firstOcc (k : κ) (l : List α) :
    (firstOcc key l).find? (fun a => key a = k) = l.find? fun a => key a = k := by
  induction l with
  | nil => rfl
  | cons a l ih =>
    rw [firstOcc_cons, List.find?_cons, List.find?_cons]
    by_cases h : key a = k
    · simp [h]
    · simp only [h, decide_false, ← ih, List.find?_filter]
      congr 1
      funext b
      by_cases hb : key b = k
      · simpa [hb] using Ne.symm h
      · simp [hb]

theorem mem_map_firstOcc {k : κ} {l : List α} :
    k ∈ (firstOcc key l).map key ↔ k ∈ l.map key := by
  have h := congrArg Option.isSome (find?_firstOcc key k l)
  rw [Bool.eq_iff_iff, List.find?_isSome, List.find?_isSome] at h
  simpa only [decide_eq_true_eq, List.mem_map] using h

/-- The elements kept are those that are the first with their key. -/
theorem mem_firstOcc_iff {l : List α} {a : α} :
    a ∈ firstOcc key l ↔ l.find? (fun b => key b = key a) = some a := by
  rw [← find?_firstOcc]
  constructor
  · intro h
    cases hfind : (firstOcc key l).find? (fun b => key b = key a) with
    | none => exact absurd (decide_eq_true rfl) (List.find?_eq_none.1 hfind a h)
    | some b =>
      have hkey : key b = key a := by simpa using List.find?_some hfind
      exact congrArg some
        (List.inj_on_of_nodup_map (nodup_firstOcc key l) (List.mem_of_find?_eq_some hfind) h hkey)
  · exact List.mem_of_find?_eq_some

theorem firstOcc_eq_self_iff {l : List α} : firstOcc key l = l ↔ (l.map key).Nodup := by
  refine ⟨fun h => h ▸ nodup_firstOcc key l, fun h => ?_⟩
  induction l with
  | nil => rfl
  | cons a l ih =>
    rw [List.map_cons, List.nodup_cons] at h
    rw [firstOcc_cons, ih h.2, List.filter_eq_self.2]
    intro b hb
    simpa using fun hk : key b = key a => h.1 (hk ▸ List.mem_map_of_mem hb)

theorem firstOcc_filter (p : κ → Bool) (l : List α) :
    firstOcc key (l.filter fun a => p (key a)) = (firstOcc key l).filter fun a => p (key a) := by
  induction l with
  | nil => rfl
  | cons a l ih =>
    by_cases h : p (key a)
    · simp only [List.filter_cons, h, if_true, firstOcc_cons, ih, List.filter_filter]
      congr 2
      funext b
      rw [Bool.and_comm]
    · simp only [List.filter_cons, h, Bool.false_eq_true, if_false, firstOcc_cons, ih,
        List.filter_filter]
      refine List.filter_congr fun b _ => ?_
      by_cases hb : key b = key a
      · simp [hb, h]
      · simp [hb]

theorem firstOcc_append (l l' : List α) :
    firstOcc key (l ++ l') =
      firstOcc key l ++ firstOcc key (l'.filter fun b => key b ∉ l.map key) := by
  induction l with
  | nil => simp
  | cons a l ih =>
    rw [List.cons_append, firstOcc_cons, ih, firstOcc_cons, List.filter_append, List.cons_append]
    congr 2
    rw [← firstOcc_filter key (fun k => k ≠ key a), List.filter_filter]
    congr 1
    refine List.filter_congr fun b _ => ?_
    simp only [List.map_cons, List.mem_cons, not_or, Bool.decide_and]

/-! ## Any-of selections -/

/-- The selection of `l` by the tests `ms`, one pass for each test, without repetitions. -/
def anyOf (ms : List (α → Bool)) (l : List α) : List α :=
  firstOcc key (ms.flatMap fun m => l.filter m)

/-- Tests that no element passes may be left out. -/
theorem anyOf_filter {ι : Type*} (m : ι → α → Bool) (p : ι → Bool) {is : List ι} {l : List α}
    (h : ∀ i ∈ is, p i = false → ∀ a ∈ l, m i a = false) :
    anyOf key ((is.filter p).map m) l = anyOf key (is.map m) l := by
  rw [anyOf, anyOf, List.flatMap_map, List.flatMap_map]
  congr 1
  induction is with
  | nil => rfl
  | cons i is ih =>
    have hrest := ih fun j hj => h j (List.mem_cons_of_mem i hj)
    cases hp : p i with
    | true =>
      rw [List.filter_cons_of_pos hp, List.flatMap_cons, List.flatMap_cons, hrest]
    | false =>
      have hnil : l.filter (m i) = [] :=
        List.filter_eq_nil_iff.2 fun a ha => by simp [h i List.mem_cons_self hp a ha]
      rw [List.filter_cons_of_neg (by simp [hp]), List.flatMap_cons, hnil, List.nil_append, hrest]

theorem mem_of_mem_anyOf {ms : List (α → Bool)} {l : List α} {a : α} (h : a ∈ anyOf key ms l) :
    a ∈ l ∧ ∃ m ∈ ms, m a := by
  obtain ⟨m, hm, ha⟩ := List.mem_flatMap.1 ((firstOcc_sublist key _).subset h)
  exact ⟨(List.mem_filter.1 ha).1, m, hm, (List.mem_filter.1 ha).2⟩

theorem nodup_anyOf (ms : List (α → Bool)) (l : List α) : ((anyOf key ms l).map key).Nodup :=
  nodup_firstOcc key _

/-- **The keys selected** are those of the elements that pass some test. -/
theorem mem_map_anyOf {ms : List (α → Bool)} {l : List α} {k : κ} :
    k ∈ (anyOf key ms l).map key ↔ ∃ a ∈ l, (∃ m ∈ ms, m a) ∧ key a = k := by
  rw [anyOf, mem_map_firstOcc, List.mem_map]
  constructor
  · rintro ⟨a, ha, hk⟩
    obtain ⟨m, hm, ha⟩ := List.mem_flatMap.1 ha
    exact ⟨a, (List.mem_filter.1 ha).1, ⟨m, hm, (List.mem_filter.1 ha).2⟩, hk⟩
  · rintro ⟨a, ha, ⟨m, hm, hma⟩, hk⟩
    exact ⟨a, List.mem_flatMap.2 ⟨m, hm, List.mem_filter.2 ⟨ha, hma⟩⟩, hk⟩

/-- The key of every element that passes some test is selected. -/
theorem key_mem_anyOf {ms : List (α → Bool)} {l : List α} {a : α} (ha : a ∈ l)
    (h : ∃ m ∈ ms, m a) : key a ∈ (anyOf key ms l).map key :=
  (mem_map_anyOf key).2 ⟨a, ha, h, rfl⟩

@[simp] theorem anyOf_nil (l : List α) : anyOf key [] l = [] := rfl

section
variable {key}

/-- With distinct keys, the elements selected by the first test come first and the later tests
    select from the others. -/
theorem anyOf_cons (m : α → Bool) (ms : List (α → Bool)) {l : List α} (hl : (l.map key).Nodup) :
    anyOf key (m :: ms) l = l.filter m ++ anyOf key ms (l.filter fun a => !m a) := by
  have hself : firstOcc key (l.filter m) = l.filter m :=
    (firstOcc_eq_self_iff key).2 (hl.sublist (List.filter_sublist.map key))
  have hkey : ∀ a ∈ l, decide (key a ∉ (l.filter m).map key) = !m a := by
    intro a ha
    rw [Bool.eq_iff_iff, decide_eq_true_eq, Bool.not_eq_true', ← Bool.not_eq_true, not_iff_not,
      List.mem_map]
    refine ⟨?_, fun h => ⟨a, List.mem_filter.2 ⟨ha, h⟩, rfl⟩⟩
    rintro ⟨b, hb, hk⟩
    obtain ⟨hbl, hmb⟩ := List.mem_filter.1 hb
    rwa [← List.inj_on_of_nodup_map hl hbl ha hk]
  unfold anyOf
  rw [List.flatMap_cons, firstOcc_append, hself, List.filter_flatMap]
  congr 3
  funext m'
  rw [List.filter_filter, List.filter_filter]
  refine List.filter_congr fun a ha => ?_
  rw [hkey a ha, Bool.and_comm]

/-- **With distinct keys, a selection is the elements that pass some test**, up to order. -/
theorem anyOf_perm (ms : List (α → Bool)) : ∀ {l : List α}, (l.map key).Nodup →
    (anyOf key ms l).Perm (l.filter fun a => ms.any fun m => m a) := by
  induction ms with
  | nil => intro l _; simp
  | cons m ms ih =>
    intro l hl
    have hl' : ((l.filter fun a => !m a).map key).Nodup :=
      hl.sublist (List.filter_sublist.map key)
    rw [anyOf_cons m ms hl]
    refine ((ih hl').append_left _).trans ?_
    -- the selected elements of `l`, split by `m`
    refine List.Perm.trans (List.Perm.of_eq ?_) (List.filter_append_perm m _)
    rw [List.filter_filter, List.filter_filter, List.filter_filter]
    congr 1
    · refine List.filter_congr fun a _ => ?_
      cases h : m a <;> simp [h]
    · refine List.filter_congr fun a _ => ?_
      cases h : m a <;> simp [h]

theorem mem_anyOf {ms : List (α → Bool)} {l : List α} (hl : (l.map key).Nodup) {a : α} :
    a ∈ anyOf key ms l ↔ a ∈ l ∧ ∃ m ∈ ms, m a := by
  rw [(anyOf_perm ms hl).mem_iff, List.mem_filter, List.any_eq_true]

/-- The position of the first test that `a` passes. -/
def rank (ms : List (α → Bool)) (a : α) : ℕ := ms.findIdx fun m => m a

theorem rank_cons_pos {m : α → Bool} {ms : List (α → Bool)} {a : α} (h : m a) :
    rank (m :: ms) a = 0 := by
  simp [rank, List.findIdx_cons, h]

theorem rank_cons_neg {m : α → Bool} {ms : List (α → Bool)} {a : α} (h : m a = false) :
    rank (m :: ms) a = rank ms a + 1 := by
  simp [rank, List.findIdx_cons, h]

/-- **With distinct keys, a selection is ordered by the first test passed**, and elements with the
    same first test keep their order. -/
theorem anyOf_lex {R : α → α → Prop} (ms : List (α → Bool)) : ∀ {l : List α}, (l.map key).Nodup →
    l.Pairwise R → (anyOf key ms l).Pairwise fun a b =>
      rank ms a < rank ms b ∨ rank ms a = rank ms b ∧ R a b := by
  induction ms with
  | nil => intro l _ _; exact List.Pairwise.nil
  | cons m ms ih =>
    intro l hl hR
    have hl' : ((l.filter fun a => !m a).map key).Nodup :=
      hl.sublist (List.filter_sublist.map key)
    have hlate : ∀ b ∈ anyOf key ms (l.filter fun a => !m a), rank (m :: ms) b = rank ms b + 1 := by
      intro b hb
      refine rank_cons_neg ?_
      simpa using (List.mem_filter.1 (mem_of_mem_anyOf key hb).1).2
    have hfirst : ∀ a ∈ l.filter m, rank (m :: ms) a = 0 :=
      fun a ha => rank_cons_pos (List.mem_filter.1 ha).2
    rw [anyOf_cons m ms hl, List.pairwise_append]
    refine ⟨?_, ?_, ?_⟩
    · refine (hR.sublist List.filter_sublist).imp_of_mem fun {a b} ha hb hab => ?_
      rw [hfirst a ha, hfirst b hb]
      exact Or.inr ⟨rfl, hab⟩
    · refine (ih hl' (hR.sublist List.filter_sublist)).imp_of_mem fun {a b} ha hb hab => ?_
      rw [hlate a ha, hlate b hb]
      exact hab.imp Nat.succ_lt_succ fun h => ⟨congrArg Nat.succ h.1, h.2⟩
    · intro a ha b hb
      rw [hfirst a ha, hlate b hb]
      exact Or.inl (Nat.succ_pos _)

theorem anyOf_sorted (ms : List (α → Bool)) {l : List α} (hl : (l.map key).Nodup) :
    (anyOf key ms l).Pairwise fun a b => rank ms a ≤ rank ms b := by
  have htrue : l.Pairwise fun _ _ => True := List.pairwise_of_forall fun _ _ => trivial
  refine (anyOf_lex ms hl htrue).imp fun {a b} h => ?_
  rcases h with h | ⟨h, -⟩
  · exact Nat.le_of_lt h
  · exact Nat.le_of_eq h

/-- A list ordered by the first test passed starts with the elements that pass the first test. -/
theorem filter_append_of_sorted {m : α → Bool} {ms : List (α → Bool)} {l : List α}
    (h : l.Pairwise fun a b => rank (m :: ms) a ≤ rank (m :: ms) b) :
    l.filter m ++ l.filter (fun a => !m a) = l := by
  induction l with
  | nil => rfl
  | cons a l ih =>
    rw [List.pairwise_cons] at h
    by_cases ha : m a
    · simp only [List.filter_cons, ha, if_true, Bool.not_true, Bool.false_eq_true, if_false,
        List.cons_append, ih h.2]
    · rw [Bool.not_eq_true] at ha
      have hl : ∀ b ∈ l, m b = false := by
        intro b hb
        by_contra hmb
        have := h.1 b hb
        rw [rank_cons_neg ha, rank_cons_pos (by simpa using hmb)] at this
        omega
      have h₁ : l.filter m = [] := List.filter_eq_nil_iff.2 fun b hb => by simp [hl b hb]
      have h₂ : l.filter (fun a => !m a) = l := List.filter_eq_self.2 fun b hb => by simp [hl b hb]
      simp [ha, h₁, h₂]

/-- **A selection is the whole list** iff every element passes some test and the list is ordered
    by the first test passed. -/
theorem anyOf_eq_self_iff {ms : List (α → Bool)} : ∀ {l : List α}, (l.map key).Nodup →
    (anyOf key ms l = l ↔
      (∀ a ∈ l, ∃ m ∈ ms, m a) ∧ l.Pairwise fun a b => rank ms a ≤ rank ms b) := by
  intro l hl
  constructor
  · intro h
    exact ⟨fun a ha => (mem_of_mem_anyOf key (h.symm ▸ ha)).2, h ▸ anyOf_sorted ms hl⟩
  · rintro ⟨hall, hsort⟩
    induction ms generalizing l with
    | nil =>
      have hnil : l = [] := List.eq_nil_iff_forall_not_mem.2 fun a ha => by simpa using hall a ha
      rw [hnil]; rfl
    | cons m ms ih =>
      have hneg : ∀ a ∈ l.filter (fun a => !m a), m a = false := fun a ha => by
        simpa using (List.mem_filter.1 ha).2
      have hrest : anyOf key ms (l.filter fun a => !m a) = l.filter fun a => !m a := by
        refine ih (hl.sublist (List.filter_sublist.map key)) (fun a ha => ?_) ?_
        · obtain ⟨m', hm', hma⟩ := hall a (List.mem_filter.1 ha).1
          rcases List.mem_cons.1 hm' with rfl | hm'
          · rw [hneg a ha] at hma; cases hma
          · exact ⟨m', hm', hma⟩
        · refine (hsort.sublist List.filter_sublist).imp_of_mem fun {a b} ha hb hab => ?_
          rw [rank_cons_neg (hneg a ha), rank_cons_neg (hneg b hb)] at hab
          exact Nat.le_of_succ_le_succ hab
      rw [anyOf_cons m ms hl, hrest, filter_append_of_sorted hsort]

end

end FirstOcc
