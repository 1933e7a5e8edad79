/-
  The ids of the filters.

  `getRoles` numbers a role by the position of the first hero with it, counted from one, and the
  index of the role in the list of that hero (`firstAt`), written one after the other without a
  separator.  The ids are distinct iff no two of these numerals can be regrouped into each other and
  at most one of the numbers has more than 63 bits (`filter_ids_iff`).
-/
import HeroQ.Roles

namespace HeroQ

open HeroListInteractor

variable {S : Sorter}

/-- Where a role comes first: the position of the hero, from one, and the index of the role. -/
def firstAt (masterHeroes : List Hero) (role : String) : ℕ × ℕ :=
  let indexA := masterHeroes.findIdx fun hero => hero.roles.contains role
  (indexA + 1, (masterHeroes[indexA]?.map fun hero => hero.roles.idxOf role).getD 0)

/-- The number whose numeral is that of the position followed by that of the index. -/
def number (x : ℕ × ℕ) : ℕ := Numeral.concat x.1 x.2

/-- `Int(indexStr) ?? -1` -/
def idAt (x : ℕ × ℕ) : Int := (Numeral.intOfString s!"{x.1}{x.2}").getD (-1)

/-- Two ids coincide iff the numbers do, or both are out of range and replaced by -1. -/
theorem idAt_eq_iff {x y : ℕ × ℕ} :
    idAt x = idAt y ↔ number x = number y ∨ (2 ^ 63 ≤ number x ∧ 2 ^ 63 ≤ number y) := by
  unfold idAt number
  rw [Numeral.intOfString_concat, Numeral.intOfString_concat]
  split_ifs with hx hy hy
  · simp only [Option.getD_some]
    omega
  · simp only [Option.getD_some, Option.getD_none]
    omega
  · simp only [Option.getD_some, Option.getD_none]
    omega
  · exact iff_of_true rfl (Or.inr ⟨not_lt.1 hx, not_lt.1 hy⟩)

/-! ## The id of an entry -/

/-- The first filter of a hero with the name of a role. -/
theorem find?_heroFilters (role : String) (x : Hero × ℕ) :
    (heroFilters x).find? (fun f => f.name = role) =
      if x.1.roles.contains role then some ⟨idAt (x.2 + 1, x.1.roles.idxOf role), role, false⟩
      else none := by
  have hsearch : (x.1.roles.zipIdx.find? fun y => decide (y.1 = role)) =
      (x.1.roles.find? fun role' => decide (role' = role)).map fun role' =>
        (role', 0 + x.1.roles.findIdx fun role' => decide (role' = role)) :=
    Loops.find?_zipIdx (fun role' => decide (role' = role)) x.1.roles 0
  have hidx : (x.1.roles.findIdx fun role' => decide (role' = role)) = x.1.roles.idxOf role := by
    simp only [List.idxOf, beq_eq_decide]
  rw [heroFilters, List.find?_map]
  simp only [Function.comp_def, hsearch, hidx, Nat.zero_add]
  cases hfind : x.1.roles.find? fun role' => decide (role' = role) with
  | none =>
    rw [if_neg]
    · rfl
    · intro hmem
      exact List.find?_eq_none.1 hfind role (by simpa using hmem) (decide_eq_true rfl)
  | some role' =>
    obtain rfl : role' = role := by simpa using List.find?_some hfind
    rw [if_pos (by simpa using List.mem_of_find?_eq_some hfind)]
    rfl

/-- The place where a role comes first is that of the first hero with it. -/
theorem firstAt_eq {masterHeroes : List Hero} {role : String}
    (hhero : ∃ hero ∈ masterHeroes, role ∈ hero.roles) :
    ∃ k hero, masterHeroes[k]? = some hero ∧ role ∈ hero.roles ∧
      masterHeroes.zipIdx.find? (fun x => x.1.roles.contains role) = some (hero, k) ∧
      firstAt masterHeroes role = (k + 1, hero.roles.idxOf role) := by
  have hsearch := Loops.find?_zipIdx (fun hero : Hero => hero.roles.contains role) masterHeroes 0
  obtain ⟨hero, hfind⟩ : ∃ hero, masterHeroes.find? (fun hero => hero.roles.contains role) =
      some hero := by
    obtain ⟨hero, hmem, hin⟩ := hhero
    exact Option.isSome_iff_exists.1 (List.find?_isSome.2 ⟨hero, hmem, by simpa using hin⟩)
  have hat : masterHeroes[masterHeroes.findIdx fun hero => hero.roles.contains role]? =
      some hero := List.find?_eq_getElem?_findIdx.symm.trans hfind
  refine ⟨_, hero, hat, by simpa using List.find?_some hfind, ?_, ?_⟩
  · rw [hsearch, hfind, Nat.zero_add]
    rfl
  · rw [firstAt, hat]
    rfl

theorem find?_roleFilters {masterHeroes : List Hero} {role : String} (hrole : role ≠ "All")
    (hhero : ∃ hero ∈ masterHeroes, role ∈ hero.roles) :
    (roleFilters masterHeroes).find? (fun f => f.name = role) =
      some ⟨idAt (firstAt masterHeroes role), role, false⟩ := by
  obtain ⟨k, hero, -, -, hsearch, hfirst⟩ := firstAt_eq hhero
  rw [roleFilters_eq, List.find?_cons_of_neg (by simp [allFilter, hrole.symm]),
    List.find?_flatMap, hfirst]
  simp only [find?_heroFilters]
  rw [Loops.findSome?_ite (fun x : Hero × ℕ => x.1.roles.contains role), hsearch]
  rfl

/-- **The id of an entry** is the number of the place where its role comes first. -/
theorem id_offered {masterHeroes : List Hero} {f : RoleFilter} (hf : f ∈ offered S masterHeroes)
    (hname : f.name ≠ "All") : f.id = idAt (firstAt masterHeroes f.name) := by
  have hhero := role_of_mem_offered hf hname
  rw [offered, S.mem_sort, unique_eq_firstOcc, FirstOcc.mem_firstOcc_iff,
    find?_roleFilters hname hhero] at hf
  exact congrArg RoleFilter.id (Option.some.inj hf).symm

/-! ## Distinct ids -/

/-- A role of the master list that has an entry of its own. -/
def IsRole (masterHeroes : List Hero) (role : String) : Prop :=
  role ≠ "All" ∧ ∃ hero ∈ masterHeroes, role ∈ hero.roles

/-- Different roles come first at different places. -/
theorem firstAt_inj {masterHeroes : List Hero} {role role' : String}
    (hrole : IsRole masterHeroes role) (hrole' : IsRole masterHeroes role')
    (h : firstAt masterHeroes role = firstAt masterHeroes role') : role = role' := by
  obtain ⟨k, hero, hat, hin, -, hfirst⟩ := firstAt_eq hrole.2
  obtain ⟨k', hero', hat', hin', -, hfirst'⟩ := firstAt_eq hrole'.2
  rw [hfirst, hfirst', Prod.mk.injEq, Nat.add_left_inj] at h
  obtain ⟨rfl, hidx⟩ := h
  obtain rfl : hero = hero' := Option.some.inj (hat.symm.trans hat')
  exact (List.idxOf_inj hin).1 hidx

/-- The numbers of the roles keep apart: for two roles, the numeral of the one's place does not
    regroup as that of the other's, and at most one of the numbers is out of range. -/
def NumbersApart (masterHeroes : List Hero) : Prop :=
  ∀ role role', IsRole masterHeroes role → IsRole masterHeroes role' → role ≠ role' →
    ¬ Numeral.Regroups (firstAt masterHeroes role).1 (firstAt masterHeroes role).2
        (firstAt masterHeroes role').1 (firstAt masterHeroes role').2 ∧
      ¬ (2 ^ 63 ≤ number (firstAt masterHeroes role) ∧
        2 ^ 63 ≤ number (firstAt masterHeroes role'))

/-- The numbers keep apart iff different roles have different ids. -/
theorem numbersApart_iff {masterHeroes : List Hero} :
    NumbersApart masterHeroes ↔ ∀ role role', IsRole masterHeroes role →
      IsRole masterHeroes role' → role ≠ role' →
      idAt (firstAt masterHeroes role) ≠ idAt (firstAt masterHeroes role') := by
  constructor
  · intro h role role' hrole hrole' hne heq
    rcases idAt_eq_iff.1 heq with hnum | hbig
    · rcases Numeral.concat_eq_iff.1 hnum with ⟨h₁, h₂⟩ | hreg | hreg
      · exact hne (firstAt_inj hrole hrole' (Prod.ext h₁ h₂))
      · exact (h role role' hrole hrole' hne).1 hreg
      · exact (h role' role hrole' hrole hne.symm).1 hreg
    · exact (h role role' hrole hrole' hne).2 hbig
  · intro h role role' hrole hrole' hne
    refine ⟨fun hreg => ?_, fun hbig => ?_⟩
    · exact h role role' hrole hrole' hne
        (idAt_eq_iff.2 (Or.inl (Numeral.concat_eq_iff.2 (Or.inr (Or.inl hreg)))))
    · exact h role role' hrole hrole' hne (idAt_eq_iff.2 (Or.inr hbig))

theorem nodup_ids_offered_iff {masterHeroes : List Hero} :
    ((offered S masterHeroes).map RoleFilter.id).Nodup ↔ NumbersApart masterHeroes := by
  have hnames := nodup_map_name_offered (S := S) masterHeroes
  rw [List.nodup_map_iff_inj_on hnames.of_map, numbersApart_iff]
  constructor
  · rintro h role role' ⟨hrole, hhero⟩ ⟨hrole', hhero'⟩ hne heq
    obtain ⟨f, hf, rfl⟩ := List.mem_map.1 (mem_map_name_offered (S := S).2 (Or.inr hhero))
    obtain ⟨g, hg, rfl⟩ := List.mem_map.1 (mem_map_name_offered (S := S).2 (Or.inr hhero'))
    rw [← id_offered hf hrole, ← id_offered hg hrole'] at heq
    exact hne (congrArg RoleFilter.name (h f hf g hg heq))
  · intro h f hf g hg heq
    refine List.inj_on_of_nodup_map hnames hf hg ?_
    rcases mem_offered hf with rfl | ⟨hfname, hfid, -⟩ <;>
      rcases mem_offered hg with rfl | ⟨hgname, hgid, -⟩
    · rfl
    · exact absurd heq.symm hgid
    · exact absurd heq hfid
    · -- two entries with different names have ids of different roles
      by_contra hne
      rw [id_offered hf hfname, id_offered hg hgname] at heq
      exact h f.name g.name ⟨hfname, role_of_mem_offered hf hfname⟩
        ⟨hgname, role_of_mem_offered hg hgname⟩ hne heq

/-- **The ids identify the filters** iff the numbers of the roles keep apart. -/
theorem filter_ids_iff (S : Sorter) (i : HeroListInteractor) :
    ∃ roles, getRoles S i = some roles ∧
      ((roles.map RoleFilter.id).Nodup ↔ NumbersApart i.masterHeroes) := by
  obtain ⟨roles, hroles, hent⟩ := getRoles_entries S i
  have hids : roles.map RoleFilter.id = (offered S i.masterHeroes).map RoleFilter.id := by
    have hfst := congrArg (List.map Prod.fst) hent
    rwa [List.map_map, List.map_map] at hfst
  exact ⟨roles, hroles, hids ▸ nodup_ids_offered_iff⟩

/-- The eleventh role of the first hero and the first role of the eleventh hero are both numbered
    110. -/
theorem support_and_tank_coincide :
    let hero (id : Int) (roles : List String) : Hero := { antiMage with id := id, roles := roles }
    let masterHeroes := [hero 1 ["Carry", "Disabler", "Durable", "Escape", "Ganker", "Initiator",
        "Jungler", "Nuker", "Pusher", "Roamer", "Support"], hero 2 [], hero 3 [], hero 4 [],
      hero 5 [], hero 6 [], hero 7 [], hero 8 [], hero 9 [], hero 10 [], hero 11 ["Tank"]]
    ∃ roles, getRoles Sorter.insertion { masterHeroes := masterHeroes } = some roles ∧
      ⟨110, "Support", false⟩ ∈ roles ∧ ⟨110, "Tank", false⟩ ∈ roles ∧
      ¬ (roles.map RoleFilter.id).Nodup := by
  refine ⟨_, rfl, ?_⟩
  decide

/-- Lists of at most ten roles never get that far, if there are not too many heroes. -/
theorem numbersApart_of_short {masterHeroes : List Hero}
    (hroles : ∀ hero ∈ masterHeroes, hero.roles.length ≤ 10)
    (hheroes : masterHeroes.length < 10 ^ 17) : NumbersApart masterHeroes := by
  have hplace : ∀ role, IsRole masterHeroes role →
      (firstAt masterHeroes role).1 ≤ 10 ^ 17 ∧ (firstAt masterHeroes role).2 < 10 := by
    rintro role ⟨-, hhero⟩
    obtain ⟨k, hero, hat, hin, -, hfirst⟩ := firstAt_eq hhero
    obtain ⟨hk, -⟩ := List.getElem?_eq_some_iff.1 hat
    rw [hfirst]
    refine ⟨by omega, ?_⟩
    exact (List.idxOf_lt_length_of_mem hin).trans_le (hroles hero (List.mem_of_getElem? hat))
  have hconcat : ∀ a b, b < 10 → Numeral.concat a b = a * 10 + b := by
    intro a b hb
    rw [Numeral.concat, Nat.toDigits_of_lt_base hb]
    rfl
  intro role role' hrole hrole' _
  obtain ⟨hpos, hidx⟩ := hplace role hrole
  obtain ⟨-, hidx'⟩ := hplace role' hrole'
  refine ⟨?_, ?_⟩
  · rintro ⟨q, hq, -, heq⟩
    rw [hconcat q _ hidx'] at heq
    omega
  · rintro ⟨hbig, -⟩
    rw [number, hconcat _ _ hidx] at hbig
    omega

end HeroQ
