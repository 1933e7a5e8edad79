/-
  The sections of an adapter: `IGListSectionMap`, and how `IGListAdapter` updates it.

  An object keeps the section controller of the object with its identifier and its class.  For a new
  one the data source is asked, and an object that it returns no section controller for is left out.

  * `updateObjects_eq`: with distinct identifiers, and a data source that makes a section controller
    whenever it is asked, no assertion fails, and every object has a section of its own.
-/
import HeroQ.ListUpdates

namespace HeroQ

/-- `IGListSectionMap`: the objects with their section controllers, section by section; and how
    often the data source has been asked for a section controller. -/
structure IGListSectionMap (α γ : Type) where
  sections : List (α × γ) := []
  asked : ℕ := 0
  deriving DecidableEq

namespace IGListSectionMap

section
variable {α κ β γ : Type} [DecidableEq κ] (P : UpdaterParams α κ β γ)

/-- `objects` -/
def objects (map : IGListSectionMap α γ) : List α := map.sections.map Prod.fst

/-- `IGListIsEqual` -/
def isEqual (left right : α) : Bool :=
  P.sameClass left right && P.diffable.diffIdentifier left == P.diffable.diffIdentifier right

/-- `sectionControllerForObject:`; of equal objects, the last is in the map table. -/
def sectionControllerForObject (map : IGListSectionMap α γ) (object : α) : Option γ :=
  (map.sections.reverse.find? fun entry => isEqual P entry.1 object).map Prod.snd

/-- The loop of `_updateObjects:dataSource:`, which looks objects up in `map`. -/
def updateObject (map s : IGListSectionMap α γ) (object : α) : IGListSectionMap α γ :=
  match map.sectionControllerForObject P object with
  | some sectionController => { s with sections := s.sections ++ [(object, sectionController)] }
  | none =>
    match P.sectionControllerForObject s.asked object with
    | some sectionController =>
      { sections := s.sections ++ [(object, sectionController)], asked := s.asked + 1 }
    | none => { s with asked := s.asked + 1 }

variable [DecidableEq γ]

/-- `_updateObjects:dataSource:`, which asserts that every object equals itself and that no section
    controller is used twice. -/
def updateObjects (objects : List α) (map : IGListSectionMap α γ) :
    Option (IGListSectionMap α γ) :=
  if ∀ object ∈ objects, P.diffable.isEqualToDiffableObject object object = true then
    let map' := objects.foldl (updateObject P map) { asked := map.asked }
    if (map'.sections.map Prod.snd).Nodup then some map' else none
  else none

end

end IGListSectionMap

open IGListSectionMap

section
variable {α κ β γ : Type} {P : UpdaterParams α κ β γ} {map : IGListSectionMap α γ}

/-- The sections have different controllers, and the data source has made them. -/
structure SectionMapSound (P : UpdaterParams α κ β γ) (map : IGListSectionMap α γ) : Prop where
  nodup : (map.sections.map Prod.snd).Nodup
  made : ∀ {o c}, (o, c) ∈ map.sections →
    ∃ asked < map.asked, ∃ object, P.sectionControllerForObject asked object = some c

theorem sectionMapSound_empty : SectionMapSound P {} where
  nodup := List.nodup_nil
  made h := absurd h List.not_mem_nil

variable [DecidableEq κ]

/-- A section controller is looked up at an object with the same identifier. -/
theorem sectionControllerForObject_eq_some {object : α} {c : γ}
    (h : map.sectionControllerForObject P object = some c) :
    ∃ o, (o, c) ∈ map.sections ∧
      P.diffable.diffIdentifier o = P.diffable.diffIdentifier object := by
  obtain ⟨⟨o, c⟩, hfind, rfl⟩ := Option.map_eq_some_iff.1 h
  have hequal := List.find?_some hfind
  simp only [isEqual, Bool.and_eq_true, beq_iff_eq] at hequal
  exact ⟨o, List.mem_reverse.1 (List.mem_of_find?_eq_some hfind), hequal.2⟩

/-- The sections made of the objects seen so far. -/
structure SectionsMade (P : UpdaterParams α κ β γ) (map : IGListSectionMap α γ) (objects : List α)
    (s : IGListSectionMap α γ) : Prop where
  objects : s.objects = objects
  nodup : (s.sections.map Prod.snd).Nodup
  asked : map.asked ≤ s.asked
  /-- a section controller is that of the object in `map`, or new -/
  origin : ∀ {o c}, (o, c) ∈ s.sections → map.sectionControllerForObject P o = some c ∨
    ∃ asked, (map.asked ≤ asked ∧ asked < s.asked) ∧
      ∃ object, P.sectionControllerForObject asked object = some c

/-- A section is added. -/
theorem SectionsMade.append {objects : List α} {s : IGListSectionMap α γ}
    (h : SectionsMade P map objects s) {object : α} {c : γ} {asked : ℕ}
    (hc : c ∉ s.sections.map Prod.snd) (hasked : s.asked ≤ asked)
    (horigin : map.sectionControllerForObject P object = some c ∨
      ∃ asked', (map.asked ≤ asked' ∧ asked' < asked) ∧
        ∃ object, P.sectionControllerForObject asked' object = some c) :
    SectionsMade P map (objects ++ [object])
      { sections := s.sections ++ [(object, c)], asked := asked } := by
  refine ⟨?_, ?_, h.asked.trans hasked, fun {o' c'} hmem => ?_⟩
  · rw [IGListSectionMap.objects, List.map_append, List.map_singleton]
    exact congrArg (· ++ [object]) h.objects
  · rw [List.map_append, List.map_singleton]
    exact h.nodup.append (List.nodup_singleton c) (List.disjoint_singleton.2 hc)
  · rcases List.mem_append.1 hmem with hmem | hmem
    · refine (h.origin hmem).imp_right ?_
      rintro ⟨asked', hasked', hask⟩
      exact ⟨asked', ⟨hasked'.1, hasked'.2.trans_le hasked⟩, hask⟩
    · obtain ⟨rfl, rfl⟩ := Prod.mk.inj (List.mem_singleton.1 hmem)
      exact horigin

/-- An object with a new identifier gets a section. -/
theorem SectionsMade.updateObject (hP : P.Wf) (hmap : SectionMapSound P map) {objects : List α}
    {s : IGListSectionMap α γ} (h : SectionsMade P map objects s) {object : α}
    (hnew : P.diffable.diffIdentifier object ∉ objects.map P.diffable.diffIdentifier) :
    SectionsMade P map (objects ++ [object]) (updateObject P map s object) := by
  cases hold : map.sectionControllerForObject P object with
  | some c =>
    obtain ⟨o, hmem, hkey⟩ := sectionControllerForObject_eq_some hold
    simp only [IGListSectionMap.updateObject, hold]
    refine h.append (fun hc => ?_) le_rfl (Or.inl hold)
    obtain ⟨⟨o', c⟩, hmem', rfl⟩ := List.mem_map.1 hc
    rcases h.origin hmem' with hsame | ⟨asked, hasked, _, hask⟩
    · -- two objects with one section controller in the map have one identifier
      obtain ⟨o₁, hmem₁, hkey₁⟩ := sectionControllerForObject_eq_some hsame
      obtain rfl : o₁ = o := congrArg Prod.fst (List.inj_on_of_nodup_map hmap.nodup hmem₁ hmem rfl)
      refine hnew (List.mem_map.2 ⟨o', ?_, hkey₁.symm.trans hkey⟩)
      rw [← h.objects]
      exact List.mem_map_of_mem hmem'
    · obtain ⟨asked', hasked', _, hask'⟩ := hmap.made hmem
      have := hP.new hask hask'
      omega
  | none =>
    obtain ⟨c, hask⟩ := Option.isSome_iff_exists.1 (hP.returned s.asked object)
    simp only [IGListSectionMap.updateObject, hold, hask]
    refine h.append (fun hc => ?_) (Nat.le_succ _)
      (Or.inr ⟨s.asked, ⟨h.asked, Nat.lt_succ_self _⟩, object, hask⟩)
    -- all section controllers so far come from calls before this one
    obtain ⟨⟨o', c⟩, hmem', rfl⟩ := List.mem_map.1 hc
    rcases h.origin hmem' with hsame | ⟨asked, hasked, _, hask'⟩
    · obtain ⟨o₁, hmem₁, _⟩ := sectionControllerForObject_eq_some hsame
      obtain ⟨asked, hasked, _, hask'⟩ := hmap.made hmem₁
      have := hP.new hask hask'
      have := h.asked
      omega
    · have := hP.new hask hask'
      omega

theorem sectionsMade_foldl (hP : P.Wf) (hmap : SectionMapSound P map) {objects : List α}
    (hnodup : (objects.map P.diffable.diffIdentifier).Nodup) :
    SectionsMade P map objects
      (objects.foldl (IGListSectionMap.updateObject P map) { asked := map.asked }) := by
  induction objects using List.reverseRecOn with
  | nil => exact ⟨rfl, List.nodup_nil, le_refl _, fun h => absurd h List.not_mem_nil⟩
  | append_singleton objects object ih =>
    rw [List.map_append, List.map_singleton, List.nodup_append] at hnodup
    rw [List.foldl_append]
    refine (ih hnodup.1).updateObject hP hmap fun hmem => ?_
    exact hnodup.2.2 _ hmem _ (List.mem_singleton_self _) rfl

/-- **Every object gets a section.** -/
theorem updateObjects_eq [DecidableEq γ] (hP : P.Wf) (hmap : SectionMapSound P map)
    {objects : List α} (hnodup : (objects.map P.diffable.diffIdentifier).Nodup) :
    ∃ map', map.updateObjects P objects = some map' ∧ map'.objects = objects ∧
      SectionMapSound P map' := by
  have hmade := sectionsMade_foldl hP hmap hnodup
  refine ⟨_, ?_, hmade.objects, hmade.nodup, fun {o c} hmem => ?_⟩
  · rw [updateObjects, if_pos fun object _ => hP.reflexive object]
    exact if_pos hmade.nodup
  · rcases hmade.origin hmem with hold | ⟨asked, hasked, hask⟩
    · obtain ⟨_, hmem', _⟩ := sectionControllerForObject_eq_some hold
      obtain ⟨asked, hasked, hask⟩ := hmap.made hmem'
      exact ⟨asked, hasked.trans_le hmade.asked, hask⟩
    · exact ⟨asked, hasked.2, hask⟩

end

end HeroQ
