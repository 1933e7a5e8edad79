/-
  `RealmHelper`: the local cache of heroes.

  Realm is a third-party store.  It is taken to keep every added object, with its property values,
  until it is deleted (nothing in the app deletes), to return objects in insertion order, and to
  make each write transaction all-or-nothing; so the store is the list of the objects added.
  Opening the store may throw, and so may any write (`RealmIO`).
-/
import HeroQ.Entities
import HeroQ.Lib.Loops
import Mathlib.Data.List.Induction

namespace HeroQ

/-- The objects of type `RLMHero` in the store, in insertion order. -/
abbrev RealmStore := List RLMHero

/-- How Realm answers during one call: whether `Realm(configuration:)` succeeds, and the position
    in the loop of the `realm.write` that throws, if any does. -/
structure RealmIO where
  opens : Bool
  throwsAt : Option ℕ
  deriving DecidableEq, Repr

/-- Realm answers without errors. -/
def RealmIO.ok : RealmIO := ⟨true, none⟩

namespace RealmHelper

/-- The loop of `saveHeroes`, from position `i` on: one write transaction for each hero.  A write
    that throws leaves the loop and adds nothing. -/
def saveLoop (throwsAt : Option ℕ) : ℕ → List Hero → RealmStore → RealmStore
  | _, [], realm => realm
  | i, hero :: heroes, realm =>
    if throwsAt = some i then realm
    else saveLoop throwsAt (i + 1) heroes (realm ++ [RLMHero.init hero])

/-- `saveHeroes`: the error is caught and printed. -/
def saveHeroes (io : RealmIO) (heroes : List Hero) (realm : RealmStore) : RealmStore :=
  if io.opens then saveLoop io.throwsAt 0 heroes realm else realm

/-- `_setHero` -/
def setHero (rlmHero : RLMHero) : Hero where
  id := rlmHero.id
  localizedName := rlmHero.localizedName.getD ""
  attackType := rlmHero.attackType.getD ""
  roles := rlmHero.roles.foldl (fun roles role => roles ++ [role]) []
  baseAttackMin := rlmHero.baseAttackMin
  baseAttackMax := rlmHero.baseAttackMax
  baseArmor := rlmHero.baseArmor
  moveSpeed := rlmHero.moveSpeed
  baseHealth := rlmHero.baseHealth
  baseMana := rlmHero.baseMana
  primaryAttr := rlmHero.primaryAttr.getD ""
  img := rlmHero.img.getD ""

/-- `getHeroes`: empty if the store cannot be opened. -/
def getHeroes (io : RealmIO) (realm : RealmStore) : List Hero :=
  if io.opens then realm.foldl (fun heroes rlmHero => heroes ++ [setHero rlmHero]) [] else []

/-! ## What the cache returns -/

/-- **Reading a stored hero undoes storing it.** -/
@[simp] theorem setHero_init (hero : Hero) : setHero (RLMHero.init hero) = hero := by
  cases hero
  simp only [setHero, RLMHero.init, Loops.foldl_concat, List.nil_append, List.map_id',
    Option.getD_some]

/-- The heroes of a batch that are written: those before the first write that throws. -/
def written (io : RealmIO) (heroes : List Hero) : List Hero :=
  if io.opens then
    match io.throwsAt with
    | none => heroes
    | some n => heroes.take n
  else []

theorem saveLoop_none (heroes : List Hero) : ∀ (i : ℕ) (realm : RealmStore),
    saveLoop none i heroes realm = realm ++ heroes.map RLMHero.init := by
  induction heroes with
  | nil => intro i realm; exact (List.append_nil realm).symm
  | cons hero heroes ih =>
    intro i realm
    rw [saveLoop, if_neg (by simp), ih, List.append_assoc]
    rfl

/-- A write that throws ends the loop, and what was written before it stays. -/
theorem saveLoop_throws (heroes : List Hero) : ∀ (n i : ℕ) (realm : RealmStore),
    saveLoop (some (i + n)) i heroes realm = realm ++ (heroes.take n).map RLMHero.init := by
  induction heroes with
  | nil => intro n i realm; simp [saveLoop]
  | cons hero heroes ih =>
    intro n i realm
    cases n with
    | zero => simp [saveLoop]
    | succ n =>
      have hlater : some (i + (n + 1)) ≠ some i := by simp
      have hshift : i + (n + 1) = (i + 1) + n := by omega
      rw [saveLoop, if_neg hlater, hshift, ih, List.append_assoc]
      rfl

/-- **Saving appends the heroes that are written.** -/
theorem saveHeroes_eq (io : RealmIO) (heroes : List Hero) (realm : RealmStore) :
    saveHeroes io heroes realm = realm ++ (written io heroes).map RLMHero.init := by
  unfold saveHeroes written
  split_ifs
  · cases hthrow : io.throwsAt with
    | none => exact saveLoop_none heroes 0 realm
    | some n => simpa using saveLoop_throws heroes n 0 realm
  · exact (List.append_nil realm).symm

/-- The heroes that are written are an initial part of the batch. -/
theorem written_prefix (io : RealmIO) (heroes : List Hero) : written io heroes <+: heroes := by
  unfold written
  split
  · split
    · exact List.prefix_refl heroes
    · exact List.take_prefix _ heroes
  · exact List.nil_prefix

/-- The store opens, and no write of the batch throws. -/
def NoWriteFails (io : RealmIO) (heroes : List Hero) : Prop :=
  io.opens = true ∧ ∀ n, io.throwsAt = some n → heroes.length ≤ n

theorem noWriteFails_ok (heroes : List Hero) : NoWriteFails .ok heroes :=
  ⟨rfl, fun _ h => nomatch h⟩

theorem written_eq_self {io : RealmIO} {heroes : List Hero} (h : NoWriteFails io heroes) :
    written io heroes = heroes := by
  obtain ⟨hopens, hthrow⟩ := h
  rw [written, if_pos hopens]
  cases hn : io.throwsAt with
  | none => rfl
  | some n => exact List.take_of_length_le (hthrow n hn)

theorem getHeroes_closed {io : RealmIO} (h : io.opens = false) (realm : RealmStore) :
    getHeroes io realm = [] := by
  simp [getHeroes, h]

theorem getHeroes_open {io : RealmIO} (h : io.opens = true) (realm : RealmStore) :
    getHeroes io realm = realm.map setHero := by
  rw [getHeroes, if_pos h, Loops.foldl_concat, List.nil_append]

theorem getHeroes_subset (io : RealmIO) (realm : RealmStore) :
    getHeroes io realm ⊆ realm.map setHero := by
  cases h : io.opens
  · rw [getHeroes_closed h]; exact List.nil_subset _
  · rw [getHeroes_open h]; exact List.Subset.refl _

/-- What is read of a saved batch is the batch. -/
@[simp] theorem map_setHero_init (heroes : List Hero) :
    (heroes.map RLMHero.init).map setHero = heroes := by
  simp [Function.comp_def]

/-- What is read after a save: what was there before, then the heroes that were written. -/
theorem getHeroes_saveHeroes {io' : RealmIO} (h : io'.opens = true) (io : RealmIO)
    (heroes : List Hero) (realm : RealmStore) :
    getHeroes io' (saveHeroes io heroes realm) = getHeroes io' realm ++ written io heroes := by
  rw [getHeroes_open h, getHeroes_open h, saveHeroes_eq, List.map_append, map_setHero_init]

/-! ## A write that throws -/

/-- **Saving stops at the first write that throws**: the heroes before it are stored and the others
    are not, so the store is as it was iff the first write throws. -/
theorem saving_stops_at_throw (realm : RealmStore) {heroes : List Hero} {n : ℕ}
    (hn : n < heroes.length) :
    let stored := saveHeroes ⟨true, some n⟩ heroes realm
    stored = realm ++ (heroes.take n).map RLMHero.init ∧
      (∀ io : RealmIO, io.opens = true →
        getHeroes io stored = getHeroes io realm ++ heroes.take n) ∧
      (stored = realm ↔ n = 0) := by
  intro stored
  have hstored : stored = realm ++ (heroes.take n).map RLMHero.init := saveHeroes_eq _ _ _
  refine ⟨hstored, fun io hio => getHeroes_saveHeroes hio _ _ _, ?_⟩
  have hne : heroes ≠ [] := List.ne_nil_of_length_pos (by omega)
  rw [hstored, List.append_right_eq_self, List.map_eq_nil_iff, List.take_eq_nil_iff]
  exact or_iff_left hne

theorem saving_stops_at_throw_bloodseeker :
    saveHeroes ⟨true, some 1⟩ [antiMage, bloodseeker] [] = [RLMHero.init antiMage] :=
  (saving_stops_at_throw [] (by decide)).1

/-- The write of the second of two heroes throws, and the first one stays in the store. -/
theorem throw_keeps_part :
    let stored := saveHeroes ⟨true, some 1⟩ [antiMage, bloodseeker] []
    getHeroes .ok stored = [antiMage] ∧ stored ≠ [] := by
  decide

/-! ## Reading undoes writing -/

/-- **Reading the cache undoes writing it**: after any saves into an empty store of which no write
    fails, the heroes read are those saved, batch after batch. -/
theorem reading_undoes_writing (saves : List (List Hero × RealmIO))
    (hsaves : ∀ save ∈ saves, NoWriteFails save.2 save.1) {io : RealmIO} (hio : io.opens = true) :
    getHeroes io (saves.foldl (fun realm save => saveHeroes save.2 save.1 realm) []) =
      (saves.map Prod.fst).flatten := by
  induction saves using List.reverseRecOn with
  | nil => exact getHeroes_open hio []
  | append_singleton saves save ih =>
    have hbefore := ih fun save' h => hsaves save' (List.mem_append_left _ h)
    have hlast : NoWriteFails save.2 save.1 := hsaves save (by simp)
    rw [List.foldl_append, List.foldl_cons, List.foldl_nil, getHeroes_saveHeroes hio, hbefore,
      written_eq_self hlast]
    simp

theorem reading_undoes_writing_antiMage :
    getHeroes .ok (saveHeroes .ok [bloodseeker] (saveHeroes .ok [antiMage, juggernaut] [])) =
      [antiMage, juggernaut, bloodseeker] :=
  reading_undoes_writing [([antiMage, juggernaut], .ok), ([bloodseeker], .ok)]
    (by simp [noWriteFails_ok]) rfl

end RealmHelper

end HeroQ
