/-
  The entities of the app: `Hero`, its stored form `RLMHero`, and `RoleFilter`.

  Swift compares, hashes and orders strings by the scalars of their canonical form; a `String` here
  is that form.  `Int` fields are only copied and compared, so they are integers without a bound.
  `baseArmor` is only copied, so it is the bit pattern of the single-precision number.
-/
import Mathlib.Data.List.Basic

namespace HeroQ

/-- `Hero.swift` -/
structure Hero where
  id : Int
  localizedName : String
  attackType : String
  roles : List String
  baseAttackMin : Int
  baseAttackMax : Int
  baseArmor : UInt32
  moveSpeed : Int
  baseHealth : Int
  baseMana : Int
  primaryAttr : String
  img : String
  deriving DecidableEq, Repr

/-- `RoleFilter.swift` -/
structure RoleFilter where
  id : Int
  name : String
  isSelected : Bool
  deriving DecidableEq, Repr

/-- `RLMHero.swift`, with the defaults of a fresh object. -/
structure RLMHero where
  id : Int := -1
  localizedName : Option String := none
  attackType : Option String := none
  roles : List String := []
  baseAttackMin : Int := -1
  baseAttackMax : Int := -1
  baseArmor : UInt32 := 0
  moveSpeed : Int := -1
  baseHealth : Int := -1
  baseMana : Int := -1
  primaryAttr : Option String := none
  img : Option String := none
  deriving DecidableEq, Repr

/-- `RLMHero.init(_:)`: the fields are assigned one by one to a fresh object, the roles appended
    one by one. -/
def RLMHero.init (hero : Hero) : RLMHero :=
  let fresh : RLMHero := {}
  { fresh with
    id := hero.id
    localizedName := some hero.localizedName
    attackType := some hero.attackType
    roles := hero.roles.foldl (fun roles role => roles ++ [role]) fresh.roles
    baseAttackMin := hero.baseAttackMin
    baseAttackMax := hero.baseAttackMax
    baseArmor := hero.baseArmor
    moveSpeed := hero.moveSpeed
    baseHealth := hero.baseHealth
    baseMana := hero.baseMana
    primaryAttr := some hero.primaryAttr
    img := some hero.img }

/-! ## Heroes of the tests -/

/-- `stubHero` of `HeroListPresenterTests` -/
def antiMage : Hero where
  id := 1
  localizedName := "Anti-Mage"
  attackType := "Melee"
  roles := ["Carry", "Escape", "Nuker"]
  baseAttackMin := 29
  baseAttackMax := 33
  baseArmor := 0xBF800000
  moveSpeed := 310
  baseHealth := 200
  baseMana := 75
  primaryAttr := "agi"
  img := "/apps/dota2/images/heroes/antimage_full.png?"

/-- `hero2` of `HeroListRouterTests` -/
def bloodseeker : Hero where
  id := 4
  localizedName := "Bloodseeker"
  attackType := "Melee"
  roles := ["Carry", "Disabler", "Jungler", "Nuker", "Initiator"]
  baseAttackMin := 33
  baseAttackMax := 39
  baseArmor := 0x40000000
  moveSpeed := 300
  baseHealth := 200
  baseMana := 75
  primaryAttr := "agi"
  img := "/apps/dota2/images/heroes/bloodseeker_full.png?"

/-- `hero1` of `HeroListRouterTests` -/
def juggernaut : Hero where
  id := 8
  localizedName := "Juggernaut"
  attackType := "Melee"
  roles := ["Carry", "Pusher", "Escape"]
  baseAttackMin := 16
  baseAttackMax := 20
  baseArmor := 0
  moveSpeed := 305
  baseHealth := 200
  baseMana := 75
  primaryAttr := "agi"
  img := "/apps/dota2/images/heroes/juggernaut_full.png?"

end HeroQ
