/-
  `HeroListInteractor`: the list of heroes, its filters and its refresh.
-/
import HeroQ.RealmHelper
import HeroQ.HeroService
import HeroQ.FilterInteractor
import HeroQ.Unique
import HeroQ.Lib.Sorter
import HeroQ.Lib.Numeral
import Mathlib.Data.String.Basic

namespace HeroQ

/-- The variables of `HeroListInteractor`; its relays are their values. -/
structure HeroListInteractor where
  isFetching : Bool := false
  error : Option String := none
  obsHeroes : List Hero := []
  masterHeroes : List Hero := []
  obsActiveFilters : List RoleFilter := []
  deriving DecidableEq, Repr

/-- What `fetchHeroes` starts outside the interactor: a request of `HeroService`, or the alert that
    there is no connection. -/
inductive FetchEffect where
  | request
  | noInternetAlert
  deriving DecidableEq, Repr

namespace HeroListInteractor

variable (S : Sorter)

/-- `hasError` -/
def hasError (i : HeroListInteractor) : Bool := i.error.isSome

/-- `getFetchingState()`: what drives the activity indicator. -/
def getFetchingState (i : HeroListInteractor) : Bool := i.isFetching

/-- `getErrorState()`: whether the label with the error is visible. -/
def getErrorState (i : HeroListInteractor) : Bool := hasError i

/-- `_getLocalHeroes` -/
def getLocalHeroes (io : RealmIO) (realm : RealmStore) (i : HeroListInteractor) :
    HeroListInteractor :=
  let heroes := RealmHelper.getHeroes io realm
  if heroes.length > 0 then { i with obsHeroes := heroes } else i

/-- `fetchHeroes` -/
def fetchHeroes (io : RealmIO) (realm : RealmStore) (isConnectedToInternet : Bool)
    (i : HeroListInteractor) : HeroListInteractor × FetchEffect :=
  let i := getLocalHeroes io realm i
  if isConnectedToInternet then (i, .request) else (i, .noInternetAlert)

/-- The `successHandler` of `fetchHeroes`: the interactor and the store after it. -/
def successHandler (io : RealmIO) (realm : RealmStore) (response : List Hero)
    (i : HeroListInteractor) : HeroListInteractor × RealmStore :=
  let i := { i with isFetching := false }
  let i := { i with obsHeroes := response }
  let i := { i with masterHeroes := i.obsHeroes }
  (i, RealmHelper.saveHeroes io i.obsHeroes realm)

/-- The `errorHandler` of `fetchHeroes`, on the localized description of the error. -/
def errorHandler (localizedDescription : String) (i : HeroListInteractor) : HeroListInteractor :=
  let i := { i with isFetching := false }
  { i with error := some localizedDescription }

/-- `getSimilarHeroes(_:)` -/
def getSimilarHeroes (i : HeroListInteractor) (hero : Hero) : List Hero :=
  let arrHeroes := i.obsHeroes.filter fun h =>
    decide (h.id ≠ hero.id) && decide (h.primaryAttr = hero.primaryAttr)
  let arrHeroes := hero.roles.foldl
    (fun arrHeroes role => arrHeroes.filter fun h => h.roles.contains role) arrHeroes
  let arrHeroes :=
    if hero.primaryAttr = "agi" then S.sort (Sorter.byKey (· > ·) Hero.moveSpeed) arrHeroes
    else if hero.primaryAttr = "str" then
      S.sort (Sorter.byKey (· > ·) Hero.baseAttackMax) arrHeroes
    else S.sort (Sorter.byKey (· > ·) Hero.baseMana) arrHeroes
  if arrHeroes.length > 3 then arrHeroes.take 3 else arrHeroes

/-- The filters that `getRoles` collects from the master list: the All entry, then one for each
    role of each hero, with the hero's position from one and the role's position as its id. -/
def roleFilters (masterHeroes : List Hero) : List RoleFilter :=
  let allFilter : RoleFilter := ⟨0, "All", false⟩
  masterHeroes.zipIdx.foldl (fun filters (hero, indexA) =>
      let roles : List String := [] ++ hero.roles
      roles.zipIdx.foldl (fun filters (role, indexB) =>
          let indexStr := s!"{indexA + 1}{indexB}"
          filters ++ [⟨(Numeral.intOfString indexStr).getD (-1), role, false⟩]) filters)
    [allFilter]

/-- The inner loop of `getRoles` over the active filters: the entries with the name of
    `activeFilter` get its flag. -/
def applyActive (filters : List RoleFilter) (activeFilter : RoleFilter) :
    Option (List RoleFilter) :=
  filters.zipIdx.foldlM (fun filters' (filter, index) =>
    if filter.name = activeFilter.name then setSelected filters' index activeFilter.isSelected
    else some filters') filters

/-- `getRoles()` -/
def getRoles (i : HeroListInteractor) : Option (List RoleFilter) :=
  let filters := unique RoleFilter.name (roleFilters i.masterHeroes)
  let filters := S.sort (Sorter.byKey (· < ·) RoleFilter.name) filters
  if i.obsActiveFilters.length > 0 then i.obsActiveFilters.foldlM applyActive filters
  else setSelected filters 0 true

/-- The heroes with each of the roles in turn, without repetitions. -/
def anyRole (filters : List RoleFilter) (masterHeroes : List Hero) : List Hero :=
  let result := filters.foldl (fun result role =>
    result ++ masterHeroes.filter fun h => h.roles.contains role.name) []
  unique Hero.id result

/-- `filterHeroes(_:)` -/
def filterHeroes (filters : List RoleFilter) (i : HeroListInteractor) : HeroListInteractor :=
  let i :=
    if filters.length > 0 then
      match filters.head? with
      | some all =>
        if all.id = 0 ∧ all.isSelected then { i with obsHeroes := i.masterHeroes }
        else { i with obsHeroes := anyRole filters i.masterHeroes }
      | none => { i with obsHeroes := anyRole filters i.masterHeroes }
    else i
  { i with obsActiveFilters := filters }

end HeroListInteractor

end HeroQ
