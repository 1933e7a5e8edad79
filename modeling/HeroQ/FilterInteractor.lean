/-
  The filter screen: `FilterInteractor` and the Save button of `FilterViewController`.

  The state of the interactor is the value of its relay `obsRoles`.  An array index that is out of
  bounds traps, and a trap ends the process (`none`).
-/
import HeroQ.Entities
import HeroQ.Lib.Loops

namespace HeroQ

/-- A filter with its flag set. -/
def RoleFilter.select (isSelected : Bool) (role : RoleFilter) : RoleFilter :=
  { role with isSelected := isSelected }

@[simp] theorem RoleFilter.select_id (b : Bool) (f : RoleFilter) : (f.select b).id = f.id := rfl
@[simp] theorem RoleFilter.select_name (b : Bool) (f : RoleFilter) : (f.select b).name = f.name := rfl
@[simp] theorem RoleFilter.select_isSelected (b : Bool) (f : RoleFilter) :
    (f.select b).isSelected = b := rfl

/-- `roles[index].isSelected = isSelected` -/
def setSelected (roles : List RoleFilter) (index : Int) (isSelected : Bool) :
    Option (List RoleFilter) :=
  Loops.update roles index (RoleFilter.select isSelected)

namespace FilterInteractor

/-- `if let all = roles.first, all.isSelected { roles[0].isSelected = false }` -/
def clearAll (roles : List RoleFilter) : Option (List RoleFilter) :=
  match roles.head? with
  | some all => if all.isSelected then setSelected roles 0 false else some roles
  | none => some roles

/-- The promotion to All: entry 0 is selected if the selected entries are one fewer than the
    entries. -/
def promoteAll (roles : List RoleFilter) : Option (List RoleFilter) :=
  let count := (roles.filter fun role => role.isSelected).length
  if (count : Int) = (roles.length : Int) - 1 then setSelected roles 0 true else some roles

/-- `didRoleButtonTapped(index:isSelected:)` on the value of `obsRoles` -/
def didRoleButtonTapped (obsRoles : List RoleFilter) (index : Int) (isSelected : Bool) :
    Option (List RoleFilter) :=
  if (obsRoles.length : Int) > index then
    if index = 0 then
      obsRoles.zipIdx.foldlM (fun roles (_, idx) => setSelected roles idx isSelected) obsRoles
    else do
      let roles ← setSelected obsRoles index isSelected
      let roles ← clearAll roles
      promoteAll roles
  else some obsRoles

/-- `getSelectedFilters()` -/
def getSelectedFilters (obsRoles : List RoleFilter) : List RoleFilter :=
  match obsRoles.head? with
  | none => []
  | some all =>
    if all.isSelected then [all]
    else obsRoles.foldl (fun filters role =>
      if role.isSelected then filters ++ [role] else filters) []

/-- A tap on the button of the row `t.1`, whose new state is `t.2` (`ButtonCollectionViewCell`). -/
def tap (obsRoles : List RoleFilter) (t : ℕ × Bool) : Option (List RoleFilter) :=
  didRoleButtonTapped obsRoles t.1 t.2

end FilterInteractor

/-- `_saveButtonTapped` of `FilterViewController`: the filters passed to the delegate, or `none` if
    the alert is shown because nothing is selected. -/
def FilterViewController.saveButtonTapped (obsRoles : List RoleFilter) :
    Option (List RoleFilter) :=
  let selectedFilters := FilterInteractor.getSelectedFilters obsRoles
  if selectedFilters.length > 0 then some selectedFilters else none

end HeroQ
