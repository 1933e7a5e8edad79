/-
  The app as a state machine.

  `App` is the interactor of the hero list, the stored heroes, the filter screen while it is open,
  and the requests in flight.  `step` is one event on the main queue.  The completion handlers of
  the requests run there one at a time, in any order; each request completes at most once.  A
  launch keeps the store and nothing else.
-/
import HeroQ.HeroListInteractor
import HeroQ.Lib.Runs

namespace HeroQ

/-- What the app uses of Swift's library and of Foundation: the sort of arrays, and
    `localizedDescription` of an error. -/
structure Platform extends Sorter where
  localizedDescription : HeroError → String

/-- Insertion sort, and one text for all errors. -/
def Platform.insertion : Platform where
  toSorter := Sorter.insertion
  localizedDescription _ := "The operation couldn't be completed."

/-- The state of the app. -/
structure App where
  interactor : HeroListInteractor := {}
  realm : RealmStore := []
  /-- `obsRoles` of the filter screen, while it is presented -/
  screen : Option (List RoleFilter) := none
  /-- the requests in flight since the launch, and the number of requests issued -/
  requests : List ℕ := []
  issued : ℕ := 0
  deriving DecidableEq, Repr

/-- The events of the main queue. -/
inductive Event where
  | launch
  /-- the first load, the refresh button, or Try Again -/
  | fetchHeroes (io : RealmIO) (isConnectedToInternet : Bool)
  /-- the completion handler of a request -/
  | complete (request : ℕ) (result : TaskResult) (io : RealmIO)
  | filterButtonTapped
  | roleButtonTapped (row : ℕ) (isSelected : Bool)
  | saveButtonTapped
  | closeButtonTapped
  deriving DecidableEq, Repr

namespace App

variable (P : Platform)

/-- The app at a launch, with the heroes stored by earlier launches. -/
def launched (realm : RealmStore) : App := { realm := realm }

/-- The app at its first launch after the installation. -/
def installed : App := launched []

/-- The refresh of the list, or what the first load and Try Again do. -/
def fetchHeroes (io : RealmIO) (isConnectedToInternet : Bool) (s : App) : App :=
  match s.interactor.fetchHeroes io s.realm isConnectedToInternet with
  | (i, .request) =>
    { s with interactor := i, requests := s.requests ++ [s.issued], issued := s.issued + 1 }
  | (i, .noInternetAlert) => { s with interactor := i }

/-- The completion handler of a request, on the main queue. -/
def complete (request : ℕ) (result : TaskResult) (io : RealmIO) (s : App) : App :=
  let s := { s with requests := s.requests.erase request }
  match HeroService.completion result with
  | .ok response =>
    let (i, realm) := s.interactor.successHandler io s.realm response
    { s with interactor := i, realm := realm }
  | .error error =>
    { s with interactor := s.interactor.errorHandler (P.localizedDescription error) }

/-- The Save button of the filter screen: the alert, or the filters handed to the list and the
    screen dismissed. -/
def saveButtonTapped (obsRoles : List RoleFilter) (s : App) : App :=
  match FilterViewController.saveButtonTapped obsRoles with
  | some filters => { s with interactor := s.interactor.filterHeroes filters, screen := none }
  | none => s

/-- One event on the main queue.  The buttons of the filter screen are there only while it is
    presented, and the filter button only while it is not; a trap ends the process. -/
def step (s : App) : Event → Option App
  | .launch => some (launched s.realm)
  | .fetchHeroes io isConnectedToInternet => some (s.fetchHeroes io isConnectedToInternet)
  | .complete request result io =>
    if request ∈ s.requests then some (s.complete P request result io) else none
  | .filterButtonTapped =>
    match s.screen with
    | none => (s.interactor.getRoles P.toSorter).map fun roles => { s with screen := some roles }
    | some _ => none
  | .roleButtonTapped row isSelected =>
    match s.screen with
    | some roles =>
      (FilterInteractor.didRoleButtonTapped roles row isSelected).map fun roles =>
        { s with screen := some roles }
    | none => none
  | .saveButtonTapped => s.screen.map fun roles => s.saveButtonTapped roles
  | .closeButtonTapped => s.screen.map fun _ => { s with screen := none }

end App

end HeroQ
