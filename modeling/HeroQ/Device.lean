/-
  The app with its data tasks and the main queue.

  `HeroService.fetchHeroes` starts a data task outside the main queue.  When the task ends, its
  completion handler dispatches the success or the error handler to the main queue, which runs what
  was dispatched in that order, in between the events of the user.  `App` has neither: there the
  handler of any request in flight may run next.  The theorems say that this is all the same to the
  app (`device_refines_app`), and what the queue adds: no request is lost or handled twice
  (`requests_accounted`), the handlers run in the order in which the tasks end
  (`handlers_in_order`), and all requests can always be handled (`requests_drain`).
-/
import HeroQ.Transitions
import HeroQ.Roles
import HeroQ.Lib.Traces

namespace HeroQ

open HeroListInteractor

/-! ## Reachability -/

/-- What the app looks at of `SCNetworkReachabilityFlags`. -/
structure ReachabilityFlags where
  reachable : Bool
  isWWAN : Bool
  connectionRequired : Bool
  connectionOnDemand : Bool
  connectionOnTraffic : Bool
  interventionRequired : Bool
  deriving DecidableEq, Repr

/-- `NetworkManager.ReachabilityStatus` -/
inductive ReachabilityStatus where
  | notReachable
  | reachableViaWWAN
  | reachableViaWiFi
  deriving DecidableEq, Repr

namespace NetworkManager

/-- `_currentReachabilityStatus`, on what the system answers: nil if the reachability of the default
    route cannot be created, and no flags if `SCNetworkReachabilityGetFlags` fails. -/
def currentReachabilityStatus (defaultRouteReachability : Option (Option ReachabilityFlags)) :
    ReachabilityStatus :=
  match defaultRouteReachability with
  | none => .notReachable
  | some none => .notReachable
  | some (some flags) =>
    if flags.reachable = false then .notReachable
    else if flags.isWWAN = true then .reachableViaWWAN
    else if flags.connectionRequired = false then .reachableViaWiFi
    else if (flags.connectionOnDemand = true ∨ flags.connectionOnTraffic = true) ∧
        flags.interventionRequired = false then .reachableViaWiFi
    else .notReachable

/-- `isConnectedToInternet()` -/
def isConnectedToInternet (defaultRouteReachability : Option (Option ReachabilityFlags)) : Bool :=
  decide (currentReachabilityStatus defaultRouteReachability ≠ .notReachable)

/-- The default route of a device with the given connection. -/
def route (isConnected : Bool) : Option (Option ReachabilityFlags) :=
  some (some ⟨isConnected, false, false, false, false, false⟩)

@[simp] theorem isConnectedToInternet_route (isConnected : Bool) :
    isConnectedToInternet (route isConnected) = isConnected := by
  cases isConnected <;> rfl

end NetworkManager

/-! ## The device -/

/-- The address that `fetchHeroes` of the service asks. -/
def HeroService.endpoint : String := HeroService.baseAPIURL ++ "/api/herostats"

/-- The app, the data tasks that run, and the handlers dispatched to the main queue: each with the
    heroes or the error it is called with. -/
structure Device where
  app : App
  tasks : List ℕ := []
  mainQueue : List (ℕ × Except HeroError (List Hero)) := []
  deriving DecidableEq

/-- The events of the filter screen. -/
def Event.ofFilterScreen : Event → Bool
  | .filterButtonTapped | .roleButtonTapped _ _ | .saveButtonTapped | .closeButtonTapped => true
  | _ => false

/-- The events of the device. -/
inductive DeviceEvent where
  | launch
  /-- the first load, the refresh button, or Try Again -/
  | fetchHeroes (io : RealmIO) (defaultRouteReachability : Option (Option ReachabilityFlags))
  /-- the completion handler of the data task, outside the main queue -/
  | taskEnds (request : ℕ) (result : TaskResult)
  /-- the main queue runs the handler that was dispatched first -/
  | mainRuns (request : ℕ) (outcome : Except HeroError (List Hero)) (io : RealmIO)
  | ofFilterScreen (event : Event)
  deriving DecidableEq

/-- The handler of a request, on what it is called with. -/
def App.handle (P : Platform) (request : ℕ) (outcome : Except HeroError (List Hero))
    (io : RealmIO) (s : App) : App :=
  let s := { s with requests := s.requests.erase request }
  match outcome with
  | .ok response =>
    let (i, realm) := s.interactor.successHandler io s.realm response
    { s with interactor := i, realm := realm }
  | .error error =>
    { s with interactor := s.interactor.errorHandler (P.localizedDescription error) }

namespace Device

/-- The device at a launch, with the heroes stored by earlier launches. -/
def launched (realm : RealmStore) : Device := { app := App.launched realm }

variable {URL : Type} (urlOfString : String → Option URL) (P : Platform)

/-- `fetchHeroes` of the service: a data task, or the error handler dispatched at once. -/
def startRequest (request : ℕ) (d : Device) : Device :=
  match urlOfString HeroService.endpoint with
  | none => { d with mainQueue := d.mainQueue ++ [(request, .error .invalidEndpoint)] }
  | some _ => { d with tasks := d.tasks ++ [request] }

/-- `fetchHeroes` of the interactor. -/
def fetchHeroes (io : RealmIO)
    (defaultRouteReachability : Option (Option ReachabilityFlags)) (d : Device) : Device :=
  let isConnectedToInternet := NetworkManager.isConnectedToInternet defaultRouteReachability
  let request := d.app.issued
  let d := { d with app := d.app.fetchHeroes io isConnectedToInternet }
  if isConnectedToInternet then d.startRequest urlOfString request else d

/-- One event.  A launch ends the process before it, with its tasks and its main queue. -/
def step (d : Device) : DeviceEvent → Option Device
  | .launch => some (launched d.app.realm)
  | .fetchHeroes io defaultRouteReachability =>
    some (d.fetchHeroes urlOfString io defaultRouteReachability)
  | .taskEnds request result =>
    if request ∈ d.tasks then
      some { d with
        tasks := d.tasks.erase request
        mainQueue := d.mainQueue ++ [(request, HeroService.completion result)] }
    else none
  | .mainRuns request outcome io =>
    match d.mainQueue with
    | [] => none
    | handler :: mainQueue =>
      if handler = (request, outcome) then
        some { d with app := d.app.handle P request outcome io, mainQueue := mainQueue }
      else none
  | .ofFilterScreen event =>
    if event.ofFilterScreen then
      (App.step P d.app event).map fun app => { d with app := app }
    else none

end Device

variable {URL : Type} {urlOfString : String → Option URL} {P : Platform}

/-! ## What one event does -/

theorem complete_eq_handle (request : ℕ) (result : TaskResult) (io : RealmIO) (s : App) :
    s.complete P request result io = s.handle P request (HeroService.completion result) io := rfl

/-- A handler takes its request off those in flight. -/
theorem handle_requests (request : ℕ) (outcome : Except HeroError (List Hero)) (io : RealmIO)
    (s : App) : (s.handle P request outcome io).requests = s.requests.erase request := by
  cases outcome <;> rfl

theorem handle_issued (request : ℕ) (outcome : Except HeroError (List Hero)) (io : RealmIO)
    (s : App) : (s.handle P request outcome io).issued = s.issued := by
  cases outcome <;> rfl

theorem handle_screen (request : ℕ) (outcome : Except HeroError (List Hero)) (io : RealmIO)
    (s : App) : (s.handle P request outcome io).screen = s.screen := by
  cases outcome <;> rfl

/-- What the filter screen leaves alone. -/
theorem ofFilterScreen_frame {s s' : App} {e : Event} (he : e.ofFilterScreen = true)
    (hstep : App.step P s e = some s') :
    s'.requests = s.requests ∧ s'.issued = s.issued ∧ s'.realm = s.realm := by
  cases step_transition hstep with
  | launch | request | noInternet => cases he
  | success _ _ | failure _ _ => cases he
  | opened _ _ | tapped _ _ | alerted _ _ | saved _ _ | closed _ => exact ⟨rfl, rfl, rfl⟩

/-- What the events do, from the device `d`. -/
inductive DeviceTransition (urlOfString : String → Option URL) (P : Platform) (d : Device) :
    DeviceEvent → Device → Prop
  | launch : DeviceTransition urlOfString P d .launch (Device.launched d.app.realm)
  | request {io route} (hroute : NetworkManager.isConnectedToInternet route = true)
      (hurl : (urlOfString HeroService.endpoint).isSome) :
      DeviceTransition urlOfString P d (.fetchHeroes io route)
        { d with app := d.app.fetchHeroes io true, tasks := d.tasks ++ [d.app.issued] }
  | invalidEndpoint {io route} (hroute : NetworkManager.isConnectedToInternet route = true)
      (hurl : urlOfString HeroService.endpoint = none) :
      DeviceTransition urlOfString P d (.fetchHeroes io route)
        { d with
          app := d.app.fetchHeroes io true
          mainQueue := d.mainQueue ++ [(d.app.issued, .error .invalidEndpoint)] }
  | noInternet {io route} (hroute : NetworkManager.isConnectedToInternet route = false) :
      DeviceTransition urlOfString P d (.fetchHeroes io route)
        { d with app := d.app.fetchHeroes io false }
  | taskEnds {request result} (hrequest : request ∈ d.tasks) :
      DeviceTransition urlOfString P d (.taskEnds request result)
        { d with
          tasks := d.tasks.erase request
          mainQueue := d.mainQueue ++ [(request, HeroService.completion result)] }
  | mainRuns {request outcome io mainQueue}
      (hqueue : d.mainQueue = (request, outcome) :: mainQueue) :
      DeviceTransition urlOfString P d (.mainRuns request outcome io)
        { d with app := d.app.handle P request outcome io, mainQueue := mainQueue }
  | ofFilterScreen {event app} (hevent : event.ofFilterScreen = true)
      (happ : App.step P d.app event = some app) :
      DeviceTransition urlOfString P d (.ofFilterScreen event) { d with app := app }

/-- **Every step of the device is a transition.** -/
theorem device_step_transition {d d' : Device} {e : DeviceEvent}
    (h : Device.step urlOfString P d e = some d') : DeviceTransition urlOfString P d e d' := by
  cases e with
  | launch =>
    cases h
    exact .launch
  | fetchHeroes io route =>
    cases h
    rw [Device.fetchHeroes]
    cases hroute : NetworkManager.isConnectedToInternet route with
    | false => exact .noInternet hroute
    | true =>
      simp only [Device.startRequest, if_true]
      cases hurl : urlOfString HeroService.endpoint with
      | none => exact .invalidEndpoint hroute hurl
      | some url => exact .request hroute (by rw [hurl]; rfl)
  | taskEnds request result =>
    rw [Device.step] at h
    split_ifs at h with hrequest
    cases h
    exact .taskEnds hrequest
  | mainRuns request outcome io =>
    rw [Device.step] at h
    split at h
    next => cases h
    next handler mainQueue hqueue =>
      split_ifs at h with hhandler
      cases h
      exact .mainRuns (hhandler ▸ hqueue)
  | ofFilterScreen event =>
    rw [Device.step] at h
    split_ifs at h with hevent
    obtain ⟨app, happ, rfl⟩ := Option.map_eq_some_iff.1 h
    exact .ofFilterScreen hevent happ

/-! ## The app of the device -/

/-- A result of the data task that the completion handler turns into the given outcome. -/
def resultOf : Except HeroError (List Hero) → TaskResult
  | .ok heroes => HeroService.answer heroes
  | .error .invalidResponse => ⟨false, none, none⟩
  | .error .noData => ⟨false, some 200, none⟩
  | .error .serializationError => ⟨false, some 200, some .malformed⟩
  | .error _ => ⟨true, none, none⟩

/-- What the app sees of an event of the device. -/
def DeviceEvent.appEvents : DeviceEvent → List Event
  | .launch => [.launch]
  | .fetchHeroes io defaultRouteReachability =>
    [.fetchHeroes io (NetworkManager.isConnectedToInternet defaultRouteReachability)]
  | .taskEnds _ _ => []
  | .mainRuns request outcome io => [.complete request (resultOf outcome) io]
  | .ofFilterScreen event => [event]

/-- How the device does what the app does: a task ends just before its handler runs. -/
def Event.deviceEvents : Event → List DeviceEvent
  | .launch => [.launch]
  | .fetchHeroes io isConnectedToInternet =>
    [.fetchHeroes io (NetworkManager.route isConnectedToInternet)]
  | .complete request result io =>
    [.taskEnds request result, .mainRuns request (HeroService.completion result) io]
  | event => [.ofFilterScreen event]

/-- The data task never ends in `invalidEndpoint`. -/
theorem completion_ne_invalidEndpoint (result : TaskResult) :
    HeroService.completion result ≠ .error .invalidEndpoint := by
  obtain ⟨error, statusCode, data⟩ := result
  unfold HeroService.completion
  split_ifs
  · exact nofun
  · cases statusCode with
    | none => exact nofun
    | some code =>
      dsimp only
      split_ifs
      · rcases data with _ | ⟨heroes⟩ | _ <;> exact nofun
      · exact nofun

theorem completion_resultOf {outcome : Except HeroError (List Hero)}
    (h : outcome ≠ .error .invalidEndpoint) :
    HeroService.completion (resultOf outcome) = outcome := by
  rcases outcome with error | heroes
  · cases error with
    | invalidEndpoint => exact absurd rfl h
    | apiError | invalidResponse | noData | serializationError => rfl
  · rfl

/-- The requests in flight are those of the tasks that run and of the handlers that wait. -/
def InFlight (d : Device) : Prop :=
  d.app.requests.Perm (d.mainQueue.map Prod.fst ++ d.tasks)

theorem inFlight_launched (realm : RealmStore) : InFlight (Device.launched realm) :=
  List.Perm.refl _

theorem fetchHeroes_online_requests (io : RealmIO) (s : App) :
    (s.fetchHeroes io true).requests = s.requests ++ [s.issued] := by
  rw [fetchHeroes_online]

theorem fetchHeroes_offline_requests (io : RealmIO) (s : App) :
    (s.fetchHeroes io false).requests = s.requests := by
  rw [fetchHeroes_offline]

theorem inFlight_step {d d' : Device} {e : DeviceEvent}
    (hstep : Device.step urlOfString P d e = some d') (hI : InFlight d) : InFlight d' := by
  unfold InFlight at hI ⊢
  cases device_step_transition hstep with
  | launch => exact List.Perm.refl _
  | request _ _ =>
    rw [fetchHeroes_online_requests, ← List.append_assoc]
    exact hI.append_right _
  | invalidEndpoint _ _ =>
    rw [fetchHeroes_online_requests, List.map_append, List.append_assoc]
    exact (hI.append_right _).trans (by
      rw [List.append_assoc]
      exact List.perm_append_comm.append_left _)
  | noInternet _ =>
    rw [fetchHeroes_offline_requests]
    exact hI
  | @taskEnds request _ hrequest =>
    rw [List.map_append, List.append_assoc]
    exact hI.trans ((List.perm_cons_erase hrequest).append_left _)
  | @mainRuns request _ _ mainQueue hqueue =>
    rw [handle_requests]
    rw [hqueue] at hI
    exact (hI.erase request).trans (by rw [List.map_cons, List.cons_append, List.erase_cons_head])
  | ofFilterScreen hevent happ =>
    rw [(ofFilterScreen_frame hevent happ).1]
    exact hI

theorem inFlight_of_run {realm : RealmStore} {es : List DeviceEvent} {d : Device}
    (hrun : Runs.run (Device.step urlOfString P) (Device.launched realm) es = some d) :
    InFlight d :=
  Runs.run_induct (I := fun _ d => InFlight d) (inFlight_launched realm)
    (fun _ _ _ _ _ hstep hI => inFlight_step hstep hI) es d hrun

/-- No handler waits to be called with `invalidEndpoint`. -/
def NoInvalidEndpoint (d : Device) : Prop :=
  ∀ handler ∈ d.mainQueue, handler.2 ≠ .error .invalidEndpoint

theorem noInvalidEndpoint_step (hurl : (urlOfString HeroService.endpoint).isSome)
    {d d' : Device} {e : DeviceEvent} (hstep : Device.step urlOfString P d e = some d')
    (hI : NoInvalidEndpoint d) : NoInvalidEndpoint d' := by
  cases device_step_transition hstep with
  | launch => exact fun _ h => absurd h List.not_mem_nil
  | request _ _ | noInternet _ => exact hI
  | invalidEndpoint _ hnone =>
    rw [hnone] at hurl
    cases hurl
  | @taskEnds request result _ =>
    intro handler h
    rcases List.mem_append.1 h with h | h
    · exact hI handler h
    · obtain rfl := List.mem_singleton.1 h
      exact completion_ne_invalidEndpoint result
  | mainRuns hqueue =>
    intro handler h
    exact hI handler (hqueue ▸ List.mem_cons_of_mem _ h)
  | ofFilterScreen _ _ => exact hI

/-- One event of the device, as the app sees it. -/
theorem device_step_app {d d' : Device} {e : DeviceEvent} (hflight : InFlight d)
    (hvalid : NoInvalidEndpoint d) (hstep : Device.step urlOfString P d e = some d') :
    Runs.run (App.step P) d.app e.appEvents = some d'.app := by
  cases device_step_transition hstep with
  | launch => rfl
  | request hroute _ | invalidEndpoint hroute _ | noInternet hroute =>
    rw [DeviceEvent.appEvents, hroute]
    rfl
  | taskEnds _ => rfl
  | @mainRuns request outcome io _ hqueue =>
    have hrequest : request ∈ d.app.requests := hflight.mem_iff.2 (by simp [hqueue])
    have houtcome : outcome ≠ .error .invalidEndpoint :=
      hvalid (request, outcome) (by simp [hqueue])
    rw [DeviceEvent.appEvents, Runs.run_cons, App.step, if_pos hrequest, complete_eq_handle,
      completion_resultOf houtcome]
    rfl
  | ofFilterScreen _ happ =>
    rw [DeviceEvent.appEvents, Runs.run_cons, happ]
    rfl

/-- One event of the app, as the device does it. -/
theorem app_step_device (hurl : (urlOfString HeroService.endpoint).isSome) {s s' : App} {e : Event}
    (hstep : App.step P s e = some s') :
    Runs.run (Device.step urlOfString P) ⟨s, s.requests, []⟩ e.deviceEvents =
      some ⟨s', s'.requests, []⟩ := by
  obtain ⟨url, hurl⟩ := Option.isSome_iff_exists.1 hurl
  cases e with
  | launch =>
    cases hstep
    rfl
  | fetchHeroes io isConnectedToInternet =>
    cases hstep
    simp only [Event.deviceEvents, Runs.run_cons, Device.step, Device.fetchHeroes,
      NetworkManager.isConnectedToInternet_route, Device.startRequest, hurl, Option.bind_some,
      Runs.run_nil, Option.some.injEq]
    cases isConnectedToInternet with
    | false => rw [fetchHeroes_offline_requests]; rfl
    | true => rw [fetchHeroes_online_requests]; rfl
  | complete request result io =>
    rw [App.step] at hstep
    split_ifs at hstep with hrequest
    cases hstep
    rw [complete_eq_handle, handle_requests]
    simp [Event.deviceEvents, Device.step, hrequest]
  | filterButtonTapped | roleButtonTapped row isSelected | saveButtonTapped | closeButtonTapped =>
    simp [Event.deviceEvents, Device.step, Event.ofFilterScreen, hstep,
      (ofFilterScreen_frame rfl hstep).1]

/-- **The device refines the app, and the app allows nothing else.**  Every run of the device is a
    run of the app in which the handlers run as its main queue runs them; and every run of the app
    is one of the device in which each task ends just before its handler runs. -/
theorem device_refines_app (P : Platform) (hurl : (urlOfString HeroService.endpoint).isSome)
    (realm : RealmStore) :
    (∀ es d, Runs.run (Device.step urlOfString P) (Device.launched realm) es = some d →
      Runs.run (App.step P) (App.launched realm) (es.flatMap DeviceEvent.appEvents) = some d.app) ∧
    ∀ es s, Runs.run (App.step P) (App.launched realm) es = some s →
      Runs.run (Device.step urlOfString P) (Device.launched realm)
        (es.flatMap Event.deviceEvents) = some ⟨s, s.requests, []⟩ := by
  constructor
  · intro es d hrun
    obtain ⟨s, hs, rfl, -⟩ := Runs.run_flatMap DeviceEvent.appEvents
      (fun d s => d.app = s ∧ InFlight d ∧ NoInvalidEndpoint d)
      (fun d d' s e ⟨hs, hflight, hvalid⟩ hstep =>
        ⟨d'.app, hs ▸ device_step_app hflight hvalid hstep, rfl, inFlight_step hstep hflight,
          noInvalidEndpoint_step hurl hstep hvalid⟩)
      es _ _ (App.launched realm)
      ⟨rfl, inFlight_launched realm, fun _ h => absurd h List.not_mem_nil⟩ hrun
    exact hs
  · intro es s hrun
    obtain ⟨d, hd, rfl⟩ := Runs.run_flatMap Event.deviceEvents
      (fun (s : App) d => d = (⟨s, s.requests, []⟩ : Device))
      (fun s s' d e hs hstep => ⟨_, hs ▸ app_step_device hurl hstep, rfl⟩)
      es _ _ (Device.launched realm) rfl hrun
    exact hd

/-- The second of two requests is answered first. -/
theorem device_refines_app_antiMage :
    let es := [.fetchHeroes .ok (NetworkManager.route true),
      .fetchHeroes .ok (NetworkManager.route true),
      .taskEnds 1 (HeroService.answer [antiMage]), .mainRuns 1 (.ok [antiMage]) .ok]
    ∃ d, Runs.run (Device.step some .insertion) (Device.launched []) es = some d ∧
      Runs.run (App.step .insertion) (App.launched []) (es.flatMap DeviceEvent.appEvents) =
        some d.app := by
  intro es
  have hurl : (some HeroService.endpoint).isSome := rfl
  exact ⟨_, rfl, (device_refines_app .insertion hurl []).1 es _ rfl⟩

/-! ## The requests -/

/-- The events since the last launch. -/
def sinceLaunch (es : List DeviceEvent) : List DeviceEvent :=
  es.foldl (fun past e => if e = .launch then [] else past ++ [e]) []

theorem sinceLaunch_launch (es : List DeviceEvent) : sinceLaunch (es ++ [.launch]) = [] := by
  simp [sinceLaunch]

theorem sinceLaunch_snoc {e : DeviceEvent} (h : e ≠ .launch) (es : List DeviceEvent) :
    sinceLaunch (es ++ [e]) = sinceLaunch es ++ [e] := by
  simp [sinceLaunch, h]

/-- The handler that the main queue runs. -/
def DeviceEvent.handler : DeviceEvent → Option (ℕ × Except HeroError (List Hero))
  | .mainRuns request outcome _ => some (request, outcome)
  | _ => none

/-- The handler that the end of a task dispatches. -/
def DeviceEvent.dispatched : DeviceEvent → Option (ℕ × Except HeroError (List Hero))
  | .taskEnds request result => some (request, HeroService.completion result)
  | _ => none

/-- The requests whose handlers ran. -/
def handled (es : List DeviceEvent) : List ℕ := (es.filterMap DeviceEvent.handler).map Prod.fst

/-- The requests issued since the launch are those handled since, those whose handlers wait, and
    those whose tasks run. -/
def Accounted (past : List DeviceEvent) (d : Device) : Prop :=
  (handled (sinceLaunch past) ++ (d.mainQueue.map Prod.fst ++ d.tasks)).Perm
    (List.range d.app.issued)

theorem accounted_launched (realm : RealmStore) : Accounted [] (Device.launched realm) :=
  List.Perm.refl _

theorem fetchHeroes_online_issued (io : RealmIO) (s : App) :
    (s.fetchHeroes io true).issued = s.issued + 1 := by
  rw [fetchHeroes_online]

theorem fetchHeroes_offline_issued (io : RealmIO) (s : App) :
    (s.fetchHeroes io false).issued = s.issued := by
  rw [fetchHeroes_offline]

/-- An event that runs no handler. -/
theorem handled_snoc_none {e : DeviceEvent} (h : e.handler = none) (es : List DeviceEvent) :
    handled (es ++ [e]) = handled es := by
  rw [handled, Runs.filterMap_snoc, h]
  simp [handled]

theorem handled_snoc_some {e : DeviceEvent} {handler : ℕ × Except HeroError (List Hero)}
    (h : e.handler = some handler) (es : List DeviceEvent) :
    handled (es ++ [e]) = handled es ++ [handler.1] := by
  rw [handled, Runs.filterMap_snoc, h]
  simp [handled]

theorem accounted_step {past : List DeviceEvent} {d d' : Device} {e : DeviceEvent}
    (hstep : Device.step urlOfString P d e = some d') (hI : Accounted past d) :
    Accounted (past ++ [e]) d' := by
  unfold Accounted at hI ⊢
  cases device_step_transition hstep with
  | launch =>
    rw [sinceLaunch_launch]
    exact List.Perm.refl _
  | request _ _ =>
    rw [sinceLaunch_snoc (by simp), handled_snoc_none rfl, fetchHeroes_online_issued,
      List.range_succ, ← List.append_assoc, ← List.append_assoc]
    rw [← List.append_assoc] at hI
    exact hI.append_right _
  | invalidEndpoint _ _ =>
    rw [sinceLaunch_snoc (by simp), handled_snoc_none rfl, fetchHeroes_online_issued,
      List.range_succ, List.map_append, List.append_assoc]
    refine List.Perm.trans ?_ (hI.append_right _)
    rw [List.append_assoc, List.append_assoc]
    exact (List.perm_append_comm.append_left _).append_left _
  | noInternet _ =>
    rw [sinceLaunch_snoc (by simp), handled_snoc_none rfl, fetchHeroes_offline_issued]
    exact hI
  | taskEnds hrequest =>
    rw [sinceLaunch_snoc (by simp), handled_snoc_none rfl, List.map_append, List.append_assoc]
    exact (((List.perm_cons_erase hrequest).symm.append_left _).append_left _).trans hI
  | mainRuns hqueue =>
    rw [sinceLaunch_snoc (by simp), handled_snoc_some rfl, handle_issued, List.append_assoc]
    rw [hqueue] at hI
    exact hI
  | ofFilterScreen hevent happ =>
    rw [sinceLaunch_snoc (by simp), handled_snoc_none rfl, (ofFilterScreen_frame hevent happ).2.1]
    exact hI

/-- **No request is lost, and none is handled twice.**  At any time, in whatever order tasks end,
    handlers run and the user acts, each request issued since the launch has run its handler, or
    its handler waits in the main queue, or its task runs; and it is in just one of the three, and
    there just once.  The last two are the requests in flight. -/
theorem requests_accounted {realm : RealmStore} {es : List DeviceEvent} {d : Device}
    (hrun : Runs.run (Device.step urlOfString P) (Device.launched realm) es = some d) :
    (handled (sinceLaunch es) ++ (d.mainQueue.map Prod.fst ++ d.tasks)).Perm
        (List.range d.app.issued) ∧
      d.app.requests.Perm (d.mainQueue.map Prod.fst ++ d.tasks) :=
  ⟨Runs.run_induct (I := Accounted) (accounted_launched realm)
    (fun _ _ _ _ _ hstep hI => accounted_step hstep hI) es d hrun, inFlight_of_run hrun⟩

theorem requests_accounted_antiMage :
    let es := [.fetchHeroes .ok (NetworkManager.route true),
      .fetchHeroes .ok (NetworkManager.route true), .fetchHeroes .ok (NetworkManager.route true),
      .taskEnds 1 (HeroService.answer [antiMage]), .mainRuns 1 (.ok [antiMage]) .ok,
      .taskEnds 2 (HeroService.answer [])]
    ∃ d, Runs.run (Device.step some .insertion) (Device.launched []) es = some d ∧
      (handled (sinceLaunch es) ++ (d.mainQueue.map Prod.fst ++ d.tasks)).Perm
        (List.range d.app.issued) ∧
      handled (sinceLaunch es) = [1] ∧ d.mainQueue.map Prod.fst = [2] ∧ d.tasks = [0] := by
  intro es
  have hrun : Runs.run (Device.step some .insertion) (Device.launched []) es = some _ := rfl
  exact ⟨_, rfl, (requests_accounted hrun).1, by decide, by decide, by decide⟩

/-! ## The order of the handlers -/

/-- The handlers dispatched since the launch have run, in order, up to those that wait. -/
def Ordered (past : List DeviceEvent) (d : Device) : Prop :=
  (sinceLaunch past).filterMap DeviceEvent.dispatched =
    (sinceLaunch past).filterMap DeviceEvent.handler ++ d.mainQueue

theorem ordered_launched (realm : RealmStore) : Ordered [] (Device.launched realm) := rfl

theorem ordered_step (hurl : (urlOfString HeroService.endpoint).isSome)
    {past : List DeviceEvent} {d d' : Device} {e : DeviceEvent}
    (hstep : Device.step urlOfString P d e = some d') (hI : Ordered past d) :
    Ordered (past ++ [e]) d' := by
  unfold Ordered at hI ⊢
  cases device_step_transition hstep with
  | launch =>
    rw [sinceLaunch_launch]
    rfl
  | invalidEndpoint _ hnone =>
    rw [hnone] at hurl
    cases hurl
  | request _ _ | noInternet _ | ofFilterScreen _ _ =>
    rw [sinceLaunch_snoc (by simp), Runs.filterMap_snoc, Runs.filterMap_snoc]
    simpa [DeviceEvent.dispatched, DeviceEvent.handler] using hI
  | taskEnds _ =>
    rw [sinceLaunch_snoc (by simp), Runs.filterMap_snoc, Runs.filterMap_snoc, hI]
    simp [DeviceEvent.dispatched, DeviceEvent.handler]
  | mainRuns hqueue =>
    rw [sinceLaunch_snoc (by simp), Runs.filterMap_snoc, Runs.filterMap_snoc, hI, hqueue]
    simp [DeviceEvent.dispatched, DeviceEvent.handler]

/-- **The handlers run in the order in which the tasks end**, each with what its own task ended
    in, and those that have not run yet are what waits in the main queue. -/
theorem handlers_in_order (hurl : (urlOfString HeroService.endpoint).isSome) {realm : RealmStore}
    {es : List DeviceEvent} {d : Device}
    (hrun : Runs.run (Device.step urlOfString P) (Device.launched realm) es = some d) :
    (sinceLaunch es).filterMap DeviceEvent.dispatched =
      (sinceLaunch es).filterMap DeviceEvent.handler ++ d.mainQueue :=
  Runs.run_induct (I := Ordered) (ordered_launched realm)
    (fun _ _ _ _ _ hstep hI => ordered_step hurl hstep hI) es d hrun

/-! ## The requests drain -/

/-- The events that go on with the requests in flight. -/
def DeviceEvent.internal : DeviceEvent → Bool
  | .taskEnds _ _ | .mainRuns _ _ _ => true
  | _ => false

/-- The tasks that run may all end, in the order in which they were started. -/
theorem run_taskEnds (results : ℕ → TaskResult) (app : App) : ∀ tasks mainQueue,
    Runs.run (Device.step urlOfString P) ⟨app, tasks, mainQueue⟩
        (tasks.map fun request => .taskEnds request (results request)) =
      some ⟨app, [],
        mainQueue ++
          tasks.map fun request => (request, HeroService.completion (results request))⟩ := by
  intro tasks
  induction tasks with
  | nil => intro mainQueue; simp
  | cons request tasks ih =>
    intro mainQueue
    rw [List.map_cons, Runs.run_cons, Device.step, if_pos List.mem_cons_self, Option.bind_some,
      List.erase_cons_head, ih]
    simp

/-- The handlers that wait may all run. -/
theorem run_mainRuns (io : RealmIO) (tasks : List ℕ) : ∀ mainQueue app,
    Runs.run (Device.step urlOfString P) ⟨app, tasks, mainQueue⟩
        (mainQueue.map fun handler => .mainRuns handler.1 handler.2 io) =
      some ⟨mainQueue.foldl (fun s handler => s.handle P handler.1 handler.2 io) app, tasks,
        []⟩ := by
  intro mainQueue
  induction mainQueue with
  | nil => intro app; rfl
  | cons handler mainQueue ih =>
    intro app
    rw [List.map_cons, Runs.run_cons, Device.step]
    simp only [if_true, Option.bind_some, ih, List.foldl_cons]

theorem foldl_handle_screen (io : RealmIO) (handlers : List (ℕ × Except HeroError (List Hero))) :
    ∀ s : App, (handlers.foldl (fun s handler => s.handle P handler.1 handler.2 io) s).screen =
      s.screen := by
  induction handlers with
  | nil => intro s; rfl
  | cons handler handlers ih =>
    intro s
    rw [List.foldl_cons, ih, handle_screen]

/-- **The requests drain.**  Whatever happened before, and whatever the tasks that still run end
    in, the handlers of all requests can run without another event, those that wait first; then no
    request is in flight, and the filter screen is as it was. -/
theorem requests_drain {realm : RealmStore} {es : List DeviceEvent} {d : Device}
    (hrun : Runs.run (Device.step urlOfString P) (Device.launched realm) es = some d)
    (results : ℕ → TaskResult) (io : RealmIO) :
    ∃ es' app, (∀ e ∈ es', e.internal = true) ∧
      Runs.run (Device.step urlOfString P) d es' = some ⟨app, [], []⟩ ∧
      es'.filterMap DeviceEvent.handler = d.mainQueue ++
        d.tasks.map (fun request => (request, HeroService.completion (results request))) ∧
      app.requests = [] ∧ app.screen = d.app.screen := by
  let handlers := d.mainQueue ++
    d.tasks.map fun request => (request, HeroService.completion (results request))
  let ends : List DeviceEvent := d.tasks.map fun request => .taskEnds request (results request)
  let runs : List DeviceEvent := handlers.map fun handler => .mainRuns handler.1 handler.2 io
  have hdrain : Runs.run (Device.step urlOfString P) d (ends ++ runs) =
      some ⟨handlers.foldl (fun s handler => s.handle P handler.1 handler.2 io) d.app, [], []⟩ := by
    rw [Runs.run_append, run_taskEnds results d.app d.tasks d.mainQueue, Option.bind_some,
      run_mainRuns]
  have hhandlers : (ends ++ runs).filterMap DeviceEvent.handler = handlers := by
    simp [ends, runs, List.filterMap_append, List.filterMap_map, Function.comp_def,
      DeviceEvent.handler]
  have hinternal : ∀ e ∈ ends ++ runs, e.internal = true := by
    intro e he
    rcases List.mem_append.1 he with he | he
    · obtain ⟨_, -, rfl⟩ := List.mem_map.1 he
      rfl
    · obtain ⟨_, -, rfl⟩ := List.mem_map.1 he
      rfl
  -- no task runs and no handler waits, so no request is in flight
  have hdone : InFlight ⟨_, [], []⟩ :=
    inFlight_of_run ((Runs.run_append _ es (ends ++ runs) _).trans (by rw [hrun]; exact hdrain))
  exact ⟨ends ++ runs, _, hinternal, hdrain, hhandlers, hdone.eq_nil,
    foldl_handle_screen io handlers d.app⟩

theorem requests_drain_antiMage :
    let es := [.fetchHeroes .ok (NetworkManager.route true),
      .fetchHeroes .ok (NetworkManager.route true), .taskEnds 1 (HeroService.answer [antiMage])]
    ∃ d, Runs.run (Device.step some .insertion) (Device.launched []) es = some d ∧
      d.tasks = [0] ∧ d.mainQueue = [(1, .ok [antiMage])] ∧
      ∃ es' app, (∀ e ∈ es', e.internal = true) ∧
        Runs.run (Device.step some .insertion) d es' = some ⟨app, [], []⟩ ∧
        es'.filterMap DeviceEvent.handler = d.mainQueue ++
          d.tasks.map (fun request => (request, HeroService.completion (HeroService.answer []))) ∧
        app.requests = [] ∧ app.screen = d.app.screen := by
  intro es
  have hrun : Runs.run (Device.step some .insertion) (Device.launched []) es = some _ := rfl
  exact ⟨_, rfl, by decide, by decide, requests_drain hrun (fun _ => HeroService.answer []) .ok⟩

/-! ## What the handlers leave -/

/-- The response that a handler is called with. -/
def responseOf (handler : ℕ × Except HeroError (List Hero)) : Option (List Hero) :=
  handler.2.toOption

/-- The error that a handler is called with. -/
def errorOf (handler : ℕ × Except HeroError (List Hero)) : Option HeroError :=
  match handler.2 with
  | .ok _ => none
  | .error error => some error

/-- The master list is that of the last success, and the error that of the last failure. -/
def Registers (P : Platform) (handlers : List (ℕ × Except HeroError (List Hero)))
    (i : HeroListInteractor) : Prop :=
  i.masterHeroes = (handlers.filterMap responseOf).getLast?.getD [] ∧
    i.error = (handlers.filterMap errorOf).getLast?.map P.localizedDescription

theorem registers_handle {handlers : List (ℕ × Except HeroError (List Hero))} {s : App}
    (h : Registers P handlers s.interactor) (request : ℕ)
    (outcome : Except HeroError (List Hero)) (io : RealmIO) :
    Registers P (handlers ++ [(request, outcome)]) (s.handle P request outcome io).interactor := by
  obtain ⟨hmaster, herror⟩ := h
  cases outcome with
  | ok response =>
    refine ⟨?_, ?_⟩
    · rw [Runs.filterMap_snoc]
      simp [responseOf, App.handle, successHandler, Except.toOption]
    · rw [Runs.filterMap_snoc]
      simpa [errorOf, App.handle, successHandler] using herror
  | error error =>
    refine ⟨?_, ?_⟩
    · rw [Runs.filterMap_snoc]
      simpa [responseOf, App.handle, errorHandler, Except.toOption] using hmaster
    · rw [Runs.filterMap_snoc]
      simp [errorOf, App.handle, errorHandler]

/-- What neither the filter screen nor a refresh changes. -/
theorem ofFilterScreen_registers {s s' : App} {e : Event} (he : e.ofFilterScreen = true)
    (hstep : App.step P s e = some s') :
    s'.interactor.masterHeroes = s.interactor.masterHeroes ∧
      s'.interactor.error = s.interactor.error := by
  cases step_transition hstep with
  | launch | request | noInternet => cases he
  | success _ _ | failure _ _ => cases he
  | opened _ _ | tapped _ _ | alerted _ _ | saved _ _ | closed _ => exact ⟨rfl, rfl⟩

theorem fetchHeroes_registers (io : RealmIO) (isConnectedToInternet : Bool) (s : App) :
    (s.fetchHeroes io isConnectedToInternet).interactor.masterHeroes = s.interactor.masterHeroes ∧
      (s.fetchHeroes io isConnectedToInternet).interactor.error = s.interactor.error := by
  cases isConnectedToInternet with
  | false => rw [fetchHeroes_offline]; exact ⟨rfl, rfl⟩
  | true => rw [fetchHeroes_online]; exact ⟨rfl, rfl⟩

theorem registers_step {past : List DeviceEvent} {d d' : Device} {e : DeviceEvent}
    (hstep : Device.step urlOfString P d e = some d')
    (hI : Registers P ((sinceLaunch past).filterMap DeviceEvent.handler) d.app.interactor) :
    Registers P ((sinceLaunch (past ++ [e])).filterMap DeviceEvent.handler) d'.app.interactor := by
  -- an event that runs no handler leaves both variables as they are
  have hquiet : e ≠ .launch → e.handler = none →
      d'.app.interactor.masterHeroes = d.app.interactor.masterHeroes →
      d'.app.interactor.error = d.app.interactor.error →
      Registers P ((sinceLaunch (past ++ [e])).filterMap DeviceEvent.handler)
        d'.app.interactor := by
    intro hlaunch hnone hmaster herror
    rw [sinceLaunch_snoc hlaunch, Runs.filterMap_snoc, hnone, Option.toList_none, List.append_nil]
    exact ⟨hmaster.trans hI.1, herror.trans hI.2⟩
  cases device_step_transition hstep with
  | launch =>
    rw [sinceLaunch_launch]
    exact ⟨rfl, rfl⟩
  | @request io _ _ _ =>
    obtain ⟨hmaster, herror⟩ := fetchHeroes_registers io true d.app
    exact hquiet (by simp) rfl hmaster herror
  | @invalidEndpoint io _ _ _ =>
    obtain ⟨hmaster, herror⟩ := fetchHeroes_registers io true d.app
    exact hquiet (by simp) rfl hmaster herror
  | @noInternet io _ _ =>
    obtain ⟨hmaster, herror⟩ := fetchHeroes_registers io false d.app
    exact hquiet (by simp) rfl hmaster herror
  | taskEnds _ => exact hquiet (by simp) rfl rfl rfl
  | @mainRuns request outcome io _ _ =>
    rw [sinceLaunch_snoc (by simp), Runs.filterMap_snoc]
    exact registers_handle hI request outcome io
  | ofFilterScreen hevent happ =>
    obtain ⟨hmaster, herror⟩ := ofFilterScreen_registers hevent happ
    exact hquiet (by simp) rfl hmaster herror

/-- **The last task to succeed wins, not the last request issued.**  At any time, the handlers that
    have run since the launch are, in order, the first of those that tasks dispatched as they ended;
    the master list is the response of the last success among them, and the error is the description
    of the last failure among them, whatever else happened in between. -/
theorem last_success_wins (hurl : (urlOfString HeroService.endpoint).isSome) {realm : RealmStore}
    {es : List DeviceEvent} {d : Device}
    (hrun : Runs.run (Device.step urlOfString P) (Device.launched realm) es = some d) :
    let ended := (sinceLaunch es).filterMap DeviceEvent.dispatched
    let ran := ended.take (ended.length - d.mainQueue.length)
    ran = (sinceLaunch es).filterMap DeviceEvent.handler ∧
      d.app.interactor.masterHeroes = (ran.filterMap responseOf).getLast?.getD [] ∧
      d.app.interactor.error = (ran.filterMap errorOf).getLast?.map P.localizedDescription := by
  intro ended ran
  have hran : ran = (sinceLaunch es).filterMap DeviceEvent.handler := by
    simp only [ran, ended, handlers_in_order hurl hrun, List.length_append, Nat.add_sub_cancel,
      List.take_left]
  refine ⟨hran, ?_⟩
  rw [hran]
  exact Runs.run_induct
    (I := fun past d =>
      Registers P ((sinceLaunch past).filterMap DeviceEvent.handler) d.app.interactor)
    ⟨rfl, rfl⟩ (fun _ _ _ _ _ hstep hI => registers_step hstep hI) es d hrun

/-- The request issued first ends last, and its response stays. -/
theorem last_success_wins_antiMage :
    let es := [.fetchHeroes .ok (NetworkManager.route true),
      .fetchHeroes .ok (NetworkManager.route true),
      .taskEnds 1 (HeroService.answer [juggernaut]), .taskEnds 0 (HeroService.answer [antiMage]),
      .mainRuns 1 (.ok [juggernaut]) .ok, .mainRuns 0 (.ok [antiMage]) .ok]
    let ended := (sinceLaunch es).filterMap DeviceEvent.dispatched
    ∃ d, Runs.run (Device.step some .insertion) (Device.launched []) es = some d ∧
      d.app.interactor.masterHeroes = [antiMage] ∧
      let ran := ended.take (ended.length - d.mainQueue.length)
      ran = (sinceLaunch es).filterMap DeviceEvent.handler ∧
        d.app.interactor.masterHeroes = (ran.filterMap responseOf).getLast?.getD [] ∧
        d.app.interactor.error =
          (ran.filterMap errorOf).getLast?.map Platform.insertion.localizedDescription := by
  intro es ended
  have hrun : Runs.run (Device.step some .insertion) (Device.launched []) es = some _ := rfl
  exact ⟨_, rfl, by decide, last_success_wins rfl hrun⟩

/-! ## No index traps -/

/-- What the events wait for. -/
def Device.Enabled (d : Device) : DeviceEvent → Prop
  | .launch | .fetchHeroes _ _ => True
  | .taskEnds request _ => request ∈ d.tasks
  | .mainRuns request outcome _ => d.mainQueue.head? = some (request, outcome)
  | .ofFilterScreen .filterButtonTapped => d.app.screen = none
  | .ofFilterScreen (.roleButtonTapped _ _) => d.app.screen ≠ none
  | .ofFilterScreen .saveButtonTapped => d.app.screen ≠ none
  | .ofFilterScreen .closeButtonTapped => d.app.screen ≠ none
  | .ofFilterScreen _ => False

/-- **No index traps.**  In every state each event is handled to its end as soon as what it waits
    for is there: no array is indexed out of its bounds, whatever the master list, the active
    filters and the row of the button. -/
theorem nothing_traps (urlOfString : String → Option URL) (P : Platform) (d : Device)
    (e : DeviceEvent) : (Device.step urlOfString P d e).isSome ↔ d.Enabled e := by
  cases e with
  | launch => exact iff_of_true rfl trivial
  | fetchHeroes io route => exact iff_of_true rfl trivial
  | taskEnds request result =>
    rw [Device.step, Device.Enabled]
    split_ifs with h <;> simp [h]
  | mainRuns request outcome io =>
    rw [Device.step, Device.Enabled]
    cases d.mainQueue with
    | nil => simp
    | cons handler mainQueue =>
      simp only [List.head?_cons, Option.some.injEq]
      split_ifs with h <;> simp [h]
  | ofFilterScreen event =>
    cases event with
    | launch | fetchHeroes _ _ | complete _ _ _ => exact iff_of_false Bool.false_ne_true id
    | filterButtonTapped =>
      obtain ⟨roles, hroles, -⟩ := getRoles_entries P.toSorter d.app.interactor
      simp only [Device.step, Event.ofFilterScreen, if_true, App.step, Device.Enabled, hroles,
        Option.map_some]
      cases d.app.screen <;> simp
    | roleButtonTapped row isSelected =>
      simp only [Device.step, Event.ofFilterScreen, if_true, App.step, Device.Enabled]
      cases d.app.screen with
      | none => simp
      | some roles =>
        obtain ⟨roles', htap, -⟩ := tap_spec roles (row, isSelected)
        rw [FilterInteractor.tap] at htap
        simp [htap]
    | saveButtonTapped | closeButtonTapped =>
      simp only [Device.step, Event.ofFilterScreen, if_true, App.step, Device.Enabled]
      cases d.app.screen <;> simp

end HeroQ
