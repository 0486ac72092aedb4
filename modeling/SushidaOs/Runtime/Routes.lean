import SushidaOs.Shell

/-!
# SushidaOs.Runtime.Routes

The route decision (`sushida_os/runtime/routes.py`): the table `decide` and
the command line `main` through which the network watcher reaches it.

`restart_needed` has no caller and is left out.
-/

namespace SushidaOs

/-- `ROUTES`. -/
inductive Route where
  | online
  | setup
  | offline
  deriving DecidableEq, Repr

namespace Route

/-- The name under which a route is printed and stored. -/
def name : Route → PyStr
  | online => .lit "online"
  | setup => .lit "setup"
  | offline => .lit "offline"

/-- `name in ROUTES`. -/
def isRoute (s : PyStr) : Bool := s = online.name || s = setup.name || s = offline.name

theorem isRoute_name (r : Route) : isRoute r.name = true := by
  cases r <;> decide

theorem exists_name {s : PyStr} (h : isRoute s = true) : ∃ r : Route, s = r.name := by
  simp only [isRoute, Bool.or_eq_true, decide_eq_true_eq] at h
  rcases h with (h | h) | h
  · exact ⟨online, h⟩
  · exact ⟨setup, h⟩
  · exact ⟨offline, h⟩

theorem name_injective {r r' : Route} (h : r.name = r'.name) : r = r' := by
  revert h
  cases r <;> cases r' <;> decide

end Route

/-- `REASONS`. -/
inductive RouteReason where
  | forceOffline
  | timeSyncPending
  | onlineFull
  | setupAvailable
  | offlineFallback
  deriving DecidableEq, Repr

/-- `RouteInputs`, with its defaults. -/
structure RouteInputs where
  forceOffline : Bool := false
  timeSyncPending : Bool := false
  nmOk : Bool := false
  nmState : PyStr := []
  nmConnectivity : PyStr := []
  setupServiceActive : Bool := false
  deriving DecidableEq, Repr

/-- `RouteDecision`. -/
structure RouteDecision where
  route : Route
  reason : RouteReason
  deriving DecidableEq, Repr

namespace Routes

/-- `decide`. -/
def decide (inputs : RouteInputs) : RouteDecision :=
  if inputs.forceOffline then ⟨.offline, .forceOffline⟩
  else if inputs.timeSyncPending then ⟨.offline, .timeSyncPending⟩
  else if inputs.nmOk && inputs.nmState = .lit "connected" &&
      inputs.nmConnectivity = .lit "full" then ⟨.online, .onlineFull⟩
  else if inputs.setupServiceActive then ⟨.setup, .setupAvailable⟩
  else ⟨.offline, .offlineFallback⟩

/-- The loop of `main`; `none` is `return 2`. -/
def parseFlags (inputs : RouteInputs) : List PyStr → Option RouteInputs
  | [] => some inputs
  | flag :: rest =>
      if flag = .lit "--force-offline" then parseFlags { inputs with forceOffline := true } rest
      else if flag = .lit "--time-sync-pending" then
        parseFlags { inputs with timeSyncPending := true } rest
      else if flag = .lit "--nm-ok" then parseFlags { inputs with nmOk := true } rest
      else if flag = .lit "--setup-active" then
        parseFlags { inputs with setupServiceActive := true } rest
      else if flag = .lit "--nm-state" then
        match rest with
        | [] => none
        | value :: rest => parseFlags { inputs with nmState := value } rest
      else if flag = .lit "--nm-connectivity" then
        match rest with
        | [] => none
        | value :: rest => parseFlags { inputs with nmConnectivity := value } rest
      else none

/-- `main`. -/
def main (argv : List PyStr) : Completed :=
  match parseFlags {} argv with
  | none => ⟨2, []⟩
  | some inputs => ⟨0, Sh.printLine (decide inputs).route.name⟩

end Routes

end SushidaOs
