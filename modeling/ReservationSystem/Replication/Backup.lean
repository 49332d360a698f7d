import Mathlib.Data.Rat.Defs
import Mathlib.Algebra.Order.Ring.Unbundled.Rat
import ReservationSystem.Node.Spec

/-!
# A backup and its watchdog

`HeartbeatMonitor`, `BackupService.promote` and the heartbeats that the backup handles. A step
is one read or write of what the threads share. Times are in seconds.
-/

namespace ReservationSystem

def heartbeatTimeout : ℚ := 6

/-- `time.time() - self.last_seen > HEARTBEAT_TIMEOUT`. -/
def Overdue (now last : ℚ) : Prop := now - last > heartbeatTimeout

instance (now last : ℚ) : Decidable (Overdue now last) :=
  inferInstanceAs (Decidable (now - last > heartbeatTimeout))

/-! ## The threads -/

/-- How far the thread of a heartbeat message is. `entered` and `timed` are inside of
`record_ping`. -/
inductive Ping
  | received
  | checked
  | entered
  | timed (t : ℚ)
  | done (resp : Response)

/-- How far `_watchdog_loop` is. From `called` on it is inside of `on_failure`. -/
inductive Watchdog
  | top
  | armed
  | clocked (now : ℚ)
  | overdue
  | firing
  | called
  | marked
  | switched
  | detached

/-- What can be seen of the monitor, in order. The source keeps no such list. `idled` is an
iteration without a look at the clock. -/
inductive Beat
  | pinged (t : ℚ)
  | idled
  | looked (now last : ℚ)
  | invoked
  | returned
  deriving DecidableEq

/-- `onHeartbeat` says that `svc._on_heartbeat` is `monitor.record_ping`, not `None`. -/
structure BackupService where
  svc : Node
  onHeartbeat : Bool
  lastSeen : Option ℚ
  fired : Bool
  watchdog : Watchdog
  pings : Nat → Option Ping
  log : List Beat

namespace BackupService

/-- `start`, after `monitor.run()`. -/
def start (cfg : Service) : BackupService where
  svc := .start cfg true
  onHeartbeat := true
  lastSeen := none
  fired := false
  watchdog := .top
  pings := fun _ => none
  log := []

/-! ## Their steps -/

/-- Thread `n` goes on to phase `p`. -/
def pingAt (s : BackupService) (n : Nat) (p : Ping) : BackupService :=
  { s with pings := Function.update s.pings n (some p) }

/-- `_handleClient` on a heartbeat. It reads the hook twice. -/
def handle (s : BackupService) (n : Nat) (t : ℚ) : Ping → Option BackupService
  | .received =>
    some (s.pingAt n (if s.onHeartbeat then .checked else .done ⟨.ok, "pong", none⟩))
  | .checked =>
    some (s.pingAt n
      (if s.onHeartbeat then .entered
      else .done (errorAnswer "'NoneType' object is not callable")))
  | .entered => some (s.pingAt n (.timed t))
  | .timed t' =>
    some
      { s.pingAt n (.done ⟨.ok, "pong", none⟩) with
        lastSeen := some t'
        log := s.log ++ [.pinged t'] }
  | .done _ => none

/-- `_watchdog_loop`, where nobody has called `stop`, and `promote`. What `promote` then does
to `RESTAURANT_SERVICE_MAP` is no part of a node. -/
def watch (cfg : Service) (s : BackupService) (t : ℚ) : Option BackupService :=
  match s.watchdog with
  | .top =>
    if s.fired || s.lastSeen.isNone then some { s with log := s.log ++ [.idled] }
    else some { s with watchdog := .armed }
  | .armed => some { s with watchdog := .clocked t }
  | .clocked now =>
    -- A `None` here would end the thread with a `TypeError`.
    s.lastSeen.map fun last =>
      { s with
        watchdog := if Overdue now last then .overdue else .top
        log := s.log ++ [.looked now last] }
  | .overdue => some { s with fired := true, watchdog := .firing }
  | .firing => some { s with watchdog := .called, log := s.log ++ [.invoked] }
  | .called =>
    if s.svc.isPromotedPrimary then some { s with watchdog := .top, log := s.log ++ [.returned] }
    else some { s with svc := { s.svc with isPromotedPrimary := true }, watchdog := .marked }
  | .marked => some { s with svc := { s.svc with backUp := false }, watchdog := .switched }
  | .switched => some { s with onHeartbeat := false, watchdog := .detached }
  | .detached =>
    some
      { s with
        svc := { s.svc with replicator := cfg.backupTarget.or s.svc.replicator }
        watchdog := .top
        log := s.log ++ [.returned] }

inductive Event
  | serve (e : Node.Event)
  | ping (n : Nat)
  | handle (n : Nat) (t : ℚ)
  | watch (t : ℚ)

def step (cfg : Service) (s : BackupService) : Event → Option BackupService
  | .serve .promote => none
  | .serve e => (s.svc.step cfg e).map fun svc => { s with svc := svc }
  | .ping n =>
    match s.pings n with
    | none => some (s.pingAt n .received)
    | some _ => none
  | .handle n t => (s.pings n).bind fun p => s.handle n t p
  | .watch t => s.watch cfg t

end BackupService

end ReservationSystem
