import Mathlib.Logic.Function.Basic
import ReservationSystem.Message

/-!
# One reservation node

`ReservationService`, one step at a time. Each request has a handler thread of its own,
and a step is what one thread does between two points where another one can run: a lock,
a read or a write of the store, a tick of the clock, a call of the replicator.
-/

namespace ReservationSystem

/-! ## Handlers -/

/-- The thread of a client's request, or the one that takes the replication message of
the primary's thread `client n`. -/
inductive Thread
  | client (n : Nat)
  | replica (n : Nat)
  deriving DecidableEq, Repr

/-- How far a handler is. `old` is the entry it found under its key, `res` its record. -/
inductive Phase
  | received
  | locked
  | checked (old : Option Reservation)
  | stamped (old : Option Reservation) (res : Reservation)
  | replicating (old : Option Reservation) (res : Reservation)
  | replicated (old : Option Reservation) (res : Reservation)
  | advanced
  | leaving (resp : Response)
  | done (resp : Response)

structure Handler where
  request : Request
  phase : Phase

/-- How `replicator.replicate(..)` ends: `True`, `False` or an exception. -/
inductive Outcome
  | acked
  | failed
  | raised (text : String)

inductive Action
  | acquire
  | lockTimeout
  | check
  | stamp (now : Nat)
  | skipReplication
  | send
  | returned (o : Outcome)
  | advance
  | store
  | release

/-! ## The node -/

/-- What an observer of the node sees, in order. The source keeps no such list. -/
inductive Entry
  | received (h : Thread) (req : Request)
  | acquired (h : Thread) (t : TableId)
  | stamped (h : Thread) (k : Key) (old : Option Reservation) (res : Reservation)
  | sent (h : Thread) (msg : ReplicationMsg)
  | acked (h : Thread)
  | changed (h : Thread) (op : Op) (k : Key) (old : Option Reservation) (res : Reservation)
  | answered (h : Thread) (resp : Response)

/-- `tableLocks t` is the thread that holds the lock of `t`. -/
structure Node where
  reservations : Dict Key Reservation
  logicalClock : Nat
  tableLocks : TableId → Option Thread
  backUp : Bool
  isPromotedPrimary : Bool
  replicator : Option Nat
  handlers : Thread → Option Handler
  log : List Entry

namespace Node

/-- `__init__`. -/
def start (cfg : Service) (backUp : Bool) : Node where
  reservations := .empty
  logicalClock := 0
  tableLocks := fun _ => none
  backUp := backUp
  isPromotedPrimary := false
  replicator := if backUp then none else cfg.backupTarget
  handlers := fun _ => none
  log := []

/-- `promote_to_primary`. -/
def promoteToPrimary (cfg : Service) (s : Node) : Node :=
  if s.isPromotedPrimary then s
  else
    { s with
      isPromotedPrimary := true
      backUp := false
      replicator := cfg.backupTarget.or s.replicator }

/-- `_replicate_book` and `_replicate_cancel` call the replicator. -/
def replicates (s : Node) : Bool := s.replicator.isSome && !s.backUp

/-- `_next_lamport`: the clock it leaves, which it also returns. -/
def nextLamport (clock : Nat) : Nat := clock + 1

/-- `_advance_lamport_from_peer`. -/
def advanceLamportFromPeer (clock ts : Nat) : Nat := max clock ts + 1

/-! ## The steps of a handler -/

/-- The handler `hd` of thread `h` goes on to phase `p`, and `es` can be seen of it. -/
def moveTo (s : Node) (h : Thread) (hd : Handler) (p : Phase) (es : List Entry) : Node :=
  { s with
    handlers := Function.update s.handlers h (some { hd with phase := p })
    log := s.log ++ es }

/-- `lock.acquire(timeout=LOCK_TIMEOUT)` returns `True`. -/
def acquire (s : Node) (h : Thread) (hd : Handler) : Option Node :=
  if s.tableLocks hd.request.table = none then
    some
      { s.moveTo h hd .locked [.acquired h hd.request.table] with
        tableLocks := Function.update s.tableLocks hd.request.table (some h) }
  else none

/-- The handler answers without having taken a lock. The lock may have become free by now,
so a run can time out at any moment. -/
def turnDown (s : Node) (h : Thread) (hd : Handler) (resp : Response) : Node :=
  s.moveTo h hd (.done resp) [.answered h resp]

/-- `finally: lock.release()`, and the answer. -/
def release (s : Node) (h : Thread) (hd : Handler) (resp : Response) : Node :=
  { s.moveTo h hd (.done resp) [.answered h resp] with
    tableLocks := Function.update s.tableLocks hd.request.table none }

/-- The clock ticks and the record is built with the new time. -/
def stamp (s : Node) (h : Thread) (hd : Handler) (k : Key) (old : Option Reservation)
    (res : Reservation) : Node :=
  { s.moveTo h hd (.stamped old res) [.stamped h k old res] with
    logicalClock := nextLamport s.logicalClock }

/-- The steps of `_replicate_book` and `_replicate_cancel`. -/
def replicate (s : Node) (h : Thread) (hd : Handler) (op : Op) (k : Key) :
    Phase → Action → Option Node
  | .stamped old res, .skipReplication =>
    if s.replicates then none else some (s.moveTo h hd (.replicated old res) [])
  | .stamped old res, .send =>
    if s.replicates then
      some (s.moveTo h hd (.replicating old res) [.sent h ⟨op, keyToList k, res⟩])
    else none
  | .replicating old res, .returned .acked =>
    some (s.moveTo h hd (.replicated old res) [.acked h])
  | .replicating _ _, .returned .failed =>
    some (s.moveTo h hd (.leaving (errorAnswer "Backup replication failed")) [])
  | .replicating _ _, .returned (.raised text) =>
    -- Not caught in `replicate`: it leaves through `finally` and `_handleClient` answers.
    some (s.moveTo h hd (.leaving (errorAnswer text)) [])
  | _, _ => none

/-- The dict write of a handler that then leaves with status ok. The log line and the answer come
next, and are taken not to raise here. -/
def store (s : Node) (h : Thread) (hd : Handler) (op : Op) (k : Key) (res : Reservation)
    (resp : Response) : Node :=
  { s.moveTo h hd (.leaving resp) [.changed h op k (s.reservations.get? k) res] with
    reservations := op.write s.reservations k res }

/-- `_bookTable`. -/
def bookTable (cfg : Service) (s : Node) (h : Thread) (hd : Handler) (msg : Msg) (k : Key)
    (a : Action) : Option Node :=
  match hd.phase, a with
  | .received, .acquire => s.acquire h hd
  | .received, .lockTimeout =>
    some (s.turnDown h hd (errorAnswer "Could not acquire table lock (timed out)"))
  | .locked, .check =>
    match s.reservations.get? k with
    | some _ =>
      some (s.moveTo h hd (.leaving (errorAnswer ("Table " ++ cfg.fstr (msg.get "table_id") ++
        " at " ++ cfg.fstr (msg.get "timeslot") ++ " is already booked"))) [])
    | none => some (s.moveTo h hd (.checked none) [])
  | .checked old, .stamp now =>
    some (s.stamp h hd k old (newReservation cfg msg now (nextLamport s.logicalClock)))
  | .replicated _ res, .store =>
    some (s.store h hd .book k res ⟨.ok, "Reservation confirmed!", some res⟩)
  | .leaving resp, .release => some (s.release h hd resp)
  | p, a => s.replicate h hd .book k p a

/-- `_cancelReservation`. -/
def cancelReservation (s : Node) (h : Thread) (hd : Handler) (k : Key) (a : Action) :
    Option Node :=
  match hd.phase, a with
  | .received, .acquire => s.acquire h hd
  | .received, .lockTimeout =>
    some (s.turnDown h hd (errorAnswer "Could not acquire table lock (timed out)"))
  | .locked, .check =>
    match s.reservations.get? k with
    | none => some (s.moveTo h hd (.leaving (errorAnswer "No reservation found to cancel")) [])
    | some old => some (s.moveTo h hd (.checked (some old)) [])
  | .checked (some old), .stamp _ =>
    some (s.stamp h hd k (some old) { old with lamportTs := nextLamport s.logicalClock })
  | .replicated _ res, .store =>
    some (s.store h hd .cancel k res ⟨.ok, "Reservation cancelled", some res⟩)
  | .leaving resp, .release => some (s.release h hd resp)
  | p, a => s.replicate h hd .cancel k p a

/-- `_applyReplication`. -/
def applyReplication (s : Node) (h : Thread) (hd : Handler) (msg : ReplicationMsg) (k : Key)
    (a : Action) : Option Node :=
  match hd.phase, a with
  | .received, .acquire => s.acquire h hd
  | .received, .lockTimeout => some (s.turnDown h hd (errorAnswer "Lock timeout"))
  | .locked, .advance =>
    some
      { s.moveTo h hd .advanced [] with
        logicalClock := advanceLamportFromPeer s.logicalClock msg.reservation.lamportTs }
  | .advanced, .store =>
    some (s.store h hd msg.operation k msg.reservation ⟨.ok, "", none⟩)
  | .leaving resp, .release => some (s.release h hd resp)
  | _, _ => none

def act (cfg : Service) (s : Node) (h : Thread) (hd : Handler) (a : Action) : Option Node :=
  match hd.request with
  | .book msg => s.bookTable cfg h hd msg (hd.request.key cfg) a
  | .cancel _ => s.cancelReservation h hd (hd.request.key cfg) a
  | .applyReplication msg => s.applyReplication h hd msg (hd.request.key cfg) a

/-- `_handleClient` starts a handler thread. -/
def receive (cfg : Service) (s : Node) (h : Thread) (req : Request) : Option Node :=
  match s.handlers h, cfg.precheck req with
  | some _, _ => none
  | none, some resp =>
    some (s.moveTo h ⟨req, .received⟩ (.done resp) [.received h req, .answered h resp])
  | none, none => some (s.moveTo h ⟨req, .received⟩ .received [.received h req])

inductive Event
  | receive (h : Thread) (req : Request)
  | act (h : Thread) (a : Action)
  | promote

/-- Steps of one thread, one after the other. -/
def acts (h : Thread) (as : List Action) : List Event := as.map (.act h)

def step (cfg : Service) (s : Node) : Event → Option Node
  | .receive h req => s.receive cfg h req
  | .act h a => (s.handlers h).bind fun hd => s.act cfg h hd a
  | .promote => some (s.promoteToPrimary cfg)

end Node

end ReservationSystem
