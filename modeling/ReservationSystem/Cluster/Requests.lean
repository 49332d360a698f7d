import Mathlib.Tactic.Positivity
import ReservationSystem.Cluster.Payload

/-!
# Book and cancel over the wire

`_bookTable` and `_cancelReservation` on any JSON object, and `_handleClient` around them. The
log line and the answer come after the dict write, and each of them can still raise.
-/

namespace ReservationSystem

open Numeral (maxStrDigits)
open Raising

/-! ## Answers -/

def Status.encode : Status → Json
  | .ok => .str "ok"
  | .error => .str "error"

/-- Where `_bookTable` and `_cancelReservation` put the record. -/
def Op.recordField : Op → String
  | .book => "reservation"
  | .cancel => "cancelled"

def Response.encode (time : Nat → Json) (op : Op) (resp : Response) : Msg :=
  ("status", resp.status.encode) ::
    ((if resp.status = .ok ∧ resp.message = "" then [] else [("message", .str resp.message)]) ++
      (resp.record.map fun res => (op.recordField, .dict (res.encode time))).toList)

/-- `{"status": "error", "message": text}`. -/
def errorMsg (text : String) : Msg := [("status", .str "error"), ("message", .str text)]

def Op.confirmationText : Op → String
  | .book => "Reservation confirmed!"
  | .cancel => "Reservation cancelled"

def Op.confirmation (op : Op) (record : Msg) : Msg :=
  [("status", .str "ok"), ("message", .str op.confirmationText), (op.recordField, .dict record)]

/-! ## The handlers -/

/-- What is around a node while it serves a request: `time.time()`, the replicator, the values
that are nested too deep for `repr` and for `json.dumps`, and the socket of the client. -/
structure Surroundings where
  time : String
  replicate : Msg → Except String Bool
  tooDeepToPrint : Json → Bool
  tooDeepToEncode : Msg → Bool
  sendall : Msg → Except String Unit
  nested : ∀ v, tooDeepToPrint v = true → v.Unhashable

/-- The node as these handlers use it. `replications` are the messages that `replicate` was
called with. The source keeps no such list. -/
structure WireServer extends WireNode where
  backUp : Bool
  replicator : Option Nat
  replications : List Msg

/-- A piece of a handler: what it does to the node stays done when it raises. -/
abbrev Serving := ExceptT String (StateM WireServer)

namespace WireServer

section
variable (cfg : Service) (env : Surroundings)

/-- A value in an f-string. -/
def fstr (v : Json) : Except String String :=
  if env.tooDeepToPrint v then
    .error "maximum recursion depth exceeded while getting the repr of an object"
  else if v.tooLong then .error tooManyDigits
  else .ok (cfg.fstr v)

/-- `f"{date}_{timeslot}"`. -/
def slotText (msg : Msg) : Except String String :=
  return (← fstr cfg env (msg.get "date")) ++ "_" ++ (← fstr cfg env (msg.get "timeslot"))

/-- `logger.info(text)`: the text is made before `logging` is called. -/
def log (text : Except String String) : Serving Unit := do
  let _ ← text

/-- `_next_lamport`. -/
def nextLamport : Serving Int := do
  modify fun s => { s with logicalClock := s.logicalClock + 1 }
  return (← get).logicalClock

/-- The message for the backup. -/
def replication (op : Op) (k : Key) (record : Msg) : Msg :=
  [("action", .str "apply_replication"), ("operation", .str op.text),
    ("key", .list ((keyToList k).map .str)), ("reservation", .dict record)]

def replicates (s : WireServer) : Bool := s.replicator.isSome && !s.backUp

/-- `_replicate_book` and `_replicate_cancel`. -/
def replicate (op : Op) (k : Key) (record : Msg) : Serving Bool := do
  if (← get).replicates then
    modify fun s => { s with replications := s.replications ++ [replication op k record] }
    env.replicate (replication op k record)
  else return true

/-- The record that `_bookTable` builds. -/
def newRecord (msg : Msg) (t : TableId) (ts : Int) : Msg :=
  [("restaurant_id", .str cfg.restaurantId), ("table_id", .str t), ("date", msg.get "date"),
    ("timeslot", msg.get "timeslot"), ("customer_name", msg.get "customer_name"),
    ("party_size", msg.getD "party_size" (.int 1)), ("contact", msg.getD "contact" (.str "")),
    ("created_at", .float env.time), ("lamport_ts", .int ts)]

/-- What is logged after the dict write. -/
def doneLine (op : Op) (msg : Msg) (t : TableId) (ts : Int) : Except String String :=
  match op with
  | .book =>
    return "BOOKED: " ++ (← fstr cfg env (msg.get "customer_name")) ++ " -> " ++ t ++ " at " ++
      (← fstr cfg env (msg.get "date")) ++ " " ++ (← fstr cfg env (msg.get "timeslot")) ++
      " (lamport=" ++ (← fstr cfg env (.int ts)) ++ ")"
  | .cancel =>
    return "CANCELLED: " ++ t ++ " at " ++ (← fstr cfg env (msg.get "date")) ++ " " ++
      (← fstr cfg env (msg.get "timeslot")) ++ " (lamport=" ++ (← fstr cfg env (.int ts)) ++ ")"

/-- What is logged when the backup has not acknowledged the write. -/
def failedLine (op : Op) (msg : Msg) (t : TableId) : Except String String :=
  return "REPLICATION FAILED: " ++ op.text ++ " " ++ t ++ " at " ++
    (← fstr cfg env (msg.get "date")) ++ " " ++ (← fstr cfg env (msg.get "timeslot")) ++ " (" ++
    cfg.restaurantId ++ ")"

/-- From the stamp on, both handlers do the same. -/
def commit (op : Op) (msg : Msg) (k : Key) (record : Int → Msg) : Serving Msg := do
  let ts ← nextLamport
  if ← replicate env op k (record ts) then
    modify fun s => { s with reservations := op.write s.reservations k.encode (record ts) }
    log (doneLine cfg env op msg k.table ts)
    return op.confirmation (record ts)
  else
    log (failedLine cfg env op msg k.table)
    return errorMsg "Backup replication failed"

/-- `_bookTable` while it holds the lock. -/
def bookLocked (msg : Msg) (t : TableId) : Serving Msg := do
  let k : Key := (cfg.restaurantId, t, ← slotText cfg env msg)
  match (← get).reservations.get? k.encode with
  | some _ =>
    log do
      return "BOOK REJECTED: " ++ t ++ " at " ++ (← fstr cfg env (msg.get "date")) ++ " " ++
        (← fstr cfg env (msg.get "timeslot")) ++ " already booked (" ++ cfg.restaurantId ++ ")"
    return errorMsg ("Table " ++ t ++ " at " ++ (← fstr cfg env (msg.get "timeslot")) ++
      " is already booked")
  | none => commit cfg env .book msg k (newRecord cfg env msg t)

/-- `_cancelReservation` while it holds the lock. -/
def cancelLocked (msg : Msg) (k : Key) : Serving Msg := do
  match (← get).reservations.get? k.encode with
  | none =>
    log do
      return "CANCEL REJECTED: no reservation found for " ++ k.table ++ " at " ++
        (← fstr cfg env (msg.get "date")) ++ " " ++ (← fstr cfg env (msg.get "timeslot"))
    return errorMsg "No reservation found to cancel"
  | some old => commit cfg env .cancel msg k fun ts => old.set "lamport_ts" (.int ts)

/-- `lock.acquire(timeout=LOCK_TIMEOUT)` and what comes after it. A lock that another thread holds
is waited for in vain, and its own is released however `body` ends. -/
def withLock (h : Thread) (t : TableId) (body : Serving Msg) : Serving Msg := do
  if ((← get).tableLocks t).isSome then
    return errorMsg "Could not acquire table lock (timed out)"
  else
    modify fun s => { s with tableLocks := Function.update s.tableLocks t (some h) }
    try body
    finally modify fun s => { s with tableLocks := Function.update s.tableLocks t none }

def unknownTable (msg : Msg) : Serving Msg := do
  return errorMsg ("Table " ++ (← fstr cfg env (msg.get "table_id")) ++ " does not exist")

/-- `_bookTable`. -/
def bookTable (h : Thread) (msg : Msg) : Serving Msg := do
  match ← WireNode.lockOf cfg (msg.get "table_id") with
  | none => unknownTable cfg env msg
  | some t => withLock h t (bookLocked cfg env msg t)

/-- `_cancelReservation`. Unlike `_bookTable` it makes the key before it asks for the lock. -/
def cancelReservation (h : Thread) (msg : Msg) : Serving Msg := do
  match ← WireNode.lockOf cfg (msg.get "table_id") with
  | none => unknownTable cfg env msg
  | some t =>
    let slot ← slotText cfg env msg
    withLock h t (cancelLocked cfg env msg (cfg.restaurantId, t, slot))

/-- The branches of `_handleClient` for the actions book and cancel. -/
def handler (h : Thread) (op : Op) (msg : Msg) : Serving Msg :=
  match op with
  | .book => bookTable cfg env h msg
  | .cancel => cancelReservation cfg env h msg

/-- `sendMessage`. -/
def sendMessage (message : Msg) : Except String Unit :=
  if env.tooDeepToEncode message then
    .error "maximum recursion depth exceeded while encoding a JSON object"
  else if (Json.dict message).tooLong then .error tooManyDigits
  else env.sendall message

/-- `except Exception as e`: the second answer, if that one can be sent. -/
def sendError (text : String) : Option Msg :=
  match sendMessage env (errorMsg text) with
  | .ok _ => some (errorMsg text)
  | .error _ => none

/-- What the client gets when a handler has returned or raised. -/
def deliver (result : Except String Msg) : Option Msg :=
  match result with
  | .error text => sendError env text
  | .ok response =>
    match sendMessage env response with
    | .ok _ => some response
    | .error text => sendError env text

/-- `_handleClient` when the action is `op`: what the client gets, if it gets anything, and the
node that is left. -/
def handleClient (h : Thread) (op : Op) (msg : Msg) (s : WireServer) :
    Option Msg × WireServer :=
  let (result, s') := (handler cfg env h op msg).run.run s
  (deliver env result, s')

end

/-! ## What is promised -/

/-- The client is told that the request is done. -/
def Confirmed (answer : Option Msg) : Prop :=
  ∃ response ∈ answer, response.get "status" = .str "ok"

section
variable (cfg : Service) (env : Surroundings)

/-- The key of the request has changed as the request says, and nothing else has. -/
structure Changed (op : Op) (msg : Msg) (t : TableId) (s s' : WireServer) : Prop where
  clock : s'.logicalClock = s.logicalClock + 1
  was : op.Expects (s.reservations.get? (cfg.slotKey msg t).encode)
  becomes : s'.reservations.get? (cfg.slotKey msg t).encode =
    op.effect (newRecord cfg env msg t (s.logicalClock + 1))
  elsewhere : ∀ k, k ≠ (cfg.slotKey msg t).encode →
    s'.reservations.get? k = s.reservations.get? k

/-- A request is done as a whole, or only its time stamp has been used up for a replication that
was attempted. -/
structure AllOrNothing (op : Op) (msg : Msg) (s : WireServer) (answer : Option Msg)
    (s' : WireServer) : Prop where
  confirmed : Confirmed answer → ∃ t, msg.get "table_id" = .str t ∧ Changed cfg env op msg t s s'
  store : ¬ Confirmed answer → s'.reservations = s.reservations
  clock : ¬ Confirmed answer → s'.logicalClock =
    if s'.replications = s.replications then s.logicalClock else s.logicalClock + 1
  locks : s'.tableLocks = s.tableLocks

/-! ## When the promise is broken -/

/-- `str(v)` does not raise. -/
def Printable (env : Surroundings) (v : Json) : Prop :=
  env.tooDeepToPrint v = false ∧ v.tooLong = false

/-- The record with time `ts` that a handler makes of what it finds. -/
def recordAt (op : Op) (msg : Msg) (t : TableId) (s : WireServer) (ts : Int) : Msg :=
  match op with
  | .book => newRecord cfg env msg t ts
  | .cancel =>
    ((s.reservations.get? (cfg.slotKey msg t).encode).getD []).set "lamport_ts" (.int ts)

/-- The record that is replicated and sent back. -/
def recordOf (op : Op) (msg : Msg) (t : TableId) (s : WireServer) : Msg :=
  recordAt cfg env op msg t s (s.logicalClock + 1)

/-- The handler gets its lock, and can make the key. -/
structure Enters (msg : Msg) (t : TableId) (s : WireServer) : Prop where
  table : msg.get "table_id" = .str t
  known : t ∈ cfg.tables.keys
  free : s.tableLocks t = none
  date : Printable env (msg.get "date")
  timeslot : Printable env (msg.get "timeslot")

/-- And the key is as it should be. -/
structure Proceeds (op : Op) (msg : Msg) (t : TableId) (s : WireServer) : Prop
    extends Enters cfg env msg t s where
  expected : op.Expects (s.reservations.get? (cfg.slotKey msg t).encode)

/-- What `_replicate_book` and `_replicate_cancel` return. -/
def acknowledgement (op : Op) (k : Key) (record : Msg) (s : WireServer) : Except String Bool :=
  if s.replicates then env.replicate (replication op k record) else .ok true

/-- The handler gets as far as the dict write. -/
structure Writes (op : Op) (msg : Msg) (t : TableId) (s : WireServer) : Prop
    extends Proceeds cfg env op msg t s where
  acknowledged :
    acknowledgement env op (cfg.slotKey msg t) (recordOf cfg env op msg t s) s = .ok true

/-- What the record gets from the message, or from the stored one, besides what is in the key. -/
def carried (op : Op) (msg : Msg) (t : TableId) (s : WireServer) : Msg :=
  match op with
  | .book =>
    [("customer_name", msg.get "customer_name"), ("party_size", msg.getD "party_size" (.int 1)),
      ("contact", msg.getD "contact" (.str ""))]
  | .cancel =>
    ((s.reservations.get? (cfg.slotKey msg t).encode).getD []).filter fun field =>
      field.1 ≠ "lamport_ts"

/-- The answer is nested too deep for `json.dumps`, or the socket does not take it. -/
def Undelivered (env : Surroundings) (message : Msg) : Prop :=
  env.tooDeepToEncode message = true ∨ ∃ text, env.sendall message = .error text

/-- The line that is logged after the write cannot be made, or the answer cannot be sent. -/
def Spoiled (op : Op) (msg : Msg) (t : TableId) (s : WireServer) : Prop :=
  op = .book ∧ ¬ Printable env (msg.get "customer_name") ∨
    (Json.int (s.logicalClock + 1)).tooLong = true ∨
      (Json.dict (carried cfg op msg t s)).tooLong = true ∨
        Undelivered env (op.confirmation (recordOf cfg env op msg t s))

def FailsAfterWrite (op : Op) (msg : Msg) (s : WireServer) : Prop :=
  ∃ t, Writes cfg env op msg t s ∧ Spoiled cfg env op msg t s

end

/-! ## What the handlers do -/

section
variable {cfg : Service} {env : Surroundings} {op : Op} {msg record : Msg} {k : Key} {t : TableId}
  {h : Thread} {s : WireServer} {v : Json} {text : String}

theorem fstr_eq_ok : fstr cfg env v = .ok text ↔ Printable env v ∧ cfg.fstr v = text := by
  unfold fstr Printable
  cases env.tooDeepToPrint v <;> cases v.tooLong <;> simp

theorem fstr_printable (hv : Printable env v) : fstr cfg env v = .ok (cfg.fstr v) :=
  fstr_eq_ok.mpr ⟨hv, rfl⟩

theorem slotText_eq_ok : slotText cfg env msg = .ok text ↔
    Printable env (msg.get "date") ∧ Printable env (msg.get "timeslot") ∧
      cfg.fstr (msg.get "date") ++ "_" ++ cfg.fstr (msg.get "timeslot") = text := by
  unfold slotText
  simp only [bind_eq_ok, fstr_eq_ok, pure, Except.pure, Except.ok.injEq]
  constructor
  · rintro ⟨date, ⟨hdate, rfl⟩, timeslot, ⟨htimeslot, rfl⟩, rfl⟩
    exact ⟨hdate, htimeslot, rfl⟩
  · rintro ⟨hdate, htimeslot, rfl⟩
    exact ⟨_, ⟨hdate, rfl⟩, _, ⟨htimeslot, rfl⟩, rfl⟩

theorem slotText_printable (hdate : Printable env (msg.get "date"))
    (htimeslot : Printable env (msg.get "timeslot")) : slotText cfg env msg =
      .ok (cfg.fstr (msg.get "date") ++ "_" ++ cfg.fstr (msg.get "timeslot")) :=
  slotText_eq_ok.mpr ⟨hdate, htimeslot, rfl⟩

@[simp]
theorem run_log (line : Except String String) :
    (log line).run.run s = (line.map fun _ => (), s) := by
  unfold log
  rw [run_bind, run_lift]
  cases line <;> rfl

/-- The state after the call of the replicator. -/
def asked (op : Op) (k : Key) (record : Msg) (s : WireServer) : WireServer :=
  { s with
    logicalClock := s.logicalClock + 1
    replications :=
      if s.replicates then s.replications ++ [replication op k record] else s.replications }

/-- And after the dict write. -/
def wrote (op : Op) (k : Key) (record : Msg) (s : WireServer) : WireServer :=
  { asked op k record s with reservations := op.write s.reservations k.encode record }

theorem run_replicate : (replicate env op k record).run.run s =
    (acknowledgement env op k record s,
      { s with replications :=
          if s.replicates then s.replications ++ [replication op k record]
          else s.replications }) := by
  unfold replicate acknowledgement
  rw [run_bind, run_get]
  simp only
  split_ifs with hrep
  · simp only [run_bind, run_modify, run_lift]
  · rfl

/-- No answer with status ok. -/
def Refusal (result : Except String Msg) : Prop :=
  ∀ response, result = .ok response → response.get "status" = .str "error"

theorem refusal_error (text : String) : Refusal (.error text) := by
  intro response h
  cases h

theorem refusal_errorMsg (text : String) : Refusal (.ok (errorMsg text)) := by
  intro response h
  obtain rfl := Except.ok.inj h
  rfl

theorem refusal_map (line : Except String String) (text : String) :
    Refusal (line.map fun _ => errorMsg text) := by
  cases line with
  | error text => exact refusal_error text
  | ok line => exact refusal_errorMsg text

section
variable {make : Int → Msg}

theorem run_commit_acknowledged
    (hack : acknowledgement env op k (make (s.logicalClock + 1)) s = .ok true) :
    (commit cfg env op msg k make).run.run s =
      ((doneLine cfg env op msg k.table (s.logicalClock + 1)).map fun _ =>
        op.confirmation (make (s.logicalClock + 1)), wrote op k (make (s.logicalClock + 1)) s) := by
  have hack' : acknowledgement env op k (make (s.logicalClock + 1))
    { s with logicalClock := s.logicalClock + 1 } = .ok true := hack
  unfold commit nextLamport
  simp only [run_bind, run_modify, run_get, run_pure, run_replicate, hack', if_true, run_log]
  cases doneLine cfg env op msg k.table (s.logicalClock + 1) <;> rfl

theorem run_commit_refused
    (hack : acknowledgement env op k (make (s.logicalClock + 1)) s = .ok false) :
    (commit cfg env op msg k make).run.run s =
      ((failedLine cfg env op msg k.table).map fun _ => errorMsg "Backup replication failed",
        asked op k (make (s.logicalClock + 1)) s) := by
  have hack' : acknowledgement env op k (make (s.logicalClock + 1))
    { s with logicalClock := s.logicalClock + 1 } = .ok false := hack
  unfold commit nextLamport
  simp only [run_bind, run_modify, run_get, run_pure, run_replicate, hack', Bool.false_eq_true,
    if_false, run_log]
  cases failedLine cfg env op msg k.table <;> rfl

theorem run_commit_raised
    (hack : acknowledgement env op k (make (s.logicalClock + 1)) s = .error text) :
    (commit cfg env op msg k make).run.run s =
      (.error text, asked op k (make (s.logicalClock + 1)) s) := by
  have hack' : acknowledgement env op k (make (s.logicalClock + 1))
    { s with logicalClock := s.logicalClock + 1 } = .error text := hack
  unfold commit nextLamport
  simp only [run_bind, run_modify, run_get, run_pure, run_replicate, hack']
  rfl

end

/-! ## The exits of a handler -/

/-- The state while the handler holds its lock. -/
def locked (h : Thread) (t : TableId) (s : WireServer) : WireServer :=
  { s with tableLocks := Function.update s.tableLocks t (some h) }

/-- How a handler ends, and the node that it leaves. -/
inductive Exit (cfg : Service) (env : Surroundings) (op : Op) (msg : Msg) (s : WireServer) :
    Except String Msg → WireServer → Prop
  | turnedDown (result : Except String Msg) (hresult : Refusal result)
      (hno : ∀ t, ¬ Writes cfg env op msg t s) : Exit cfg env op msg s result s
  | unreplicated (result : Except String Msg) (t : TableId) (hresult : Refusal result)
      (hno : ∀ t, ¬ Writes cfg env op msg t s) (hrep : s.replicates = true) :
      Exit cfg env op msg s result
        (asked op (cfg.slotKey msg t) (recordOf cfg env op msg t s) s)
  | written (t : TableId) (hw : Writes cfg env op msg t s) :
      Exit cfg env op msg s
        ((doneLine cfg env op msg t (s.logicalClock + 1)).map fun _ =>
          op.confirmation (recordOf cfg env op msg t s))
        (wrote op (cfg.slotKey msg t) (recordOf cfg env op msg t s) s)

def released (t : TableId) (s : WireServer) : WireServer :=
  { s with tableLocks := Function.update s.tableLocks t none }

theorem run_withLock (body : Serving Msg) : (withLock h t body).run.run s =
    if (s.tableLocks t).isSome then
      (.ok (errorMsg "Could not acquire table lock (timed out)"), s)
    else ((body.run.run (locked h t s)).1, released t (body.run.run (locked h t s)).2) := by
  unfold withLock
  simp only [run_bind, run_get]
  split_ifs
  · rfl
  · rw [run_bind, run_modify]
    exact run_finally body _

theorem released_locked (hfree : s.tableLocks t = none) : released t (locked h t s) = s := by
  unfold released locked
  simp only [Function.update_idem]
  rw [← hfree, Function.update_eq_self]

theorem released_asked (hfree : s.tableLocks t = none) :
    released t (asked op k record (locked h t s)) = asked op k record s :=
  congrArg (asked op k record) (released_locked (h := h) hfree)

theorem released_wrote (hfree : s.tableLocks t = none) :
    released t (wrote op k record (locked h t s)) = wrote op k record s :=
  congrArg (wrote op k record) (released_locked (h := h) hfree)

theorem run_bookLocked (hdate : Printable env (msg.get "date"))
    (htimeslot : Printable env (msg.get "timeslot")) : (bookLocked cfg env msg t).run.run s =
      match s.reservations.get? (cfg.slotKey msg t).encode with
      | some _ => (.ok (errorMsg ("Table " ++ t ++ " at " ++ cfg.fstr (msg.get "timeslot") ++
          " is already booked")), s)
      | none =>
        (commit cfg env .book msg (cfg.slotKey msg t) (newRecord cfg env msg t)).run.run s := by
  have hkey : (cfg.restaurantId, t, cfg.fstr (msg.get "date") ++ "_" ++
    cfg.fstr (msg.get "timeslot")) = cfg.slotKey msg t := rfl
  unfold bookLocked
  simp only [run_bind, run_lift, slotText_printable hdate htimeslot, run_get, hkey]
  cases s.reservations.get? (cfg.slotKey msg t).encode with
  | none => rfl
  | some old =>
    simp only [run_bind, run_log, run_lift, fstr_printable hdate, fstr_printable htimeslot]
    rfl

theorem run_cancelLocked (hdate : Printable env (msg.get "date"))
    (htimeslot : Printable env (msg.get "timeslot")) : (cancelLocked cfg env msg k).run.run s =
      match s.reservations.get? k.encode with
      | none => (.ok (errorMsg "No reservation found to cancel"), s)
      | some old =>
        (commit cfg env .cancel msg k fun ts => old.set "lamport_ts" (.int ts)).run.run s := by
  unfold cancelLocked
  simp only [run_bind, run_get]
  cases s.reservations.get? k.encode with
  | some old => rfl
  | none =>
    simp only [run_bind, run_log, fstr_printable hdate, fstr_printable htimeslot]
    rfl

/-- The request that a message makes. -/
def request (op : Op) (msg : Msg) : Request :=
  match op with
  | .book => .book msg
  | .cancel => .cancel msg

/-- What a handler does while it holds the lock. -/
def lockedPart (cfg : Service) (env : Surroundings) (op : Op) (msg : Msg) (t : TableId) :
    Serving Msg :=
  match op with
  | .book => bookLocked cfg env msg t
  | .cancel => cancelLocked cfg env msg (cfg.slotKey msg t)

theorem run_lockedPart (hdate : Printable env (msg.get "date"))
    (htimeslot : Printable env (msg.get "timeslot")) (htable : msg.get "table_id" = .str t) :
    (lockedPart cfg env op msg t).run.run s =
      if op.Expects (s.reservations.get? (cfg.slotKey msg t).encode) then
        (commit cfg env op msg (cfg.slotKey msg t)
          (recordAt cfg env op msg t s)).run.run s
      else (.ok (errorMsg ((request op msg).conflict cfg).message), s) := by
  have hshown : cfg.fstr (msg.get "table_id") = t := by rw [htable]; rfl
  unfold lockedPart
  cases op with
  | book =>
    simp only [run_bookLocked hdate htimeslot, Op.Expects, request, Request.conflict, hshown]
    cases s.reservations.get? (cfg.slotKey msg t).encode <;> rfl
  | cancel =>
    simp only [run_cancelLocked hdate htimeslot, Op.Expects, request, Request.conflict]
    cases hget : s.reservations.get? (cfg.slotKey msg t).encode with
    | none => rfl
    | some old =>
      have hrecord : recordAt cfg env .cancel msg t s =
          fun ts => old.set "lamport_ts" (.int ts) := by
        funext ts
        simp only [recordAt, hget]
        rfl
      rw [hrecord]
      rfl

/-! ## The state at the end -/

section
variable (htable : msg.get "table_id" = .str t)
include htable

/-- The handler does not get to the write when something about its table is not as it should be. -/
theorem not_writes {P : TableId → Prop} (hP : ∀ t, Writes cfg env op msg t s → P t) (hno : ¬ P t)
    (t' : TableId) : ¬ Writes cfg env op msg t' s := by
  intro hw
  obtain rfl : t = t' := Json.str.inj (htable.symm.trans hw.table)
  exact hno (hP t hw)

end

theorem not_writes_slot (hslot : slotText cfg env msg = .error text) (t : TableId) :
    ¬ Writes cfg env op msg t s := by
  intro hw
  simp [slotText_printable hw.date hw.timeslot] at hslot

theorem not_writes_lock
    (hlock : ∀ t, WireNode.lockOf cfg (msg.get "table_id") ≠ .ok (some t)) (t : TableId) :
    ¬ Writes cfg env op msg t s := by
  intro hw
  exact hlock t (WireNode.lockOf_eq_some.mpr ⟨hw.table, hw.known⟩)

theorem run_enters (he : Enters cfg env msg t s) : (handler cfg env h op msg).run.run s =
    (((lockedPart cfg env op msg t).run.run (locked h t s)).1,
      released t ((lockedPart cfg env op msg t).run.run (locked h t s)).2) := by
  have hlock : WireNode.lockOf cfg (msg.get "table_id") = .ok (some t) :=
    WireNode.lockOf_eq_some.mpr ⟨he.table, he.known⟩
  have hfree : ¬ (s.tableLocks t).isSome := by simp [he.free]
  cases op with
  | book =>
    unfold handler bookTable
    simp only [run_bind, run_lift, hlock, run_withLock, if_neg hfree]
    rfl
  | cancel =>
    unfold handler cancelReservation
    simp only [run_bind, run_lift, hlock, slotText_printable he.date he.timeslot, run_withLock,
      if_neg hfree]
    rfl

theorem run_conflict (he : Enters cfg env msg t s)
    (hno : ¬ op.Expects (s.reservations.get? (cfg.slotKey msg t).encode)) :
    (handler cfg env h op msg).run.run s =
      (.ok (errorMsg ((request op msg).conflict cfg).message), s) := by
  have hrun : (lockedPart cfg env op msg t).run.run (locked h t s) =
      (.ok (errorMsg ((request op msg).conflict cfg).message), locked h t s) :=
    (run_lockedPart he.date he.timeslot he.table).trans (if_neg hno)
  rw [run_enters he, hrun, released_locked he.free]

theorem run_proceeds (hp : Proceeds cfg env op msg t s) : (handler cfg env h op msg).run.run s =
    match acknowledgement env op (cfg.slotKey msg t) (recordOf cfg env op msg t s) s with
    | .ok true =>
      ((doneLine cfg env op msg t (s.logicalClock + 1)).map fun _ =>
          op.confirmation (recordOf cfg env op msg t s),
        wrote op (cfg.slotKey msg t) (recordOf cfg env op msg t s) s)
    | .ok false =>
      ((failedLine cfg env op msg t).map fun _ => errorMsg "Backup replication failed",
        asked op (cfg.slotKey msg t) (recordOf cfg env op msg t s) s)
    | .error text =>
      (.error text, asked op (cfg.slotKey msg t) (recordOf cfg env op msg t s) s) := by
  have hrun : (lockedPart cfg env op msg t).run.run (locked h t s) =
      (commit cfg env op msg (cfg.slotKey msg t) (recordAt cfg env op msg t s)).run.run
        (locked h t s) :=
    (run_lockedPart hp.date hp.timeslot hp.table).trans (if_pos hp.expected)
  rw [run_enters hp.toEnters, hrun]
  cases hack : acknowledgement env op (cfg.slotKey msg t) (recordOf cfg env op msg t s) s with
  | error text =>
    rw [run_commit_raised (s := locked h t s) hack, released_asked hp.free]
    rfl
  | ok acked =>
    cases acked with
    | true =>
      rw [run_commit_acknowledged (s := locked h t s) hack, released_wrote hp.free]
      rfl
    | false =>
      rw [run_commit_refused (s := locked h t s) hack, released_asked hp.free]
      rfl

/-- A handler that has its lock, and goes ahead. -/
theorem exit_proceeds (hp : Proceeds cfg env op msg t s) : Exit cfg env op msg s
    ((handler cfg env h op msg).run.run s).1 ((handler cfg env h op msg).run.run s).2 := by
  have hrep (hack : acknowledgement env op (cfg.slotKey msg t) (recordOf cfg env op msg t s) s ≠
      .ok true) : s.replicates = true := by
    by_contra hrep
    exact hack (if_neg hrep)
  have hno := not_writes hp.table (fun _ (hw : Writes cfg env op msg _ s) => hw.acknowledged)
  rw [run_proceeds hp]
  rcases hack : acknowledgement env op (cfg.slotKey msg t) (recordOf cfg env op msg t s) s with
    text | (_ | _)
  · exact .unreplicated _ t (refusal_error text) (hno (by simp [hack])) (hrep (by simp [hack]))
  · exact .unreplicated _ t (refusal_map _ _) (hno (by simp [hack])) (hrep (by simp [hack]))
  · exact .written t ⟨hp, hack⟩

theorem run_unknownTable : (unknownTable cfg env msg).run.run s =
    ((fstr cfg env (msg.get "table_id")).map fun shown =>
      errorMsg ("Table " ++ shown ++ " does not exist"), s) := by
  unfold unknownTable
  rw [run_bind, run_lift]
  cases fstr cfg env (msg.get "table_id") <;> rfl

section
variable (hlock : WireNode.lockOf cfg (msg.get "table_id") = .ok (some t))
include hlock

/-- Another thread holds the lock. -/
theorem exit_held (hheld : (s.tableLocks t).isSome) : Exit cfg env op msg s
    ((handler cfg env h op msg).run.run s).1 ((handler cfg env h op msg).run.run s).2 := by
  have htable := (WireNode.lockOf_eq_some.mp hlock).1
  have hno : ∀ t', ¬ Writes cfg env op msg t' s :=
    not_writes htable (fun _ hw => hw.free) (Option.isSome_iff_ne_none.mp hheld)
  cases op with
  | book =>
    unfold handler bookTable
    simp only [run_bind, run_lift, hlock, run_withLock, if_pos hheld]
    exact .turnedDown _ (refusal_errorMsg _) hno
  | cancel =>
    unfold handler cancelReservation
    simp only [run_bind, run_lift, hlock]
    cases slotText cfg env msg with
    | error text => exact .turnedDown _ (refusal_error text) hno
    | ok slot =>
      simp only [run_withLock, if_pos hheld]
      exact .turnedDown _ (refusal_errorMsg _) hno

/-- The slot cannot be printed: `_bookTable` has its lock by then, and `_cancelReservation` has
not asked for one. -/
theorem exit_slot (hfree : s.tableLocks t = none) (hslot : slotText cfg env msg = .error text) :
    Exit cfg env op msg s
      ((handler cfg env h op msg).run.run s).1 ((handler cfg env h op msg).run.run s).2 := by
  have hrun : (handler cfg env h op msg).run.run s = (.error text, s) := by
    cases op with
    | book =>
      have hbook : (bookLocked cfg env msg t).run.run (locked h t s) =
          (.error text, locked h t s) := by
        unfold bookLocked
        rw [run_bind, run_lift, hslot]
      unfold handler bookTable
      simp only [run_bind, run_lift, hlock, run_withLock, hfree, hbook, released_locked hfree]
      rfl
    | cancel =>
      unfold handler cancelReservation
      simp only [run_bind, run_lift, hlock, hslot]
  rw [hrun]
  exact .turnedDown _ (refusal_error text) (not_writes_slot hslot)

end

theorem run_handler_none (hlock : WireNode.lockOf cfg (msg.get "table_id") = .ok none) :
    (handler cfg env h op msg).run.run s = (unknownTable cfg env msg).run.run s := by
  cases op <;> unfold handler
  · unfold bookTable
    rw [run_bind, run_lift, hlock]
  · unfold cancelReservation
    rw [run_bind, run_lift, hlock]

theorem run_handler_error (hlock : WireNode.lockOf cfg (msg.get "table_id") = .error text) :
    (handler cfg env h op msg).run.run s = (.error text, s) := by
  cases op <;> unfold handler
  · unfold bookTable
    rw [run_bind, run_lift, hlock]
  · unfold cancelReservation
    rw [run_bind, run_lift, hlock]

theorem exit_handler (cfg : Service) (env : Surroundings) (op : Op) (msg : Msg) (h : Thread)
    (s : WireServer) : Exit cfg env op msg s ((handler cfg env h op msg).run.run s).1
      ((handler cfg env h op msg).run.run s).2 := by
  rcases hlock : WireNode.lockOf cfg (msg.get "table_id") with text | (_ | t)
  · rw [run_handler_error hlock]
    exact .turnedDown _ (refusal_error text) (not_writes_lock (by simp [hlock]))
  · rw [run_handler_none hlock, run_unknownTable]
    refine .turnedDown _ ?_ (not_writes_lock (by simp [hlock]))
    cases fstr cfg env (msg.get "table_id") with
    | error text => exact refusal_error text
    | ok shown => exact refusal_errorMsg _
  · obtain ⟨htable, ht⟩ := WireNode.lockOf_eq_some.mp hlock
    cases hfree : s.tableLocks t with
    | some h' => exact exit_held hlock (by simp [hfree])
    | none =>
      cases hslot : slotText cfg env msg with
      | error text => exact exit_slot hlock hfree hslot
      | ok slot =>
        obtain ⟨hdate, htimeslot, -⟩ := slotText_eq_ok.mp hslot
        have he : Enters cfg env msg t s := ⟨htable, ht, hfree, hdate, htimeslot⟩
        by_cases hyes : op.Expects (s.reservations.get? (cfg.slotKey msg t).encode)
        · exact exit_proceeds ⟨he, hyes⟩
        · rw [run_conflict he hyes]
          exact .turnedDown _ (refusal_errorMsg _)
            (not_writes htable (fun _ hw => hw.expected) hyes)

/-! ## What the client gets -/

theorem printable_int (env : Surroundings) (n : Int) :
    Printable env (.int n) ↔ (Json.int n).tooLong = false := by
  have hflat : env.tooDeepToPrint (.int n) = false := by
    by_contra hdeep
    exact env.nested _ (by simpa using hdeep)
  unfold Printable
  simp [hflat]

theorem doneLine_eq_ok {ts : Int} (hdate : Printable env (msg.get "date"))
    (htimeslot : Printable env (msg.get "timeslot")) :
    (∃ line, doneLine cfg env op msg t ts = .ok line) ↔
      (op = .book → Printable env (msg.get "customer_name")) ∧
        (Json.int ts).tooLong = false := by
  rw [← printable_int env]
  unfold doneLine
  cases op <;>
    simp [bind_eq_ok, fstr_eq_ok, pure, Except.pure, hdate, htimeslot]

theorem failedLine_printable (hdate : Printable env (msg.get "date"))
    (htimeslot : Printable env (msg.get "timeslot")) :
    ∃ line, failedLine cfg env op msg t = .ok line := by
  unfold failedLine
  rw [fstr_printable hdate, fstr_printable htimeslot]
  exact ⟨_, rfl⟩

theorem sendMessage_eq_ok (message : Msg) : sendMessage env message = .ok () ↔
    (Json.dict message).tooLong = false ∧ ¬ Undelivered env message := by
  unfold sendMessage Undelivered
  cases env.tooDeepToEncode message <;> cases (Json.dict message).tooLong <;>
    cases env.sendall message <;> simp

/-- The stamp and what is carried over are all that can be too long in the answer. -/
theorem tooLong_confirmation (hw : Writes cfg env op msg t s) :
    (Json.dict (op.confirmation (recordOf cfg env op msg t s))).tooLong =
      ((Json.int (s.logicalClock + 1)).tooLong ||
        (Json.dict (carried cfg op msg t s)).tooLong) := by
  have hanswer (record : Msg) :
      (Json.dict (op.confirmation record)).tooLong = Json.tooLongFields record := by
    simp [Op.confirmation, Json.tooLong, Json.tooLongFields]
  rw [hanswer]
  unfold recordOf recordAt carried
  cases op with
  | cancel => exact Json.tooLongFields_set ..
  | book =>
    have hdate := hw.date.2
    have htimeslot := hw.timeslot.2
    have hstr (text : String) : (Json.str text).tooLong = false := rfl
    have hfloat (text : String) : (Json.float text).tooLong = false := rfl
    have hdict (fields : List (String × Json)) :
        (Json.dict fields).tooLong = Json.tooLongFields fields := rfl
    simp only [newRecord, hdict, Json.tooLongFields, hstr, hfloat, hdate, htimeslot,
      Bool.false_or, Bool.or_false]
    rw [Bool.or_comm (Json.int (s.logicalClock + 1)).tooLong]
    simp only [Bool.or_assoc]

theorem spoiled_iff (hw : Writes cfg env op msg t s) : Spoiled cfg env op msg t s ↔
    ¬ ((∃ line, doneLine cfg env op msg t (s.logicalClock + 1) = .ok line) ∧
      sendMessage env (op.confirmation (recordOf cfg env op msg t s)) = .ok ()) := by
  rw [doneLine_eq_ok hw.date hw.timeslot, sendMessage_eq_ok, tooLong_confirmation hw]
  unfold Spoiled
  cases (Json.int (s.logicalClock + 1)).tooLong <;>
    cases (Json.dict (carried cfg op msg t s)).tooLong <;> simp [or_iff_not_imp_left]

theorem not_confirmed_sendError (env : Surroundings) (text : String) :
    ¬ Confirmed (sendError env text) := by
  rintro ⟨response, hresponse, hok⟩
  unfold sendError at hresponse
  split at hresponse
  · obtain rfl := Option.some.inj hresponse
    simp [errorMsg, Msg.get, Msg.getD] at hok
  · cases hresponse

/-- A confirmation that gets through is the answer of the handler. -/
theorem confirmed_deliver {result : Except String Msg} : Confirmed (deliver env result) ↔
    ∃ response, result = .ok response ∧ sendMessage env response = .ok () ∧
      response.get "status" = .str "ok" := by
  unfold deliver
  cases result with
  | error text => simp [not_confirmed_sendError]
  | ok response =>
    cases hsend : sendMessage env response with
    | error text => simp [not_confirmed_sendError, hsend]
    | ok _ => simp [Confirmed, hsend]

theorem not_confirmed_refusal (env : Surroundings) {result : Except String Msg}
    (hresult : Refusal result) : ¬ Confirmed (deliver env result) := by
  rw [confirmed_deliver]
  rintro ⟨response, rfl, -, hok⟩
  rw [hresult response rfl] at hok
  simp at hok

theorem confirmation_status (record : Msg) :
    (op.confirmation record).get "status" = .str "ok" := rfl

theorem confirmed_written (hw : Writes cfg env op msg t s) :
    Confirmed (deliver env ((doneLine cfg env op msg t (s.logicalClock + 1)).map fun _ =>
      op.confirmation (recordOf cfg env op msg t s))) ↔ ¬ Spoiled cfg env op msg t s := by
  rw [confirmed_deliver, spoiled_iff hw, not_not]
  cases doneLine cfg env op msg t (s.logicalClock + 1) with
  | error text => simp [Except.map]
  | ok line => simp [Except.map, confirmation_status]

/-! ## All or nothing -/

theorem changed_wrote (hw : Writes cfg env op msg t s) : Changed cfg env op msg t s
    (wrote op (cfg.slotKey msg t) (recordOf cfg env op msg t s) s) where
  clock := rfl
  was := hw.expected
  becomes := by
    refine (get?_write ..).trans ((if_pos rfl).trans ?_)
    cases op <;> rfl
  elsewhere k hk := (get?_write ..).trans (if_neg hk)

theorem Changed.store_ne {s' : WireServer} (hc : Changed cfg env op msg t s s') :
    s'.reservations ≠ s.reservations := by
  intro hsame
  have hbecomes := hc.becomes
  have hwas := hc.was
  rw [hsame] at hbecomes
  rw [hbecomes] at hwas
  cases op <;> simp [Op.Expects, Op.effect] at hwas

theorem handleClient_written (hw : Writes cfg env op msg t s) :
    handleClient cfg env h op msg s =
      (deliver env ((doneLine cfg env op msg t (s.logicalClock + 1)).map fun _ =>
        op.confirmation (recordOf cfg env op msg t s)),
        wrote op (cfg.slotKey msg t) (recordOf cfg env op msg t s) s) := by
  have hexit := exit_handler cfg env op msg h s
  unfold handleClient
  generalize (handler cfg env h op msg).run.run s = ran at hexit ⊢
  obtain ⟨result, s'⟩ := ran
  cases hexit with
  | turnedDown result hresult hno | unreplicated result t' hresult hno => exact absurd hw (hno t)
  | written t' hw' =>
    obtain rfl := Json.str.inj (hw.table.symm.trans hw'.table)
    rfl

/-- Book and cancel keep the promise, unless something fails after the dict write. -/
theorem all_or_nothing_iff : AllOrNothing cfg env op msg s (handleClient cfg env h op msg s).1
    (handleClient cfg env h op msg s).2 ↔ ¬ FailsAfterWrite cfg env op msg s := by
  have hexit := exit_handler cfg env op msg h s
  unfold handleClient
  generalize (handler cfg env h op msg).run.run s = ran at hexit ⊢
  obtain ⟨result, s'⟩ := ran
  cases hexit with
  | turnedDown result hresult hno =>
    have hanswer := not_confirmed_refusal env hresult
    refine iff_of_true ?_ fun ⟨t, hw, _⟩ => hno t hw
    exact ⟨fun hc => absurd hc hanswer, fun _ => rfl, fun _ => (if_pos rfl).symm, rfl⟩
  | unreplicated result t hresult hno hrep =>
    have hanswer := not_confirmed_refusal env hresult
    refine iff_of_true ?_ fun ⟨t, hw, _⟩ => hno t hw
    refine ⟨fun hc => absurd hc hanswer, fun _ => rfl, fun _ => ?_, rfl⟩
    simp [hrep]
  | written t hw =>
    have hfails : FailsAfterWrite cfg env op msg s ↔ Spoiled cfg env op msg t s := by
      constructor
      · rintro ⟨t', hw', hspoiled⟩
        obtain rfl := Json.str.inj (hw.table.symm.trans hw'.table)
        exact hspoiled
      · exact fun hspoiled => ⟨t, hw, hspoiled⟩
    rw [hfails, ← confirmed_written hw]
    have hchanged := changed_wrote hw
    constructor
    · intro hall
      by_contra hno
      exact hchanged.store_ne (hall.store hno)
    · intro hc
      exact ⟨fun _ => ⟨t, hw.table, hchanged⟩, fun hno => absurd hc hno,
        fun hno => absurd hc hno, rfl⟩

end

/-! ## A stamp that cannot be printed -/

/-- Nothing goes wrong around the node. -/
def calm : Surroundings where
  time := "0.0"
  replicate _ := .ok true
  tooDeepToPrint _ := false
  tooDeepToEncode _ := false
  sendall _ := .ok ()
  nested := by simp

/-- Its time is the largest that `json.loads` takes. -/
def lateBooking : Msg :=
  [("action", .str "apply_replication"), ("operation", .str "book"),
    ("key", .list [.str "restaurant_1", .str "T2", .str "2026-05-01_18:00"]),
    ("reservation", .dict [("lamport_ts", .int (10 ^ maxStrDigits - 1))])]

/-- A backup that has taken that message, and has been promoted. -/
def promotedLate : WireServer where
  toWireNode := (WireNode.handleClient urbanBackup (.replica 0) lateBooking WireNode.fresh).2
  backUp := false
  replicator := none
  replications := []

theorem promotedLate_eq : promotedLate =
    { reservations := WireNode.fresh.reservations.set (dinnerKey "T2").encode
        [("lamport_ts", .int (10 ^ maxStrDigits - 1))]
      logicalClock := 10 ^ maxStrDigits
      tableLocks := fun _ => none
      backUp := false
      replicator := none
      replications := [] } := by
  have ha : WireNode.Admits urbanBackup WireNode.fresh lateBooking .book (.str "restaurant_1") "T2"
      (.str "2026-05-01_18:00") := ⟨rfl, rfl, by decide, rfl⟩
  have hclock : max (0 : Int) (10 ^ maxStrDigits - 1) + 1 = 10 ^ maxStrDigits := by
    have hpos : (0 : Int) < 10 ^ maxStrDigits := by positivity
    omega
  have hbranch : WireNode.branch .book (.str "restaurant_1") (.str "T2") (.str "2026-05-01_18:00")
      lateBooking WireNode.fresh = (.ok (),
        { reservations := WireNode.fresh.reservations.set (dinnerKey "T2").encode
            [("lamport_ts", .int (10 ^ maxStrDigits - 1))]
          logicalClock := max (0 : Int) (10 ^ maxStrDigits - 1) + 1
          tableLocks := fun _ => none }) := rfl
  unfold promotedLate
  rw [ha.handleClient, hbranch, hclock]

/-- Alice's booking is stored, and she is told that it has failed. -/
theorem stampTooLong_stored :
    let after := handleClient urbanBackup calm (.client 0) .book (dinner "T1" "Alice") promotedLate
    after.1 = some (errorMsg tooManyDigits) ∧
      (dinnerKey "T1").encode ∈ after.2.reservations.keys ∧
        ¬ AllOrNothing urbanBackup calm .book (dinner "T1" "Alice") promotedLate after.1
          after.2 := by
  have hlong : (Json.int (promotedLate.logicalClock + 1)).tooLong = true := by
    rw [promotedLate_eq]
    simp only [Json.tooLong, decide_eq_true_eq]
    have hcast : ((10 ^ maxStrDigits : Nat) : Int) = 10 ^ maxStrDigits := by push_cast; rfl
    omega
  have hw : Writes urbanBackup calm .book (dinner "T1" "Alice") "T1" promotedLate := by
    rw [promotedLate_eq]
    exact ⟨⟨⟨rfl, by decide, rfl, ⟨rfl, rfl⟩, ⟨rfl, rfl⟩⟩, rfl⟩, rfl⟩
  have hline : doneLine urbanBackup calm .book (dinner "T1" "Alice") "T1"
      (promotedLate.logicalClock + 1) = .error tooManyDigits := by
    have hstamp : fstr urbanBackup calm (.int (promotedLate.logicalClock + 1)) =
        .error tooManyDigits := by
      unfold fstr
      rw [hlong]
      rfl
    unfold doneLine
    rw [hstamp]
    rfl
  have hrun : handleClient urbanBackup calm (.client 0) .book (dinner "T1" "Alice") promotedLate =
      (some (errorMsg tooManyDigits), wrote .book (urbanBackup.slotKey (dinner "T1" "Alice") "T1")
        (recordOf urbanBackup calm .book (dinner "T1" "Alice") "T1" promotedLate)
        promotedLate) := by
    rw [handleClient_written hw, hline]
    rfl
  have hchanged := changed_wrote hw
  rw [hrun]
  refine ⟨rfl, ?_, fun hall => hchanged.store_ne (hall.store ?_)⟩
  · by_contra hno
    exact absurd (hchanged.becomes.symm.trans ((Dict.not_mem_keys_iff _ _).mp hno))
      (by simp [Op.effect])
  · exact not_confirmed_sendError calm tooManyDigits

end WireServer

end ReservationSystem
