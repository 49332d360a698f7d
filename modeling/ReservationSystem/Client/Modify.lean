import Mathlib.Data.List.Sort
import ReservationSystem.Node.Queries
import ReservationSystem.Node.Senders

/-!
# Modifying a reservation

`modifyReservation` of the client, from the user's last line on: cancel, availability, book, and
book again what was cancelled when that fails. Each call can arrive or not, and its answer can
arrive or not. Between its calls and during them, the node serves other clients. A run is over
when the client has returned.
-/

namespace ReservationSystem

/-! ## What the user types -/

/-- The line for the new party size: empty, a number, or one that `int` refuses. -/
inductive PartyLine
  | empty
  | size (n : Int)
  | invalid

/-- The lines after `strip`. -/
structure Typed where
  date : String
  timeslot : String
  party : PartyLine

/-- `line or old`. -/
def orOld (line : String) (old : Json) : Json := if line = "" then old else .str line

/-- `existing` is the record that the user has picked. -/
structure Modification where
  cfg : Service
  existing : Reservation
  newDate : Json
  newTimeslot : Json
  newParty : Json

/-- Without a result, the user has seen "Invalid party size." and no call is made. -/
def Typed.modification (typed : Typed) (cfg : Service) (existing : Reservation) :
    Option Modification :=
  (match typed.party with
    | .empty => some existing.partySize
    | .size n => some (.int n)
    | .invalid => none).map fun party =>
      { cfg := cfg
        existing := existing
        newDate := orOld typed.date existing.date
        newTimeslot := orOld typed.timeslot existing.timeslot
        newParty := party }

/-! ## The calls -/

/-- `str.isspace` for one character. -/
def isSpace (c : Char) : Bool :=
  let n := c.toNat
  9 ≤ n && n ≤ 13 || 28 ≤ n && n ≤ 32 || n = 133 || n = 160 || n = 5760 || 8192 ≤ n && n ≤ 8202 ||
    n = 8232 || n = 8233 || n = 8239 || n = 8287 || n = 12288

/-- What `urllib` makes of a path: it strips the end, and drops what follows the last `#`. -/
def selector (path : List Char) : List Char :=
  let path := (path.reverse.dropWhile isSpace).reverse
  if '#' ∈ path then ((path.reverse.dropWhile (· ≠ '#')).drop 1).reverse else path

/-- `http.client` refuses blanks and control characters with `InvalidURL`, and other characters
outside of ASCII with `UnicodeEncodeError`. `httpGet` catches neither. -/
def sendable (path : String) : Bool :=
  (selector path.toList).all fun c => 33 ≤ c.toNat && c.toNat ≤ 126

/-- `matchTable` without a preference: the first of the smallest. -/
def matchTable (tables : List TableOffer) : Option TableOffer :=
  (tables.insertionSort (·.capacity ≤ ·.capacity)).head?

namespace Modification

variable (m : Modification)

def availabilityPath : String :=
  "/restaurants/" ++ m.cfg.restaurantId ++ "/availability?date=" ++ m.cfg.fstr m.newDate ++
    "&timeslot=" ++ m.cfg.fstr m.newTimeslot ++ "&party_size=" ++ m.cfg.fstr m.newParty

def cancelRequest : Request :=
  .cancel
    [("table_id", .str m.existing.tableId), ("date", m.existing.date),
      ("timeslot", m.existing.timeslot)]

/-- The request for a record like `res`. -/
def bookRequest (res : Reservation) : Request :=
  .book
    [("table_id", .str res.tableId), ("date", res.date), ("timeslot", res.timeslot),
      ("customer_name", res.customerName), ("party_size", res.partySize),
      ("contact", res.contact)]

/-- The reservation that the user wants, on table `t`. -/
def modified (t : TableId) : Reservation :=
  { m.existing with
    tableId := t
    date := m.newDate
    timeslot := m.newTimeslot
    partySize := m.newParty }

end Modification

/-! ## The steps -/

inductive Stage
  | cancelling
  | querying
  | booking (t : TableId)
  | restoring
  | returned
  | aborted

def Stage.Finished : Stage → Prop
  | .returned | .aborted => True
  | _ => False

instance (stage : Stage) : Decidable stage.Finished :=
  match stage with
  | .returned | .aborted => isTrue trivial
  | .cancelling | .querying | .booking _ | .restoring => isFalse id

/-- `call` is the thread of the node that has taken the request the client waits for, and `calls`
are all that have taken one of its requests. `printed` has the lines about restoring. -/
structure Client where
  node : Node
  stage : Stage
  call : Option Thread
  calls : List Thread
  printed : List String

def restoredLine : String := "Original reservation restored."

namespace Client

def start (node : Node) : Client := ⟨node, .cancelling, none, [], []⟩

/-- `raised` is an exception that none of the three HTTP functions catches, and `failed` is a
response with status error that is not the node's. `offered` is the list in the answer to the
query, empty for an error. -/
inductive Event
  | node (e : Node.Event)
  | post (h : Thread)
  | answered
  | failed
  | offered (tables : List TableOffer)
  | raised

/-- The request of a stage that changes the store. -/
def request (m : Modification) : Stage → Option Request
  | .cancelling => some m.cancelRequest
  | .booking t => some (Modification.bookRequest (m.modified t))
  | .restoring => some (Modification.bookRequest m.existing)
  | .querying | .returned | .aborted => none

def goTo (s : Client) (stage : Stage) (lines : List String) : Client :=
  { s with stage := stage, call := none, printed := s.printed ++ lines }

/-- The client reads the status of a response. -/
def resume (s : Client) (status : Status) : Option Client :=
  match s.stage, status with
  | .cancelling, .ok => some (s.goTo .querying [])
  | .cancelling, .error => some (s.goTo .returned [])
  | .booking _, .ok => some (s.goTo .returned [])
  | .booking _, .error =>
    some (s.goTo .restoring ["Modification failed. Restoring original reservation..."])
  | .restoring, _ => some (s.goTo .returned [restoredLine])
  | .querying, _ | .returned, _ | .aborted, _ => none

def step (m : Modification) (s : Client) : Event → Option Client
  | .node e =>
    if s.stage.Finished then none
    else (s.node.step m.cfg e).map fun node => { s with node := node }
  | .post h =>
    if s.call = none then
      (request m s.stage).bind fun req =>
        (s.node.step m.cfg (.receive h req)).map fun node =>
          { s with node := node, call := some h, calls := h :: s.calls }
    else none
  | .answered =>
    s.call.bind fun h => (s.node.handlers h).bind fun hd =>
      match hd.phase with
      | .done resp => s.resume resp.status
      | _ => none
  | .failed => s.resume .error
  | .offered tables =>
    match s.stage, sendable m.availabilityPath, matchTable tables with
    | .querying, true, none =>
      some (s.goTo .restoring
        ["No tables available at new time. Restoring original reservation..."])
    | .querying, true, some best => some (s.goTo (.booking best.tableId) [])
    | _, _, _ => none
  | .raised => if s.stage.Finished then none else some (s.goTo .aborted [])

end Client

end ReservationSystem
