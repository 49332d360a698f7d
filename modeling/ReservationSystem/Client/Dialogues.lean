import ReservationSystem.Client.Match
import ReservationSystem.Gateway.Answering

/-!
# The dialogues of the client

`makeReservation`, `cancelReservation` and `modifyReservation`: what they send, for the lines that
the user types and the answers that they get. What they print is left out.
-/

namespace ReservationSystem

open Numeral

/-! ## Menus -/

/-- `line.strip()`. -/
def stripped (line : String) : String :=
  String.ofList ((line.toList.dropWhile isSpace).reverse.dropWhile isSpace).reverse

/-- The entry of a menu that the user picks, if any. The entries are numbered from 1 on. -/
def pick {α : Type} (entries : List α) (line : String) : Option α := do
  let choice := stripped line
  guard (choice ≠ "0")
  let number ← int? choice.toList
  guard (0 ≤ number - 1)
  entries[(number - 1).toNat]?

/-! ## `makeReservation` -/

/-- What the client reads of a restaurant. -/
structure Restaurant where
  restaurantId : String
  timeslots : List String

/-- The lines in the order of the prompts. Those for `accept` and `other` are not always asked
for. -/
structure BookingLines where
  restaurant : String
  date : String
  timeslot : String
  partySize : String
  preference : String
  accept : String
  other : String
  customer : String
  contact : String

/-- What the client asks the restaurant. -/
structure Ask where
  restaurantId : String
  date : String
  timeslot : String
  partySize : Int

/-- What the user has decided on. -/
structure Choice where
  table : TableOffer
  customer : String
  contact : String

/-- `getNextWeekDates`, where `strftime` gives the text of a day. -/
def getNextWeekDates (strftime : Nat → String) (today : Nat) : List String :=
  (List.range 7).map fun i => strftime (today + i)

namespace BookingLines

/-- The dialogue up to the party size. -/
def ask (lines : BookingLines) (restaurants : List Restaurant) (dates : List String) :
    Option Ask := do
  let picked ← pick restaurants lines.restaurant
  guard (picked.restaurantId ≠ "")
  let rest ← restaurants.find? (·.restaurantId = picked.restaurantId)
  let date ← pick dates lines.date
  guard (date ≠ "")
  let timeslot ← pick rest.timeslots lines.timeslot
  guard (timeslot ≠ "")
  guard (stripped lines.partySize ≠ "")
  let partySize ← int? (stripped lines.partySize).toList
  return ⟨picked.restaurantId, date, timeslot, partySize⟩

/-- The table, after the question that is asked when the best one is elsewhere. -/
def accepted (lines : BookingLines) (lower : String → String) (tables : List TableOffer)
    (best : TableOffer) : Option TableOffer :=
  let preference := stripped lines.preference
  if preference ≠ "" ∧ best.isAt lower preference = false ∧ lower (stripped lines.accept) ≠ "y" then
    pick tables lines.other
  else some best

/-- The dialogue about the tables that are offered. -/
def choose (lines : BookingLines) (lower : String → String) (tables : List TableOffer) :
    Option Choice := do
  let preference := stripped lines.preference
  let best ← matchTableFor lower (if preference = "" then none else some preference) tables
  let table ← lines.accepted lower tables best
  guard (stripped lines.customer ≠ "")
  return ⟨table, stripped lines.customer, stripped lines.contact⟩

end BookingLines

namespace Ask

variable (a : Ask)

/-- The path of the request for the tables. -/
def path : String :=
  "/restaurants/" ++ a.restaurantId ++ "/availability?date=" ++ a.date ++ "&timeslot=" ++
    a.timeslot ++ "&party_size=" ++ toString a.partySize

/-- The body of the request for the booking. -/
def body (choice : Choice) : Msg := [
  ("restaurant_id", .str a.restaurantId),
  ("table_id", .str choice.table.tableId),
  ("date", .str a.date),
  ("timeslot", .str a.timeslot),
  ("customer_name", .str choice.customer),
  ("party_size", .int a.partySize),
  ("contact", .str choice.contact)]

/-- What the restaurant is asked. The gateway takes a minus sign for no number at all. -/
def message : Msg := [
  ("action", .str "check_availability"),
  ("date", .str a.date),
  ("timeslot", .str a.timeslot),
  ("party_size", .int (if 0 ≤ a.partySize then a.partySize else 1))]

end Ask

/-! ## `cancelReservation` -/

structure CancelLines where
  restaurant : String
  choice : String
  confirm : String

namespace CancelLines

/-- The restaurant whose reservations are listed. -/
def ask (lines : CancelLines) (restaurants : List Restaurant) : Option String := do
  let picked ← pick restaurants lines.restaurant
  guard (picked.restaurantId ≠ "")
  return picked.restaurantId

/-- The record that the user has confirmed to cancel. -/
def choose (lines : CancelLines) (lower : String → String) (reservations : List Reservation) :
    Option Reservation := do
  let res ← pick reservations lines.choice
  guard (lower (stripped lines.confirm) = "y")
  return res

end CancelLines

/-- The body of the request that cancels `res`. -/
def cancelBody (rid : String) (res : Reservation) : Msg := [
  ("restaurant_id", .str rid),
  ("table_id", .str res.tableId),
  ("date", res.date),
  ("timeslot", res.timeslot)]

/-! ## `modifyReservation` -/

/-- The lines after that for the restaurant. -/
structure ModifyLines where
  choice : String
  date : String
  timeslot : String
  partySize : String

namespace ModifyLines

def typed (lines : ModifyLines) : Typed where
  date := stripped lines.date
  timeslot := stripped lines.timeslot
  party :=
    if stripped lines.partySize = "" then .empty
    else
      match int? (stripped lines.partySize).toList with
      | some n => .size n
      | none => .invalid

/-- The change that the user asks for. -/
def choose (lines : ModifyLines) (cfg : Service) (reservations : List Reservation) :
    Option Modification := do
  let existing ← pick reservations lines.choice
  lines.typed.modification cfg existing

end ModifyLines

/-- The body of the request that books a record like `res`. -/
def bookBody (rid : String) (res : Reservation) : Msg := [
  ("restaurant_id", .str rid),
  ("table_id", .str res.tableId),
  ("date", res.date),
  ("timeslot", res.timeslot),
  ("customer_name", res.customerName),
  ("party_size", res.partySize),
  ("contact", res.contact)]

/-- `resp.get("available_tables", [])`. -/
def Reply.tables : Reply → List TableOffer
  | .availability _ _ _ tables => tables
  | _ => []

namespace Modification

variable (m : Modification)

/-- The write that the gateway makes of the request of a stage. -/
def write? (rid : String) : Stage → Option Request
  | .cancelling => some (.cancel (Server.cancelMessage (cancelBody rid m.existing)))
  | .booking t => some (.book (Server.bookMessage (bookBody rid (m.modified t))))
  | .restoring => some (.book (Server.bookMessage (bookBody rid m.existing)))
  | .querying | .returned | .aborted => none

/-- Where the client goes on after a reply. -/
def next : Stage → Reply → Stage
  | .cancelling, reply => if reply.status = .ok then .querying else .returned
  | .querying, reply =>
    match matchTable reply.tables with
    | none => .restoring
    | some best => .booking best.tableId
  | .booking _, reply => if reply.status = .ok then .returned else .restoring
  | .restoring, _ | .returned, _ => .returned
  | .aborted, _ => .aborted

end Modification

/-! ## What is sent -/

section
variable {α : Type} {entries : List α} {line : String} {x : α} {restaurants : List Restaurant}
  {dates : List String} {lower : String → String} {tables : List TableOffer} {a : Ask}
  {choice : Choice} {res : Reservation} {reservations : List Reservation}

theorem pick_mem (h : pick entries line = some x) : x ∈ entries := by
  simp only [pick, Option.bind_eq_bind, Option.bind_eq_some_iff] at h
  obtain ⟨-, -, _, -, -, -, h⟩ := h
  exact List.mem_of_getElem? h

theorem matchTableFor_mem {preference : Option String} {best : TableOffer}
    (h : matchTableFor lower preference tables = some best) : best ∈ tables := by
  rw [← List.mem_insertionSort (·.capacity ≤ ·.capacity)]
  unfold matchTableFor at h
  simp only at h
  split at h
  · next hpreferred =>
    obtain rfl := Option.some.inj h
    split at hpreferred
    · cases hpreferred
    · cases hpreferred
    · exact (List.mem_filter.mp (hpreferred ▸ List.mem_cons_self)).1
  · exact List.mem_of_mem_head? h

/-- What is asked is about a restaurant of the list, a date of the week and a timeslot of the
restaurant. -/
theorem BookingLines.ask_spec {lines : BookingLines} (h : lines.ask restaurants dates = some a) :
    (∃ r ∈ restaurants, r.restaurantId = a.restaurantId ∧ a.timeslot ∈ r.timeslots) ∧
      a.date ∈ dates ∧ a.restaurantId ≠ "" ∧ a.date ≠ "" ∧ a.timeslot ≠ "" ∧
      a.partySize.natAbs < 10 ^ maxStrDigits := by
  simp only [ask, Option.bind_eq_bind, Option.bind_eq_some_iff, Option.guard_eq_some'] at h
  obtain ⟨picked, -, -, hrid, rest, hrest, date, hdate, -, hdne, timeslot, hslot, -, hsne, -, -,
    n, hn, h⟩ := h
  obtain rfl := Option.some.inj h
  have hname : rest.restaurantId = picked.restaurantId := by simpa using List.find?_some hrest
  exact ⟨⟨rest, List.mem_of_find?_eq_some hrest, hname, pick_mem hslot⟩, pick_mem hdate, hrid, hdne,
    hsne, int?_lt hn⟩

/-- The user ends up with a table that was offered. -/
theorem BookingLines.choose_spec {lines : BookingLines}
    (h : lines.choose lower tables = some choice) :
    choice.table ∈ tables ∧ choice.customer ≠ "" := by
  simp only [choose, Option.bind_eq_bind, Option.bind_eq_some_iff, Option.guard_eq_some'] at h
  obtain ⟨best, hbest, table, htable, -, hcustomer, h⟩ := h
  obtain rfl := Option.some.inj h
  refine ⟨?_, hcustomer⟩
  unfold accepted at htable
  simp only at htable
  split_ifs at htable
  · exact pick_mem htable
  · obtain rfl := Option.some.inj htable
    exact matchTableFor_mem hbest

theorem ModifyLines.choose_mem {lines : ModifyLines} {cfg : Service} {m : Modification}
    (h : lines.choose cfg reservations = some m) : m.existing ∈ reservations ∧ m.cfg = cfg := by
  simp only [choose, Typed.modification, Option.bind_eq_bind, Option.bind_eq_some_iff,
    Option.map_eq_some_iff] at h
  obtain ⟨existing, hexisting, party, -, rfl⟩ := h
  exact ⟨pick_mem hexisting, rfl⟩

theorem CancelLines.choose_mem {lines : CancelLines}
    (h : lines.choose lower reservations = some res) : res ∈ reservations := by
  simp only [choose, Option.bind_eq_bind, Option.bind_eq_some_iff] at h
  obtain ⟨res', hres, -, -, h⟩ := h
  obtain rfl := Option.some.inj h
  exact pick_mem hres

end

end ReservationSystem
