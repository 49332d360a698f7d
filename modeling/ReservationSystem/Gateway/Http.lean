import ReservationSystem.Gateway.Failover
import ReservationSystem.Lib.Raising
import ReservationSystem.Lib.Url
import ReservationSystem.Lib.Utf8
import ReservationSystem.Values

/-!
# The gateway's requests

`GatewayHandler` in `gateway/gateway.py`: what it sends for a request, and which exceptions get
out of it.
-/

namespace ReservationSystem

open Gateway (Address)
open Numeral Raising Url

/-- What `json.loads` raises: an error that `_readBody` catches, or another one. -/
inductive LoadsError
  | jsonDecodeError
  | other (text : String)

/-- The gateway's configuration and what is around it. -/
structure Server where
  restaurantServiceMap : Dict String Address
  backupMap : Nat → Option Nat
  replicationHost : String
  loads : List Char → Except LoadsError Json
  /-- Why `urlparse` refuses a network location whose brackets match. -/
  odd : List Char → Option String
  /-- `str.isprintable` of a character beyond ASCII. -/
  printable : Char → Bool
  /-- The answers of the services while the request is handled. -/
  net : Address → Msg → Msg

/-- A response, with a body that `json.dumps` writes. -/
structure Sent where
  status : Nat
  data : Json

/-- A piece of a handler, which has sent some responses so far. -/
abbrev Responding := ExceptT String (StateM (List Sent))

namespace Server

/-- A value in an f-string. -/
def fstr (g : Server) : Json → String := Json.fstr g.printable

/-! ## Sending -/

/-- `_sendJson`. -/
def sendJson (status : Nat) (data : Json) : Responding Unit := modify (· ++ [⟨status, data⟩])

def errorData (text : String) : Json := .dict [("error", .str text)]

/-- `"unavailable" in v`. -/
def saysUnavailable : Json → Except String Bool
  | .str text => .ok (System.mentionsUnavailable text)
  | .list xs => .ok (.str "unavailable" ∈ xs)
  | .dict fields => .ok ("unavailable" ∈ fields.map Prod.fst)
  | v => .error ("argument of type '" ++ v.typeName ++ "' is not iterable")

def looksDown (response : Msg) : Except String Bool :=
  if response.get "status" = .str "error" then
    saysUnavailable (response.getD "message" (.str ""))
  else .ok false

def sendToServiceWithFailover (g : Server) (addr : Address) (message : Msg) :
    Except String Msg := do
  let response := g.net addr message
  if ← looksDown response then
    match g.backupMap addr.2 with
    | some backupPort => return g.net (g.replicationHost, backupPort) message
    | none => return response
  else return response

def getServiceAddress (g : Server) (restaurantId : Json) : Except String (Option Address) := do
  match ← restaurantId.hashed with
  | .str rid => return g.restaurantServiceMap.get? rid
  | _ => return none

/-- Look the restaurant up, ask it, and pass its answer on. -/
def forward (g : Server) (rid : Json) (message : Except String Msg) (status : Msg → Nat) :
    Responding Unit := do
  match ← liftM (g.getServiceAddress rid) with
  | none => sendJson 404 (errorData ("Restaurant '" ++ g.fstr rid ++ "' not found"))
  | some addr =>
    let resp ← liftM (message >>= g.sendToServiceWithFailover addr)
    sendJson (status resp) (.dict resp)

/-! ## GET -/

/-- `path.split("/")[2]`. -/
def restaurantOf (path : List Char) : Except String String :=
  match (path.splitOn '/')[2]? with
  | some rid => .ok (String.ofList rid)
  | none => .error "list index out of range"

/-- The text of the `ValueError` that `int(text)` raises. -/
def intError (text : List Char) : String :=
  let digits := (text.takeWhile fun c => (decimal? c).isSome).length
  if maxStrDigits < digits then
    "Exceeds the limit (4300 digits) for integer string conversion: value has " ++
      toString digits ++ " digits; use sys.set_int_max_str_digits() to increase the limit"
  else
    "invalid literal for int() with base 10: " ++
      String.ofList (('\'' :: text ++ ['\'']).take 200)

/-- The party size in the query, where 1 stands for a missing one and for what is no number. -/
def partySize (query : List Char) : Except String Int :=
  match firstOf query "party_size".toList with
  | none => .ok 1
  | some text =>
    if AllDigits text then
      match int? text with
      | some n => .ok n
      | none => .error (intError text)
    else .ok 1

def getInfoMessage : Msg := [("action", .str "get_info")]

def checkAvailabilityMessage (query : List Char) : Except String Msg := do
  let partySize ← partySize query
  return [
    ("action", .str "check_availability"),
    ("date", .str (String.ofList ((firstOf query "date".toList).getD []))),
    ("timeslot", .str (String.ofList ((firstOf query "timeslot".toList).getD []))),
    ("party_size", .int partySize)]

def listReservationsMessage (query : List Char) : Msg := [
  ("action", .str "list_reservations"),
  ("date", ((firstOf query "date".toList).map fun text => Json.str (String.ofList text)).getD
    .null)]

/-- An element of the list of restaurants. -/
def restaurantData (rid : String) (resp : Msg) : Json := .dict [
  ("restaurant_id", .str rid),
  ("name", resp.getD "name" (.str "")),
  ("cuisine", resp.getD "cuisine" (.str "")),
  ("address", resp.getD "address" (.str "")),
  ("menu_url", resp.getD "menu_url" (.str "")),
  ("description", resp.getD "description" (.str "")),
  ("price_range", resp.getD "price_range" (.str "")),
  ("rating", resp.getD "rating" (.int 0)),
  ("features", resp.getD "features" (.list [])),
  ("tables", resp.getD "tables" (.dict [])),
  ("timeslots", resp.getD "timeslots" (.list []))]

/-- The loop over `RESTAURANT_SERVICE_MAP`. -/
def restaurants (g : Server) : List (String × Address) → Except String (List Json)
  | [] => .ok []
  | (rid, addr) :: rest => do
    let resp ← g.sendToServiceWithFailover addr getInfoMessage
    let others ← g.restaurants rest
    return if resp.get "status" = .str "ok" then restaurantData rid resp :: others else others

/-- `do_GET`. -/
def doGet (g : Server) (target : List Char) : Responding Unit := do
  let parsed ← liftM (urlparse g.odd target)
  if parsed.path = "/restaurants".toList then
    let restaurants ← liftM (g.restaurants g.restaurantServiceMap.entries)
    sendJson 200 (.dict [("restaurants", .list restaurants)])
  else if "/availability".toList <:+: parsed.path then
    let rid ← liftM (restaurantOf parsed.path)
    g.forward (.str rid) (checkAvailabilityMessage parsed.query) fun _ => 200
  else if "/restaurants/".toList <+: parsed.path then
    let rid ← liftM (restaurantOf parsed.path)
    g.forward (.str rid) (.ok getInfoMessage) fun _ => 200
  else if "/reservations/".toList <+: parsed.path then
    let rid ← liftM (restaurantOf parsed.path)
    g.forward (.str rid) (.ok (listReservationsMessage parsed.query)) fun _ => 200
  else sendJson 404 (errorData "Not found")

/-! ## POST and DELETE -/

/-- `_readBody`, for a body of the announced length. `None` is `null` here. -/
def readBody (g : Server) (body : ByteArray) : Except String Json :=
  if body.size = 0 then .ok (.dict [])
  else
    match Utf8.decode body with
    | none => .ok .null
    | some text =>
      match g.loads text with
      | .ok v => .ok v
      | .error .jsonDecodeError => .ok .null
      | .error (.other text) => .error text

def bookMessage (body : Msg) : Msg := [
  ("action", .str "book"),
  ("table_id", body.get "table_id"),
  ("date", body.get "date"),
  ("timeslot", body.get "timeslot"),
  ("customer_name", body.get "customer_name"),
  ("party_size", body.getD "party_size" (.int 1)),
  ("contact", body.getD "contact" (.str ""))]

def cancelMessage (body : Msg) : Msg := [
  ("action", .str "cancel"),
  ("table_id", body.get "table_id"),
  ("date", body.get "date"),
  ("timeslot", body.get "timeslot")]

/-- What `do_POST` and `do_DELETE` share. `failed` is the status of an answer that is not ok. -/
def onReservations (g : Server) (message : Msg → Msg) (failed : Nat) (target : List Char)
    (body : ByteArray) : Responding Unit := do
  let parsed ← liftM (urlparse g.odd target)
  let body ← liftM (g.readBody body)
  if body = .null then sendJson 400 (errorData "Invalid JSON body")
  else if parsed.path = "/reservations".toList then
    let fields ← liftM body.fields
    let rid := fields.get "restaurant_id"
    if rid.truthy then
      g.forward rid (.ok (message fields)) fun resp =>
        if resp.get "status" = .str "ok" then 200 else failed
    else sendJson 400 (errorData "restaurant_id is required")
  else sendJson 404 (errorData "Not found")

/-- `do_POST`. -/
def doPost (g : Server) : List Char → ByteArray → Responding Unit :=
  g.onReservations bookMessage 409

/-- `do_DELETE`. -/
def doDelete (g : Server) : List Char → ByteArray → Responding Unit :=
  g.onReservations cancelMessage 400

end Server

end ReservationSystem
