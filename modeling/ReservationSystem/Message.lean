import Mathlib.Data.List.Basic
import ReservationSystem.Lib.Dict

/-!
# Values, records and messages

What the nodes store and what they send each other: `services/reservation_service.py`,
without the locks and the clock.
-/

namespace ReservationSystem

/-! ## JSON values -/

/-- A value that `json.loads` returns. A float is kept as the text Python prints for it. -/
inductive Json
  | null
  | bool (b : Bool)
  | int (n : Int)
  | float (text : String)
  | str (s : String)
  | list (xs : List Json)
  | dict (fields : List (String × Json))

mutual

def Json.decEq : (a b : Json) → Decidable (a = b)
  | .null, .null => isTrue rfl
  | .bool a, .bool b => decidable_of_iff (a = b) (by simp)
  | .int a, .int b => decidable_of_iff (a = b) (by simp)
  | .float a, .float b | .str a, .str b => decidable_of_iff (a = b) (by simp)
  | .list a, .list b => @decidable_of_iff _ (a = b) (by simp) (Json.decEqList a b)
  | .dict a, .dict b => @decidable_of_iff _ (a = b) (by simp) (Json.decEqFields a b)
  | .null, .bool _ | .null, .int _ | .null, .float _ | .null, .str _ | .null, .list _
  | .null, .dict _ | .bool _, .null | .bool _, .int _ | .bool _, .float _ | .bool _, .str _
  | .bool _, .list _ | .bool _, .dict _ | .int _, .null | .int _, .bool _ | .int _, .float _
  | .int _, .str _ | .int _, .list _ | .int _, .dict _ | .float _, .null | .float _, .bool _
  | .float _, .int _ | .float _, .str _ | .float _, .list _ | .float _, .dict _ | .str _, .null
  | .str _, .bool _ | .str _, .int _ | .str _, .float _ | .str _, .list _ | .str _, .dict _
  | .list _, .null | .list _, .bool _ | .list _, .int _ | .list _, .float _ | .list _, .str _
  | .list _, .dict _ | .dict _, .null | .dict _, .bool _ | .dict _, .int _ | .dict _, .float _
  | .dict _, .str _ | .dict _, .list _ => isFalse nofun

def Json.decEqList : (a b : List Json) → Decidable (a = b)
  | [], [] => isTrue rfl
  | x :: xs, y :: ys =>
    have := Json.decEq x y
    have := Json.decEqList xs ys
    decidable_of_iff (x = y ∧ xs = ys) (by simp)
  | [], _ :: _ | _ :: _, [] => isFalse nofun

def Json.decEqFields : (a b : List (String × Json)) → Decidable (a = b)
  | [], [] => isTrue rfl
  | (n, x) :: xs, (m, y) :: ys =>
    have := Json.decEq x y
    have := Json.decEqFields xs ys
    decidable_of_iff ((n = m ∧ x = y) ∧ xs = ys) (by simp)
  | [], _ :: _ | _ :: _, [] => isFalse nofun

end

instance : DecidableEq Json := Json.decEq

/-- A JSON object. -/
def Msg := List (String × Json)

instance : DecidableEq Msg := inferInstanceAs (DecidableEq (List (String × Json)))

/-- `msg.get(name, default)`. -/
def Msg.getD (msg : Msg) (name : String) (default : Json) : Json :=
  (msg.lookup name).getD default

/-- `msg.get(name)`. -/
def Msg.get (msg : Msg) (name : String) : Json := msg.getD name .null

/-- `msg[name] = v`. -/
def Msg.set (msg : Msg) (name : String) (v : Json) : Msg :=
  if name ∈ msg.map Prod.fst then msg.map fun field => if field.1 = name then (name, v) else field
  else List.concat msg (name, v)

/-! ## What Python prints -/

def quotationMark : Char := Char.ofNat 0x22

/-- `n` with `width` hexadecimal digits. -/
def hex (width n : Nat) : List Char :=
  let digits := Nat.toDigits 16 n
  List.replicate (width - digits.length) '0' ++ digits

/-- A character inside a quoted text. `printable` is `str.isprintable` beyond ASCII. -/
def escape (printable : Char → Bool) (quote c : Char) : List Char :=
  if c = quote ∨ c = '\\' then ['\\', c]
  else if c = '\t' then ['\\', 't']
  else if c = '\n' then ['\\', 'n']
  else if c = '\r' then ['\\', 'r']
  else if c.toNat < 0x20 ∨ c.toNat = 0x7f then '\\' :: 'x' :: hex 2 c.toNat
  else if c.toNat < 0x7f ∨ printable c then [c]
  else if c.toNat ≤ 0xff then '\\' :: 'x' :: hex 2 c.toNat
  else if c.toNat ≤ 0xffff then '\\' :: 'u' :: hex 4 c.toNat
  else '\\' :: 'U' :: hex 8 c.toNat

/-- `repr` of a string. -/
def quoted (printable : Char → Bool) (text : String) : String :=
  let quote :=
    if '\'' ∈ text.toList ∧ quotationMark ∉ text.toList then quotationMark else '\''
  String.ofList (quote :: text.toList.flatMap (escape printable quote) ++ [quote])

mutual

/-- `repr(v)`. -/
def Json.repr (printable : Char → Bool) : Json → String
  | .null => "None"
  | .bool b => if b then "True" else "False"
  | .int n => toString n
  | .float text => text
  | .str s => quoted printable s
  | .list xs => "[" ++ ", ".intercalate (Json.reprList printable xs) ++ "]"
  | .dict fields => "\x7b" ++ ", ".intercalate (Json.reprFields printable fields) ++ "\x7d"

def Json.reprList (printable : Char → Bool) : List Json → List String
  | [] => []
  | v :: vs => v.repr printable :: Json.reprList printable vs

def Json.reprFields (printable : Char → Bool) : List (String × Json) → List String
  | [] => []
  | (name, v) :: fields =>
    (quoted printable name ++ ": " ++ v.repr printable) :: Json.reprFields printable fields

end

/-- What an f-string shows of `v`, which is `str(v)`. An integer that `json.loads` returns has at
most 4300 digits, so `str` does not refuse it. -/
def Json.fstr (printable : Char → Bool) : Json → String
  | .str s => s
  | v => v.repr printable

/-! ## Records -/

abbrev TableId := String

/-- `(restaurant_id, table_id, f"{date}_{timeslot}")`. -/
abbrev Key := String × TableId × String

/-- The table whose lock guards a key. -/
def Key.table (k : Key) : TableId := k.2.1

/-- `_key_to_list`. -/
def keyToList (k : Key) : List String := [k.1, k.2.1, k.2.2]

theorem keyToList_inj {k k' : Key} (h : keyToList k = keyToList k') : k = k' := by
  obtain ⟨r, t, slot⟩ := k
  obtain ⟨r', t', slot'⟩ := k'
  simpa [keyToList] using h

/-- A stored reservation. `createdAt` is a reading of `time.time()`. -/
structure Reservation where
  restaurantId : String
  tableId : TableId
  date : Json
  timeslot : Json
  customerName : Json
  partySize : Json
  contact : Json
  createdAt : Nat
  lamportTs : Nat

/-- A record without its times. -/
def Reservation.untimed (res : Reservation) : Reservation :=
  { res with createdAt := 0, lamportTs := 0 }

inductive Op
  | book
  | cancel
  deriving DecidableEq, Repr

/-- What a write of a record leaves under its key. -/
def Op.effect {ρ : Type*} : Op → ρ → Option ρ
  | .book, res => some res
  | .cancel, _ => none

section
variable {κ ρ : Type*} [DecidableEq κ]

/-- A write to `self.reservations`. -/
def Op.write : Op → Dict κ ρ → κ → ρ → Dict κ ρ
  | .book, store, k, res => store.set k res
  | .cancel, store, k, _ => store.erase k

theorem get?_write (op : Op) (store : Dict κ ρ) (k k' : κ) (res : ρ) :
    (op.write store k res).get? k' = if k' = k then op.effect res else store.get? k' := by
  cases op with
  | book => exact Dict.get?_set store k k' res
  | cancel => exact Dict.get?_erase store k k'

end

/-! ## Messages -/

/-- An `apply_replication` message, as `_replicate_book` and `_replicate_cancel` build it. -/
structure ReplicationMsg where
  operation : Op
  key : List String
  reservation : Reservation

/-- What the message leaves under its key. -/
def ReplicationMsg.effect (msg : ReplicationMsg) : Option Reservation :=
  msg.operation.effect msg.reservation

inductive Request
  | book (msg : Msg)
  | cancel (msg : Msg)
  | applyReplication (msg : ReplicationMsg)

def Request.op : Request → Op
  | .book _ => .book
  | .cancel _ => .cancel
  | .applyReplication msg => msg.operation

/-- The request comes from a client, through the gateway. -/
def Request.IsClient : Request → Prop
  | .book _ | .cancel _ => True
  | .applyReplication _ => False

instance (req : Request) : Decidable req.IsClient :=
  match req with
  | .book _ | .cancel _ => isTrue trivial
  | .applyReplication _ => isFalse id

inductive Status
  | ok
  | error
  deriving DecidableEq, Repr

/-- A response. `message` is empty where the source sends none, and `record` is the
`"reservation"` or the `"cancelled"` of an answer with status ok. -/
structure Response where
  status : Status
  message : String
  record : Option Reservation

def Response.untimed (resp : Response) : Response :=
  { resp with record := resp.record.map .untimed }

/-- `{"status": "error", "message": text}`. -/
def errorAnswer (text : String) : Response := ⟨.error, text, none⟩

@[simp]
theorem errorAnswer_status (text : String) : (errorAnswer text).status = .error := rfl

/-! ## The restaurant -/

structure TableInfo where
  capacity : Nat
  location : String

/-- What a node knows from its constructor on. `printable` is `str.isprintable` of a character
beyond ASCII, and `backupTarget` is `BACKUP_MAP.get(self.port)`. -/
structure Service where
  restaurantId : String
  tables : Dict TableId TableInfo
  printable : Char → Bool
  backupTarget : Option Nat

/-- A value in an f-string. -/
def Service.fstr (cfg : Service) : Json → String := Json.fstr cfg.printable

/-- `table_id not in self.restaurant_info["tables"]`, and the answer when that is so.
Python hashes the value first, which fails for a list or an object. -/
def Service.refuse (cfg : Service) (tableId : Json) : Option Response :=
  match tableId with
  | .list _ => some (errorAnswer "unhashable type: 'list'")
  | .dict _ => some (errorAnswer "unhashable type: 'dict'")
  | .str t =>
    if t ∈ cfg.tables.keys then none
    else some (errorAnswer ("Table " ++ cfg.fstr tableId ++ " does not exist"))
  | _ => some (errorAnswer ("Table " ++ cfg.fstr tableId ++ " does not exist"))

theorem refuse_eq_none {cfg : Service} {v : Json} :
    cfg.refuse v = none ↔ ∃ t ∈ cfg.tables.keys, v = .str t := by
  cases v with
  | str t =>
    unfold Service.refuse
    simp only [Json.str.injEq, exists_eq_right']
    split_ifs with ht <;> simp [ht]
  | _ => simp [Service.refuse]

/-- The answer to a request that is turned down before it asks for a lock. -/
def Service.precheck (cfg : Service) : Request → Option Response
  | .book msg | .cancel msg => cfg.refuse (msg.get "table_id")
  | .applyReplication msg =>
    match msg.key with
    | [_, t, _] => if t ∈ cfg.tables.keys then none else some (errorAnswer "Unknown table")
    | _ => some (errorAnswer "Invalid replication payload")

/-- The table of a request that was admitted. -/
def Request.table : Request → TableId
  | .book msg | .cancel msg =>
    match msg.get "table_id" with
    | .str t => t
    | _ => ""
  | .applyReplication msg =>
    match msg.key with
    | [_, t, _] => t
    | _ => ""

/-- The key of a request that was admitted. -/
def Request.key (cfg : Service) : Request → Key
  | .book msg =>
    (cfg.restaurantId, (Request.book msg).table,
      cfg.fstr (msg.get "date") ++ "_" ++ cfg.fstr (msg.get "timeslot"))
  | .cancel msg =>
    (cfg.restaurantId, (Request.cancel msg).table,
      cfg.fstr (msg.get "date") ++ "_" ++ cfg.fstr (msg.get "timeslot"))
  | .applyReplication msg =>
    match msg.key with
    | [r, t, slot] => (r, t, slot)
    | _ => ("", "", "")

/-- Requests for one key take one lock. -/
@[simp]
theorem key_table (cfg : Service) (req : Request) : (req.key cfg).table = req.table := by
  cases req with
  | book msg => rfl
  | cancel msg => rfl
  | applyReplication msg =>
    simp only [Request.key, Request.table]
    split <;> rfl

/-- A key survives the trip through a JSON list. -/
@[simp]
theorem key_of_keyToList (cfg : Service) (op : Op) (k : Key) (res : Reservation) :
    (Request.applyReplication ⟨op, keyToList k, res⟩).key cfg = k := rfl

/-- An admitted message carries its key, which is on a table of the restaurant. -/
theorem message_admitted {cfg : Service} {msg : ReplicationMsg}
    (hpre : cfg.precheck (.applyReplication msg) = none) :
    msg.key = keyToList ((Request.applyReplication msg).key cfg) ∧
      (Request.applyReplication msg).table ∈ cfg.tables.keys := by
  simp only [Service.precheck] at hpre
  simp only [Request.key, Request.table]
  split at hpre
  case h_1 heq =>
    split_ifs at hpre with ht
    exact ⟨by simp only [heq, keyToList], by simpa only [heq] using ht⟩
  case h_2 => simp at hpre

/-- The record that `_bookTable` builds. -/
def newReservation (cfg : Service) (msg : Msg) (now ts : Nat) : Reservation where
  restaurantId := cfg.restaurantId
  tableId := (Request.book msg).table
  date := msg.get "date"
  timeslot := msg.get "timeslot"
  customerName := msg.get "customer_name"
  partySize := msg.getD "party_size" (.int 1)
  contact := msg.getD "contact" (.str "")
  createdAt := now
  lamportTs := ts

/-! ## A restaurant to try things on -/

/-- `restaurant_1` of `data/restaurants.json` with two of its tables, on its primary. -/
def urbanPlates : Service where
  restaurantId := "restaurant_1"
  tables := ⟨[("T1", ⟨2, "window"⟩), ("T2", ⟨2, "window"⟩)], by decide⟩
  printable _ := true
  backupTarget := some 7001

/-- The same restaurant on its backup. -/
def urbanBackup : Service := { urbanPlates with backupTarget := none }

/-- A message for table `t` at 18:00 on 2026-05-01. -/
def dinner (t name : String) : Msg :=
  [("table_id", .str t), ("date", .str "2026-05-01"), ("timeslot", .str "18:00"),
    ("customer_name", .str name), ("party_size", .int 2)]

/-- The key of `dinner`. -/
def dinnerKey (t : String) : Key := ("restaurant_1", t, "2026-05-01_18:00")

end ReservationSystem
