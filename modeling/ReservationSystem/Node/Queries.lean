import ReservationSystem.Comparison
import ReservationSystem.Node.Spec

/-!
# Requests that only read

`_getRestaurantInfo`, `_checkAvailability`, `_listReservations`, and the answer to an action
that no handler knows. None of them takes a lock.
-/

namespace ReservationSystem

/-- The fields of `self.restaurant_info` besides the tables. -/
structure Catalogue where
  info : Msg

inductive Query
  | getInfo
  | checkAvailability (msg : Msg)
  | listReservations (msg : Msg)
  | unknown (action : Json)

/-- What the gateway asks of a node. -/
inductive Demand
  | read (q : Query)
  | write (req : Request)

def Demand.IsClient : Demand → Prop
  | .read _ => True
  | .write req => req.IsClient

instance (demand : Demand) : Decidable demand.IsClient :=
  match demand with
  | .read _ => isTrue trivial
  | .write req => inferInstanceAs (Decidable req.IsClient)

/-! ## Answers -/

structure RestaurantInfo where
  restaurantId : String
  name : Json
  cuisine : Json
  address : Json
  menuUrl : Json
  description : Json
  priceRange : Json
  rating : Json
  features : Json
  tables : Dict TableId TableInfo
  timeslots : Json

structure TableOffer where
  tableId : TableId
  capacity : Nat
  location : String
  deriving DecidableEq, Repr

/-- What a node answers to any request of the gateway. -/
inductive Reply
  | written (resp : Response)
  | info (info : RestaurantInfo)
  | availability (restaurantId : String) (date timeslot : Json) (tables : List TableOffer)
  | reservations (results : List Reservation) (count : Nat)

def Reply.status : Reply → Status
  | .written resp => resp.status
  | _ => .ok

/-- `response.get("message", "")`. -/
def Reply.message : Reply → String
  | .written resp => resp.message
  | _ => ""

/-- The answer of `_handleClient` to an exception. -/
def Reply.raised (text : String) : Reply := .written (errorAnswer text)

/-! ## Handlers -/

/-- `_getRestaurantInfo`. -/
def Service.getRestaurantInfo (cfg : Service) (cat : Catalogue) : Reply :=
  match cat.info.lookup "name", cat.info.lookup "timeslots" with
  | none, _ => .raised "'name'"
  | some _, none => .raised "'timeslots'"
  | some name, some timeslots =>
    .info
      { restaurantId := cfg.restaurantId
        name := name
        cuisine := cat.info.getD "cuisine" (.str "")
        address := cat.info.getD "address" (.str "")
        menuUrl := cat.info.getD "menu_url" (.str "")
        description := cat.info.getD "description" (.str "")
        priceRange := cat.info.getD "price_range" (.str "")
        rating := cat.info.getD "rating" (.int 0)
        features := cat.info.getD "features" (.list [])
        tables := cfg.tables
        timeslots := timeslots }

/-- The text of the `TypeError`. -/
def notComparable (type : String) : String :=
  "'<' not supported between instances of 'int' and '" ++ type ++ "'"

/-- `table_info["capacity"] < party_size`. -/
def tooSmall (capacity : Nat) (partySize : Json) : Except String Bool :=
  match partySize.number? with
  | some size => .ok ((Number.finite capacity 0).lt size)
  | none => .error (notComparable partySize.typeName)

/-- The loop of `_checkAvailability`. `taken t` is what it reads for the key on `t`. -/
def availableTables (partySize : Json) (taken : TableId → Bool) :
    List (TableId × TableInfo) → Except String (List TableOffer)
  | [] => .ok []
  | (t, table) :: rest =>
    match tooSmall table.capacity partySize with
    | .error text => .error text
    | .ok true => availableTables partySize taken rest
    | .ok false =>
      if taken t then availableTables partySize taken rest
      else (availableTables partySize taken rest).map (⟨t, table.capacity, table.location⟩ :: ·)

/-- The key of table `t` that `_checkAvailability` looks for. -/
def Service.slotKey (cfg : Service) (msg : Msg) (t : TableId) : Key :=
  (cfg.restaurantId, t, cfg.fstr (msg.get "date") ++ "_" ++ cfg.fstr (msg.get "timeslot"))

/-- `_checkAvailability`. Other handlers can write between two reads of the store. -/
def Service.checkAvailability (cfg : Service) (msg : Msg) (taken : TableId → Bool) : Reply :=
  match availableTables (msg.getD "party_size" (.int 1)) taken cfg.tables.entries with
  | .error text => .raised text
  | .ok tables => .availability cfg.restaurantId (msg.get "date") (msg.get "timeslot") tables

/-- `bool(x)`. -/
def Json.truthy : Json → Bool
  | .null => false
  | .bool b => b
  | .int n => n ≠ 0
  | .float x => x ≠ "0.0" ∧ x ≠ "-0.0"
  | .str s => s ≠ ""
  | .list xs => !xs.isEmpty
  | .dict fields => !fields.isEmpty

/-- `_listReservations`. -/
def listReservations (msg : Msg) (store : Dict Key Reservation) : Reply :=
  let date := msg.get "date"
  let results := (store.entries.map Prod.snd).filter fun res =>
    !(date.truthy && !res.date.equals date)
  .reservations results results.length

/-- The answer of a node that nobody writes to meanwhile. -/
def Node.read (cfg : Service) (cat : Catalogue) (s : Node) : Query → Reply
  | .getInfo => cfg.getRestaurantInfo cat
  | .checkAvailability msg =>
    cfg.checkAvailability msg fun t => cfg.slotKey msg t ∈ s.reservations.keys
  | .listReservations msg => listReservations msg s.reservations
  | .unknown action => .raised ("Unknown action: " ++ cfg.fstr action)

/-! ## The tables that are offered -/

/-- The capacity check lets a table of this capacity pass. -/
def fits (partySize : Json) (capacity : Nat) : Bool :=
  match tooSmall capacity partySize with
  | .ok small => !small
  | .error _ => false

def TableInfo.offer (t : TableId) (table : TableInfo) : TableOffer :=
  ⟨t, table.capacity, table.location⟩

section
variable {partySize : Json} {taken : TableId → Bool} {p : Int} {capacity : Nat}
  {tables : List (TableId × TableInfo)} {offers : List TableOffer}

theorem tooSmall_int : tooSmall capacity (.int p) = .ok (decide ((capacity : Int) < p)) := by
  simp [tooSmall, Json.number?, Number.lt]

theorem tooSmall_error {text : String} (h : tooSmall capacity partySize = .error text) :
    text = notComparable partySize.typeName := by
  unfold tooSmall at h
  split at h
  · cases h
  · exact (Except.error.inj h).symm

theorem fits_int : fits (.int p) capacity = decide (p ≤ capacity) := by
  unfold fits
  rw [tooSmall_int]
  simp only [← decide_not, Int.not_lt]

/-- The loop keeps the free tables that fit, in their order. -/
theorem offers_ok (h : availableTables partySize taken tables = .ok offers) :
    offers = (tables.filter fun e => fits partySize e.2.capacity && !taken e.1).map
      fun e => e.2.offer e.1 := by
  induction tables generalizing offers with
  | nil =>
    obtain rfl := Except.ok.inj h
    rfl
  | cons e rest ih =>
    obtain ⟨t, table⟩ := e
    unfold availableTables at h
    rw [List.filter_cons]
    cases hsmall : tooSmall table.capacity partySize with
    | error text => simp [hsmall] at h
    | ok small =>
      rw [hsmall] at h
      cases small with
      | true =>
        simp only [fits, hsmall]
        exact ih h
      | false =>
        cases htaken : taken t with
        | true =>
          simp only [htaken, if_true] at h
          simpa [htaken] using ih h
        | false =>
          simp only [htaken] at h
          cases hrest : availableTables partySize taken rest with
          | error text => simp [hrest, Except.map] at h
          | ok offers' =>
            simp only [hrest, Except.map] at h
            obtain rfl := Except.ok.inj h
            simp [fits, hsmall, TableInfo.offer, ih hrest]

theorem offers_int : ∃ offers, availableTables (.int p) taken tables = .ok offers := by
  induction tables with
  | nil => exact ⟨[], rfl⟩
  | cons e rest ih =>
    obtain ⟨t, table⟩ := e
    obtain ⟨offers, hrest⟩ := ih
    unfold availableTables
    rw [tooSmall_int]
    cases decide ((table.capacity : Int) < p) with
    | true => exact ⟨offers, hrest⟩
    | false =>
      simp only [hrest, Except.map]
      split_ifs <;> exact ⟨_, rfl⟩

end

/-! ## What availability tells of one table -/

section
variable {partySize : Json} {taken taken' : TableId → Bool} {t : TableId}
  {tables : List (TableId × TableInfo)} {text : String}

/-- What is said of a table: its offer, or nothing. -/
def offersOf (t : TableId) (offers : List TableOffer) : List TableOffer :=
  offers.filter fun offer => offer.tableId = t

/-- What an answer tells of table `t`: its offer, nothing, or that there was an error. -/
def Reply.offersOn (t : TableId) : Reply → Except String (List TableOffer)
  | .availability _ _ _ tables => .ok (offersOf t tables)
  | reply => .error reply.message

/-- Whether one table is offered depends on no other table, nor does an error. -/
theorem offers_table (h : taken t = taken' t) :
    (availableTables partySize taken tables).map (offersOf t) =
      (availableTables partySize taken' tables).map (offersOf t) := by
  induction tables with
  | nil => rfl
  | cons e rest ih =>
    obtain ⟨t', table⟩ := e
    unfold availableTables
    cases tooSmall table.capacity partySize with
    | error text => rfl
    | ok small =>
      cases small with
      | true => exact ih
      | false =>
        by_cases ht : t' = t
        · subst ht
          rw [h]
          cases taken' t' with
          | true => exact ih
          | false =>
            revert ih
            cases availableTables partySize taken rest <;>
              cases availableTables partySize taken' rest <;>
              simp [Except.map, offersOf]
        · -- An offer of another table does not count for `t`.
          have hskip (tk : TableId → Bool) :
              (if tk t' then availableTables partySize tk rest
                else (availableTables partySize tk rest).map
                  (⟨t', table.capacity, table.location⟩ :: ·)).map (offersOf t) =
                (availableTables partySize tk rest).map (offersOf t) := by
            split_ifs
            · rfl
            · cases availableTables partySize tk rest <;> simp [Except.map, offersOf, ht]
          simp only [hskip]
          exact ih

end

/-- A catalogue to try things on. -/
def plainCatalogue : Catalogue := ⟨[]⟩

end ReservationSystem
