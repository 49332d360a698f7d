import ReservationSystem.Comparison
import ReservationSystem.Fleet.Isolation
import ReservationSystem.Gateway.Answering
import ReservationSystem.Lib.FirstLeast
import ReservationSystem.Node.Capacity

/-!
# My Reservations

`viewMyReservations` reads all records of all restaurants, keeps those of one name, and sorts
them. A record of anybody can make it raise.
-/

namespace ReservationSystem

open Machine

/-! ## The restaurants -/

/-- All restaurants, with what each answers to `get_info`. -/
structure Platform extends Config where
  cat : String → Catalogue
  info : String → RestaurantInfo
  complete : ∀ rid ∈ serviceMap.keys,
    (toConfig.service rid .primary).getRestaurantInfo (cat rid) = .info (info rid)

abbrev Stores := String → Node

namespace Platform

/-- A body that the gateway passes on, or a step of a handler. -/
inductive Event
  | post (h : Thread) (body : Msg)
  | delete (h : Thread) (body : Msg)
  | act (rid : String) (h : Thread) (a : Action)

abbrev service (pf : Platform) (rid : String) : Service := pf.toConfig.service rid .primary

def start (pf : Platform) : Stores := fun rid => .start (pf.service rid) false

/-- The restaurant that a body is passed on to. -/
def addressee (pf : Platform) (body : Msg) : Option String :=
  match body.get "restaurant_id" with
  | .str rid => if rid ≠ "" ∧ rid ∈ pf.serviceMap.keys then some rid else none
  | _ => none

def onNode (pf : Platform) (stores : Stores) (rid : String) (e : Node.Event) : Option Stores :=
  ((stores rid).step (pf.service rid) e).map fun s => Function.update stores rid s

/-- What a step is for the node that takes it. -/
def nodeEvent? (pf : Platform) : Event → Option (String × Node.Event)
  | .post h body =>
    (pf.addressee body).map fun rid => (rid, .receive h (.book (Server.bookMessage body)))
  | .delete h body =>
    (pf.addressee body).map fun rid => (rid, .receive h (.cancel (Server.cancelMessage body)))
  | .act rid h a => some (rid, .act h a)

def step (pf : Platform) (stores : Stores) (e : Event) : Option Stores :=
  (pf.nodeEvent? e).bind fun (rid, ne) => pf.onNode stores rid ne

end Platform

/-! ## The client -/

/-- A record and what the client adds to it. -/
structure Row where
  restaurantName : Json
  address : Json
  res : Reservation

/-- `(r.get("date", ""), r.get("timeslot", ""))`. -/
def Reservation.sortKey (res : Reservation) : List Json := [res.date, res.timeslot]

/-- What is printed: a message, or the rows that were found. -/
inductive View
  | message (text : String)
  | found (rows : List Row)

def View.rows : View → List Row
  | .message _ => []
  | .found rows => rows

/-- `input("..").strip().lower()` and `.lower()`. -/
structure Typing where
  strip : String → String
  lower : String → String

/-- `v.lower()`. -/
def Json.lower (lower : String → String) : Json → Except String String
  | .str text => .ok (lower text)
  | v => .error ("'" ++ v.typeName ++ "' object has no attribute 'lower'")

/-- The loop over the records of one restaurant. -/
def collect (lower : String → String) (customer : String) (info : RestaurantInfo) :
    List Reservation → Except String (List Row)
  | [] => .ok []
  | res :: rest => do
    let name ← res.customerName.lower lower
    let rows ← collect lower customer info rest
    return if name = customer then ⟨info.name, info.address, res⟩ :: rows else rows

/-- `resp.get("reservations", [])`, if the answer is ok. -/
def Reply.records : Reply → List Reservation
  | .reservations results _ => results
  | _ => []

/-- The loop over the restaurants. -/
def collectAll (pf : Platform) (stores : Stores) (lower : String → String) (customer : String) :
    List String → Except String (List Row)
  | [] => .ok []
  | rid :: rest => do
    let reply := (stores rid).read (pf.service rid) (pf.cat rid)
      (.listReservations (Server.listReservationsMessage []))
    let rows ← collect lower customer (pf.info rid) reply.records
    let others ← collectAll pf stores lower customer rest
    return rows ++ others

/-- `all_res.sort`. It raises when two of the keys cannot be compared. -/
def sortRows (rows : List Row) : Except String (List Row) :=
  if rows.Pairwise fun a b => (Json.ltList? a.res.sortKey b.res.sortKey).isSome ∧
      (Json.ltList? b.res.sortKey a.res.sortKey).isSome then
    .ok (rows.insertionSort fun a b => Json.ltList? b.res.sortKey a.res.sortKey = some false)
  else .error "'<' not supported"

def viewMyReservations (pf : Platform) (stores : Stores) (typing : Typing) (typed : String) :
    Except String View := do
  let customer := typing.lower (typing.strip typed)
  if customer = "" then return .message "Name is required."
  else if pf.serviceMap.keys = [] then return .message "Could not load restaurants."
  else
    let all ← collectAll pf stores typing.lower customer pf.serviceMap.keys
    if all.isEmpty then return .message ("No reservations found for '" ++ customer ++ "'.")
    else return .found (← sortRows all)

/-! ## What is expected -/

/-- The record is of this name, when case is ignored. -/
def Reservation.isOf (lower : String → String) (customer : String) (res : Reservation) : Bool :=
  match res.customerName with
  | .str name => lower name = customer
  | _ => false

/-- The records of one name, restaurant by restaurant. -/
def Platform.recordsOf (pf : Platform) (stores : Stores) (lower : String → String)
    (customer : String) : List Row :=
  pf.serviceMap.keys.flatMap fun rid =>
    (((stores rid).reservations.entries.map Prod.snd).filter (·.isOf lower customer)).map
      fun res => ⟨(pf.info rid).name, (pf.info rid).address, res⟩

/-- The sort key of a stored record of this name. -/
def Platform.StoredKey (pf : Platform) (stores : Stores) (lower : String → String)
    (customer : String) (key : List Json) : Prop :=
  ∃ rid ∈ pf.serviceMap.keys, ∃ k res, (stores rid).reservations.get? k = some res ∧
    res.isOf lower customer ∧ key = res.sortKey

/-- If the step stores a booking, then its customer has a name that is a text, and its date and
timeslot can be sorted together with those stored for the same name. -/
def Platform.Showable (pf : Platform) (lower : String → String) (stores : Stores) :
    Platform.Event → Prop
  | .act rid h .store => ∀ hd msg, (stores rid).handlers h = some hd → hd.request = .book msg →
    ∃ name, msg.get "customer_name" = .str name ∧ Orderly fun key =>
      pf.StoredKey stores lower (lower name) key ∨ key = [msg.get "date", msg.get "timeslot"]
  | _ => True

/-! ## What is shown -/

section
variable {pf : Platform} {stores stores' : Stores} {lower : String → String} {customer : String}
  {info : RestaurantInfo} {e : Platform.Event} {rid : String}

theorem collect_ok {results : List Reservation}
    (hnamed : ∀ res ∈ results, ∃ name, res.customerName = .str name) :
    collect lower customer info results =
      .ok ((results.filter (·.isOf lower customer)).map fun res =>
        ⟨info.name, info.address, res⟩) := by
  induction results with
  | nil => rfl
  | cons res rest ih =>
    obtain ⟨⟨name, hname⟩, hrest⟩ := List.forall_mem_cons.mp hnamed
    simp only [collect, hname, Json.lower, ih hrest, bind, Except.bind, pure, Except.pure,
      List.filter_cons, Reservation.isOf, decide_eq_true_eq]
    split_ifs <;> rfl

theorem records_list (cfg : Service) (cat : Catalogue) (s : Node) :
    (s.read cfg cat (.listReservations (Server.listReservationsMessage []))).records =
      s.reservations.entries.map Prod.snd := by
  have hdate : (Server.listReservationsMessage []).get "date" = .null := rfl
  simp only [Node.read, listReservations, Reply.records, hdate, Json.truthy,
    Bool.false_and, Bool.not_false, List.filter_true]

theorem collectAll_ok {ids : List String}
    (hnamed : ∀ rid ∈ ids, ∀ e ∈ (stores rid).reservations.entries,
      ∃ name, e.2.customerName = .str name) :
    collectAll pf stores lower customer ids =
      .ok (ids.flatMap fun rid =>
        (((stores rid).reservations.entries.map Prod.snd).filter (·.isOf lower customer)).map
          fun res => ⟨(pf.info rid).name, (pf.info rid).address, res⟩) := by
  induction ids with
  | nil => rfl
  | cons rid rest ih =>
    obtain ⟨hhead, hrest⟩ := List.forall_mem_cons.mp hnamed
    have hcollect := @collect_ok lower customer (pf.info rid) _ (List.forall_mem_map.mpr hhead)
    simp only [collectAll, records_list, hcollect, ih hrest, bind, Except.bind, pure, Except.pure,
      List.flatMap_cons]

theorem sortRows_ok {rows : List Row} {K : List Json → Prop} (ho : Orderly K)
    (hrows : ∀ row ∈ rows, K row.res.sortKey) :
    ∃ sorted, sortRows rows = .ok sorted ∧ sorted.Perm rows ∧
      sorted.Pairwise fun a b => Json.ltList? b.res.sortKey a.res.sortKey = some false := by
  have hcomparable : rows.Pairwise fun a b =>
      (Json.ltList? a.res.sortKey b.res.sortKey).isSome ∧
        (Json.ltList? b.res.sortKey a.res.sortKey).isSome :=
    List.pairwise_of_forall_mem_list fun a ha b hb =>
      ⟨ho.comparable _ _ (hrows a ha) (hrows b hb), ho.comparable _ _ (hrows b hb) (hrows a ha)⟩
  refine ⟨_, if_pos hcomparable, List.perm_insertionSort ..,
    FirstLeast.pairwise_insertionSort_on ?_ ?_⟩
  · intro a ha b hb
    have hsome := ho.comparable _ _ (hrows b hb) (hrows a ha)
    cases hlt : Json.ltList? b.res.sortKey a.res.sortKey with
    | none => simp [hlt] at hsome
    | some less =>
      cases less with
      | false => exact .inl rfl
      | true => exact .inr (ho.asymm _ _ (hrows b hb) (hrows a ha) hlt)
  · intro a ha b hb c hc
    exact ho.trans _ _ _ (hrows a ha) (hrows b hb) (hrows c hc)

theorem mem_recordsOf (row : Row) (hrow : row ∈ pf.recordsOf stores lower customer) :
    pf.StoredKey stores lower customer row.res.sortKey := by
  obtain ⟨rid, hrid, hrow⟩ := List.mem_flatMap.mp hrow
  obtain ⟨res, hres, rfl⟩ := List.mem_map.mp hrow
  obtain ⟨hmem, hof⟩ := List.mem_filter.mp hres
  obtain ⟨e, he, rfl⟩ := List.mem_map.mp hmem
  have hget := (Dict.get?_eq_some_iff (stores rid).reservations e.1 e.2).mpr he
  exact ⟨rid, hrid, e.1, e.2, hget, hof, rfl⟩

/-- All names are texts, and the records of each name can be sorted. -/
structure Presentable (pf : Platform) (lower : String → String) (stores : Stores) : Prop where
  named : ∀ rid k res, (stores rid).reservations.get? k = some res →
    ∃ name, res.customerName = .str name
  orderly : ∀ customer, Orderly (pf.StoredKey stores lower customer)

theorem view_presentable (hp : Presentable pf lower stores) {typing : Typing}
    (hlower : typing.lower = lower) {typed : String} (hne : lower (typing.strip typed) ≠ "") :
    ∃ view, viewMyReservations pf stores typing typed = .ok view ∧
      view.rows.Perm (pf.recordsOf stores lower (lower (typing.strip typed))) ∧
      view.rows.Pairwise fun a b => Json.ltList? b.res.sortKey a.res.sortKey = some false := by
  subst hlower
  have hall : collectAll pf stores typing.lower (typing.lower (typing.strip typed))
      pf.serviceMap.keys =
        .ok (pf.recordsOf stores typing.lower (typing.lower (typing.strip typed))) :=
    collectAll_ok fun rid _ e he =>
      hp.named rid e.1 e.2 ((Dict.get?_eq_some_iff (stores rid).reservations e.1 e.2).mpr he)
  unfold viewMyReservations
  simp only [if_neg hne, hall, bind, Except.bind, pure, Except.pure]
  split_ifs with hids hempty
  · refine ⟨_, rfl, ?_, .nil⟩
    simp [Platform.recordsOf, hids, View.rows]
  · refine ⟨_, rfl, ?_, .nil⟩
    rw [List.isEmpty_iff.mp hempty]
    exact .refl _
  · obtain ⟨sorted, hsorted, hperm, hpairwise⟩ := sortRows_ok (hp.orderly _) mem_recordsOf
    rw [hsorted]
    exact ⟨_, rfl, hperm, hpairwise⟩

/-! ## What a step does to the stores -/

/-- Every handler serves a request that the gateway has passed on, from a record that it has
stamped itself. -/
structure Posted (pf : Platform) (stores : Stores) : Prop where
  stamped : ∀ rid, Node.Stamped (pf.service rid) (stores rid)
  clients : ∀ rid h hd, (stores rid).handlers h = some hd → hd.request.IsClient

theorem step_inv (hs : pf.step stores e = some stores') : ∃ rid ne s',
    pf.nodeEvent? e = some (rid, ne) ∧ (stores rid).step (pf.service rid) ne = some s' ∧
      stores' = Function.update stores rid s' := by
  obtain ⟨⟨rid, ne⟩, hne, hnode⟩ := Option.bind_eq_some_iff.mp hs
  obtain ⟨s', hs', rfl⟩ := Option.map_eq_some_iff.mp hnode
  exact ⟨rid, ne, s', hne, hs', rfl⟩

theorem nodeEvent?_store {h : Thread} (he : pf.nodeEvent? e = some (rid, .act h .store)) :
    e = .act rid h .store := by
  cases e with
  | act rid' h' a =>
    obtain ⟨rfl, hact⟩ := Prod.mk.inj (Option.some.inj he)
    obtain ⟨rfl, rfl⟩ := Node.Event.act.inj hact
    rfl
  | post h' body | delete h' body =>
    obtain ⟨_, -, hpair⟩ := Option.map_eq_some_iff.mp he
    cases (Prod.mk.inj hpair).2

theorem nodeEvent?_receive {h : Thread} {req : Request}
    (he : pf.nodeEvent? e = some (rid, .receive h req)) : req.IsClient := by
  cases e with
  | act rid' h' a => cases (Prod.mk.inj (Option.some.inj he)).2
  | post h' body | delete h' body =>
    obtain ⟨_, -, hpair⟩ := Option.map_eq_some_iff.mp he
    obtain ⟨-, rfl⟩ := Node.Event.receive.inj (Prod.mk.inj hpair).2
    trivial

theorem posted_start : Posted pf pf.start where
  stamped rid := Node.stamped_start (pf.service rid) false
  clients rid h hd hh := by simp [Platform.start, Node.start] at hh

theorem handler_before (hs : pf.step stores e = some stores') {h : Thread} {hd : Handler}
    (hh : (stores' rid).handlers h = some hd) :
    (∃ hd', (stores rid).handlers h = some hd' ∧ hd'.request = hd.request) ∨
      pf.nodeEvent? e = some (rid, .receive h hd.request) := by
  obtain ⟨rid', ne, s', hne, hs', rfl⟩ := step_inv hs
  by_cases hrid : rid = rid'
  · subst hrid
    rw [Function.update_self] at hh
    rcases (Node.step_spec hs').handler hh with hold | ⟨-, rfl, -⟩ | ⟨hd', a, p, rfl, hh', -, rfl⟩
    · exact .inl ⟨hd, hold, rfl⟩
    · exact .inr hne
    · exact .inl ⟨hd', hh', rfl⟩
  · rw [Function.update_of_ne hrid] at hh
    exact .inl ⟨hd, hh, rfl⟩

theorem posted_step (hp : Posted pf stores) (hs : pf.step stores e = some stores') :
    Posted pf stores' := by
  constructor
  · obtain ⟨rid, ne, s', hne, hs', rfl⟩ := step_inv hs
    intro rid'
    by_cases hrid : rid' = rid
    · subst hrid
      rw [Function.update_self]
      exact Node.stamped_step (hp.stamped rid') hs'
    · rw [Function.update_of_ne hrid]
      exact hp.stamped rid'
  · intro rid h hd hh
    rcases handler_before hs hh with ⟨hd', hh', hreq⟩ | hne
    · exact hreq ▸ hp.clients rid h hd' hh'
    · exact nodeEvent?_receive hne

theorem stored_or_booked (hp : Posted pf stores) (hs : pf.step stores e = some stores') {k : Key}
    {res : Reservation} (hget : (stores' rid).reservations.get? k = some res) :
    (stores rid).reservations.get? k = some res ∨ ∃ h hd msg now ts, e = .act rid h .store ∧
      (stores rid).handlers h = some hd ∧ hd.request = .book msg ∧
      res = newReservation (pf.service rid) msg now ts := by
  obtain ⟨rid', ne, s', hne, hs', rfl⟩ := step_inv hs
  by_cases hrid : rid = rid'
  · subst hrid
    rw [Function.update_self] at hget
    rcases Node.stored_step (hp.stamped rid) (Node.step_spec hs') hget with
      hold | ⟨h, hd, rfl, hh, -, hbrings⟩
    · exact .inl hold
    · have hclient := hp.clients rid h hd hh
      obtain ⟨req, q⟩ := hd
      cases req with
      | book msg =>
        obtain ⟨now, ts, rfl⟩ := hbrings
        exact .inr ⟨h, _, msg, now, ts, nodeEvent?_store hne, hh, rfl, rfl⟩
      | cancel msg => exact hbrings.elim
      | applyReplication msg => exact hclient.elim
  · rw [Function.update_of_ne hrid] at hget
    exact .inl hget

theorem presentable_start : Presentable pf lower pf.start where
  named rid k res hget := by simp [Platform.start, Node.start] at hget
  orderly customer := orderly_texts fun key hkey => by
    obtain ⟨rid, -, k, res, hget, -⟩ := hkey
    simp [Platform.start, Node.start] at hget

theorem presentable_step (hp : Posted pf stores) (hi : Presentable pf lower stores)
    (hc : pf.Showable lower stores e) (hs : pf.step stores e = some stores') :
    Presentable pf lower stores' := by
  constructor
  · intro rid k res hget
    rcases stored_or_booked hp hs hget with hold | ⟨h, hd, msg, now, ts, rfl, hh, hreq, rfl⟩
    · exact hi.named rid k res hold
    · obtain ⟨name, hname, -⟩ := hc hd msg hh hreq
      exact ⟨name, hname⟩
  · intro customer
    by_cases hnew : ∃ rid h hd msg name, e = .act rid h .store ∧ (stores rid).handlers h = some hd ∧
        hd.request = .book msg ∧ msg.get "customer_name" = .str name ∧ lower name = customer
    · -- the booking that is stored is of this name
      obtain ⟨rid, h, hd, msg, name, rfl, hh, hreq, hname, rfl⟩ := hnew
      obtain ⟨name', hname', horderly⟩ := hc hd msg hh hreq
      obtain rfl := Json.str.inj (hname.symm.trans hname')
      refine horderly.mono fun key hkey => ?_
      obtain ⟨rid', hrid, k, res, hget, hof, rfl⟩ := hkey
      rcases stored_or_booked hp hs hget with hold | ⟨h', hd', msg', now, ts, he, hh', hreq', rfl⟩
      · exact .inl ⟨rid', hrid, k, res, hold, hof, rfl⟩
      · obtain ⟨rfl, rfl, -⟩ := Platform.Event.act.inj he
        obtain rfl := Option.some.inj (hh.symm.trans hh')
        obtain rfl := Request.book.inj (hreq.symm.trans hreq')
        exact .inr rfl
    · refine (hi.orderly customer).mono fun key hkey => ?_
      obtain ⟨rid, hrid, k, res, hget, hof, rfl⟩ := hkey
      rcases stored_or_booked hp hs hget with hold | ⟨h, hd, msg, now, ts, rfl, hh, hreq, rfl⟩
      · exact ⟨rid, hrid, k, res, hold, hof, rfl⟩
      · obtain ⟨name, hname, -⟩ := hc hd msg hh hreq
        have hcustomer : lower name = customer := by
          simpa [Reservation.isOf, newReservation, hname] using hof
        exact absurd ⟨rid, h, hd, msg, name, rfl, hh, hreq, hname, hcustomer⟩ hnew

/-- In a run whose steps store nothing that cannot be shown, everybody sees their reservations,
in order. -/
theorem myReservations_complete {typing : Typing}
    (hr : Reach pf.step (pf.Showable typing.lower) pf.start stores) {typed : String}
    (hne : typing.lower (typing.strip typed) ≠ "") :
    ∃ view, viewMyReservations pf stores typing typed = .ok view ∧
      view.rows.Perm (pf.recordsOf stores typing.lower (typing.lower (typing.strip typed))) ∧
      view.rows.Pairwise fun a b => Json.ltList? b.res.sortKey a.res.sortKey = some false := by
  have hi := hr.invariant (P := fun stores => Posted pf stores ∧ Presentable pf typing.lower stores)
    ⟨posted_start, presentable_start⟩ fun _ _ _ _ hi hc hs =>
      ⟨posted_step hi.1 hs, presentable_step hi.1 hi.2 hc hs⟩
  exact view_presentable hi.2 rfl hne

/-! ## When every booking has texts -/

def Json.IsText : Json → Prop
  | .str _ => True
  | _ => False

instance : DecidablePred Json.IsText
  | .str _ => isTrue trivial
  | .null | .bool _ | .int _ | .float _ | .list _ | .dict _ => isFalse id

theorem Json.IsText.exists {v : Json} (h : v.IsText) : ∃ text, v = .str text := by
  cases v with
  | str text => exact ⟨text, rfl⟩
  | _ => exact h.elim

/-- The name, the date and the timeslot of a booking are texts. -/
structure HasTexts (msg : Msg) : Prop where
  customerName : (msg.get "customer_name").IsText
  date : (msg.get "date").IsText
  timeslot : (msg.get "timeslot").IsText

instance (msg : Msg) : Decidable (HasTexts msg) :=
  decidable_of_iff ((msg.get "customer_name").IsText ∧ (msg.get "date").IsText ∧
    (msg.get "timeslot").IsText) ⟨fun h => ⟨h.1, h.2.1, h.2.2⟩, fun h => ⟨h.1, h.2, h.3⟩⟩

/-- A body that is posted has texts. -/
def PostsTexts : Platform.Event → Prop
  | .post _ body => HasTexts body
  | _ => True

instance (e : Platform.Event) : Decidable (PostsTexts e) :=
  match e with
  | .post _ body => inferInstanceAs (Decidable (HasTexts body))
  | .delete .. | .act .. => isTrue trivial

/-- Every booking that is in progress or stored has texts. -/
structure AllTexts (pf : Platform) (stores : Stores) : Prop where
  asked : ∀ rid h hd msg, (stores rid).handlers h = some hd → hd.request = .book msg → HasTexts msg
  stored : ∀ rid k res, (stores rid).reservations.get? k = some res →
    res.date.IsText ∧ res.timeslot.IsText

theorem hasTexts_bookMessage {body : Msg} (h : HasTexts body) :
    HasTexts (Server.bookMessage body) := ⟨h.customerName, h.date, h.timeslot⟩

theorem nodeEvent?_book {h : Thread} {msg : Msg} (hc : PostsTexts e)
    (he : pf.nodeEvent? e = some (rid, .receive h (.book msg))) : HasTexts msg := by
  cases e with
  | act rid' h' a => cases (Prod.mk.inj (Option.some.inj he)).2
  | post h' body =>
    obtain ⟨_, -, hpair⟩ := Option.map_eq_some_iff.mp he
    obtain ⟨-, hreq⟩ := Node.Event.receive.inj (Prod.mk.inj hpair).2
    obtain rfl := Request.book.inj hreq
    exact hasTexts_bookMessage hc
  | delete h' body =>
    obtain ⟨_, -, hpair⟩ := Option.map_eq_some_iff.mp he
    cases (Node.Event.receive.inj (Prod.mk.inj hpair).2).2

theorem allTexts_start : AllTexts pf pf.start where
  asked rid h hd msg hh := by simp [Platform.start, Node.start] at hh
  stored rid k res hget := by simp [Platform.start, Node.start] at hget

theorem allTexts_step (hp : Posted pf stores) (hi : AllTexts pf stores) (hc : PostsTexts e)
    (hs : pf.step stores e = some stores') : AllTexts pf stores' := by
  constructor
  · intro rid h hd msg hh hreq
    rcases handler_before hs hh with ⟨hd', hh', hreq'⟩ | hne
    · exact hi.asked rid h hd' msg hh' (hreq'.trans hreq)
    · rw [hreq] at hne
      exact nodeEvent?_book hc hne
  · intro rid k res hget
    rcases stored_or_booked hp hs hget with hold | ⟨h, hd, msg, now, ts, rfl, hh, hreq, rfl⟩
    · exact hi.stored rid k res hold
    · have htexts := hi.asked rid h hd msg hh hreq
      exact ⟨htexts.date, htexts.timeslot⟩

theorem showable_step (hi : AllTexts pf stores) (lower : String → String) (e : Platform.Event) :
    pf.Showable lower stores e := by
  unfold Platform.Showable
  split
  · intro hd msg hh hreq
    have htexts := hi.asked _ _ hd msg hh hreq
    obtain ⟨name, hname⟩ := htexts.customerName.exists
    refine ⟨name, hname, orderly_texts fun key hkey => ?_⟩
    rcases hkey with ⟨rid, -, k, res, hget, -, rfl⟩ | rfl
    · obtain ⟨hdate, htimeslot⟩ := hi.stored rid k res hget
      obtain ⟨date, hdate⟩ := hdate.exists
      obtain ⟨timeslot, htimeslot⟩ := htimeslot.exists
      exact ⟨date, timeslot, by rw [Reservation.sortKey, hdate, htimeslot]⟩
    · obtain ⟨date, hdate⟩ := htexts.date.exists
      obtain ⟨timeslot, htimeslot⟩ := htexts.timeslot.exists
      exact ⟨date, timeslot, by rw [hdate, htimeslot]⟩
  · trivial

/-- Where all bookings have texts, nothing is stored that cannot be shown. -/
theorem showable_of_texts (hr : Reach pf.step (fun _ e => PostsTexts e) pf.start stores) :
    Reach pf.step (pf.Showable lower) pf.start stores := by
  have hi := hr.invariant
    (P := fun stores => Reach pf.step (pf.Showable lower) pf.start stores ∧ Posted pf stores ∧
      AllTexts pf stores)
    ⟨.refl, posted_start, allTexts_start⟩ fun _ _ _ _ hi hc hs =>
      ⟨hi.1.tail (showable_step hi.2.2 lower _) hs, posted_step hi.2.1 hs,
        allTexts_step hi.2.1 hi.2.2 hc hs⟩
  exact hi.1

/-! ## A record that stops everybody -/

theorem collect_error {results : List Reservation} {res : Reservation} (hmem : res ∈ results)
    (hname : ¬ res.customerName.IsText) :
    ∃ text, collect lower customer info results = .error text := by
  induction results with
  | nil => cases hmem
  | cons first rest ih =>
    unfold collect
    cases hfirst : first.customerName.lower lower with
    | error text => exact ⟨text, rfl⟩
    | ok name =>
      rcases List.mem_cons.mp hmem with rfl | hmem
      · cases hv : res.customerName with
        | str name => exact absurd (by rw [hv]; trivial) hname
        | _ => simp [hv, Json.lower] at hfirst
      · obtain ⟨text, htext⟩ := ih hmem
        exact ⟨text, by rw [htext]; rfl⟩

theorem collectAll_error {ids : List String} {k : Key} {res : Reservation} (hrid : rid ∈ ids)
    (hget : (stores rid).reservations.get? k = some res) (hname : ¬ res.customerName.IsText) :
    ∃ text, collectAll pf stores lower customer ids = .error text := by
  have hmem : res ∈ (stores rid).reservations.entries.map Prod.snd :=
    List.mem_map_of_mem ((Dict.get?_eq_some_iff (stores rid).reservations k res).mp hget)
  induction ids with
  | nil => cases hrid
  | cons first rest ih =>
    unfold collectAll
    simp only [records_list]
    rcases List.mem_cons.mp hrid with rfl | hrid
    · obtain ⟨text, htext⟩ := @collect_error lower customer (pf.info rid) _ _ hmem hname
      exact ⟨text, by rw [htext]; rfl⟩
    · obtain ⟨text, htext⟩ := ih hrid
      rw [htext]
      cases collect lower customer (pf.info first)
        ((stores first).reservations.entries.map Prod.snd) <;> exact ⟨_, rfl⟩

/-- A record whose customer has no name, or one that is no text, stops everybody. -/
theorem view_raises {typing : Typing} {typed : String} {k : Key} {res : Reservation}
    (hrid : rid ∈ pf.serviceMap.keys) (hget : (stores rid).reservations.get? k = some res)
    (hname : ¬ res.customerName.IsText) (hne : typing.lower (typing.strip typed) ≠ "") :
    ∃ text, viewMyReservations pf stores typing typed = .error text := by
  obtain ⟨text, htext⟩ := @collectAll_error pf stores typing.lower
    (typing.lower (typing.strip typed)) rid _ k res hrid hget hname
  unfold viewMyReservations
  rw [if_neg hne, if_neg (List.ne_nil_of_mem hrid), htext]
  exact ⟨text, rfl⟩

end

/-! ## Through the gateway -/

section
variable {g : Server} {ok : Nat → Prop} {query : List Char} {rid : String}

theorem plain_reservations : ∀ c ∈ "reservations/".toList, Url.Plain c := by
  have hall : "reservations/".toList.all (fun c => decide (Url.Plain c)) = true := by decide
  intro c hc
  exact of_decide_eq_true (List.all_eq_true.mp hall c hc)

/-- `GET /reservations/<rid>` asks the restaurant for all its records. -/
theorem answers_listing {path : List Char} (hpath : path = "/reservations/".toList ++ rid.toList)
    (hplain : ∀ c ∈ rid.toList, Url.Plain c) (hrid : '/' ∉ rid.toList)
    (ha : ¬ "/availability".toList <:+: path) (hodd : g.odd [] = none) :
    Server.Answers (g.doGet path) ok ↔
      Server.Answers (g.forward (.str rid) (.ok (Server.listReservationsMessage [])) fun _ => 200)
        ok := by
  have h : Url.urlparse g.odd path = .ok ⟨path, []⟩ := by
    have hslash : ("reservations/".toList ++ rid.toList).head? ≠ some '/' := by
      rw [List.head?_append, show "reservations/".toList.head? = some 'r' from rfl]
      exact fun heq => absurd (Option.some.inj heq) (by decide)
    have hrest : ∀ c ∈ "reservations/".toList ++ rid.toList, Url.Plain c := by
      intro c hc
      rcases List.mem_append.mp hc with hc | hc
      · exact plain_reservations c hc
      · exact hplain c hc
    rw [hpath]
    exact Url.urlparse_plain hodd hslash hrest
  have hprefix : "/reservations/".toList <+: path := ⟨rid.toList, hpath.symm⟩
  have hsecond := Server.restaurantOf_names ⟨hrid, .inr (.inr hpath)⟩
  have hroutes := @Server.Routes.list path [] rid hsecond ha hprefix
  have hinfo : ¬ "/restaurants/".toList <+: path := fun hr =>
    Server.prefixes_exclusive hr hprefix
  rw [Server.answers_get h, if_neg hroutes.ne_restaurants, if_neg ha, if_neg hinfo,
    if_pos hprefix]
  simp only [hsecond, Except.ok.injEq, exists_eq_left']

/-- A body with an addressee is passed on to that restaurant. -/
theorem answers_passed_on {pf : Platform} {message : Msg → Msg} {failed : Nat}
    {target : List Char} {body : ByteArray} {fields : Msg}
    (h : Url.urlparse g.odd target = .ok ⟨"/reservations".toList, query⟩)
    (hv : g.Holds body (.dict fields)) (ha : pf.addressee fields = some rid) :
    Server.Answers (g.onReservations message failed target body) ok ↔
      Server.Answers (g.forward (.str rid) (.ok (message fields)) fun resp =>
        if resp.get "status" = .str "ok" then 200 else failed) ok := by
  obtain ⟨hrid, hne⟩ : fields.get "restaurant_id" = .str rid ∧ rid ≠ "" := by
    unfold Platform.addressee at ha
    split at ha
    · next rid' hrid =>
      split_ifs at ha with hk
      obtain rfl := Option.some.inj ha
      exact ⟨hrid, hk.1⟩
    · cases ha
  have htruthy : (Json.str rid).truthy = true := by simp [Json.truthy, hne]
  rw [Server.answers_onReservations h, hv.readBody]
  simp only [Except.ok.injEq, exists_eq_left', reduceCtorEq, if_false, if_true, Json.fields, hrid,
    htruthy]

end

/-! ## Two restaurants -/

def twoKitchens : Platform where
  toConfig := Fleet.twoRestaurants
  cat _ :=
    { plainCatalogue with info := [("name", .str "Urban Plates"), ("timeslots", .list [])] }
  info rid :=
    { restaurantId := rid, name := .str "Urban Plates", cuisine := .str "", address := .str ""
      menuUrl := .str "", description := .str "", priceRange := .str "", rating := .int 0
      features := .list [], tables := urbanPlates.tables, timeslots := .list [] }
  complete _ _ := rfl

/-- A body for table T1 of a restaurant. -/
def dinnerAt (rid : String) (name? : Option String) : Msg :=
  [("restaurant_id", .str rid), ("table_id", .str "T1"), ("date", .str "2026-05-01"),
    ("timeslot", .str "18:00"), ("customer_name", (name?.map Json.str).getD .null)]

/-- The steps of a booking by thread `n`, up to its dict write. -/
def booksAt (rid : String) (n : Nat) (name? : Option String) : List Platform.Event :=
  .post (.client n) (dinnerAt rid name?) ::
    [Action.acquire, .check, .stamp 0, .send, .returned .acked, .store].map (.act rid (.client n))

/-- Alice books in both restaurants. -/
def aliceTwice : List Platform.Event :=
  booksAt "restaurant_1" 0 (some "Alice") ++ booksAt "restaurant_2" 1 (some "ALICE")

/-- After Alice, somebody books without a name. -/
def aliceAndNobody : List Platform.Event :=
  booksAt "restaurant_1" 0 (some "Alice") ++ booksAt "restaurant_2" 1 none

/-- `strip` and `lower`, as they are on ASCII letters. -/
def plainTyping : Typing := ⟨id, fun text => String.ofList (text.toList.map Char.toLower)⟩

theorem myReservations_complete_alice : ∃ stores view,
    exec twoKitchens.step twoKitchens.start aliceTwice = some stores ∧
      viewMyReservations twoKitchens stores plainTyping "alice" = .ok view ∧
      view.rows.length = 2 := by
  have htexts : ∀ e ∈ aliceTwice, PostsTexts e := by decide
  obtain ⟨stores, hexec⟩ : ∃ stores,
      exec twoKitchens.step twoKitchens.start aliceTwice = some stores := ⟨_, rfl⟩
  have hr : Reach twoKitchens.step (twoKitchens.Showable plainTyping.lower) twoKitchens.start
      stores :=
    showable_of_texts (reach_of_exec (meets_of_forall fun e he _ => htexts e he) hexec)
  obtain ⟨view, hview, hperm, -⟩ := @myReservations_complete _ _ plainTyping hr "alice" (by decide)
  refine ⟨stores, view, hexec, hview, ?_⟩
  obtain rfl := Option.some.inj hexec
  rw [hperm.length_eq]
  rfl

/-- Alice does not see her reservation any more. -/
theorem noName_stops_alice : ∃ stores,
    exec twoKitchens.step twoKitchens.start aliceAndNobody = some stores ∧
      (twoKitchens.recordsOf stores plainTyping.lower "alice").length = 1 ∧
      viewMyReservations twoKitchens stores plainTyping "Alice" =
        .error "'NoneType' object has no attribute 'lower'" := by
  refine ⟨_, rfl, rfl, ?_⟩
  unfold viewMyReservations
  rw [if_neg (by decide), if_neg (by decide)]
  rfl

end ReservationSystem
