import ReservationSystem.Node.Decisions
import ReservationSystem.Node.Queries

/-!
# Whether a party fits

`_checkAvailability` offers a table only to a party that fits. `_bookTable` does not look at
the capacity.
-/

namespace ReservationSystem

/-- `_checkAvailability` offers the table. -/
def Listed (cfg : Service) (cat : Catalogue) (s : Node) (query : Msg) (t : TableId) : Prop :=
  ∃ restaurantId date timeslot offers,
    s.read cfg cat (.checkAvailability query) = .availability restaurantId date timeslot offers ∧
      ∃ offer ∈ offers, offer.tableId = t

/-- A query and a booking of table `t` for the same slot and `p` guests. -/
structure SameDemand (query booking : Msg) (t : TableId) (p : Int) : Prop where
  table : booking.get "table_id" = .str t
  date : query.get "date" = booking.get "date"
  timeslot : query.get "timeslot" = booking.get "timeslot"
  asked : query.getD "party_size" (.int 1) = .int p
  booked : booking.getD "party_size" (.int 1) = .int p

/-- The party size of the record that a request brings. -/
def Request.partySize : Request → Json
  | .book msg | .cancel msg => msg.getD "party_size" (.int 1)
  | .applyReplication msg => msg.reservation.partySize

/-- The table's capacity is less than the party size. -/
def TooLarge (cfg : Service) (t : TableId) (partySize : Json) : Prop :=
  ∃ table ∈ cfg.tables.get? t, tooSmall table.capacity partySize = .ok true

instance (cfg : Service) (t : TableId) (partySize : Json) :
    Decidable (TooLarge cfg t partySize) :=
  inferInstanceAs (Decidable (∃ table ∈ cfg.tables.get? t,
    tooSmall table.capacity partySize = .ok true))

namespace Node

open Machine

variable {cfg : Service} {cat : Catalogue} {s s' : Node} {e : Event} {t : TableId}
  {query booking : Msg} {p : Int} {h : Thread}

/-- No reservation that is stored, or has been confirmed, has too large a party. -/
structure AllFit (cfg : Service) (s : Node) : Prop where
  stored : ∀ k res, s.reservations.get? k = some res → ¬ TooLarge cfg k.table res.partySize
  confirmed : ∀ h hd resp res, s.handlers h = some hd → hd.request.IsClient →
    hd.request.op = .book → hd.phase.resp? = some resp → resp.status = .ok →
      resp.record = some res → ¬ TooLarge cfg hd.request.table res.partySize

/-- The thread that writes to the store. -/
def Event.stores? : Event → Option Thread
  | .act h .store => some h
  | _ => none

theorem stores?_eq_some : e.stores? = some h ↔ e = .act h .store := by
  unfold Event.stores?
  split
  · simp
  · next hno => exact iff_of_false (by simp) (hno h)

/-- If the step stores a booking, then its party is not too large. -/
def StoresFitting (cfg : Service) (s : Node) (e : Event) : Prop :=
  ∀ h ∈ e.stores?, ∀ hd ∈ s.handlers h, hd.request.op = .book →
    ¬ TooLarge cfg hd.request.table hd.request.partySize

instance (cfg : Service) (s : Node) (e : Event) :
    Decidable (StoresFitting cfg s e) :=
  inferInstanceAs (Decidable (∀ h ∈ e.stores?, ∀ hd ∈ s.handlers h, hd.request.op = .book →
    ¬ TooLarge cfg hd.request.table hd.request.partySize))

theorem brings_partySize {req : Request} {res : Reservation} (hb : Brings cfg res req) :
    res.partySize = req.partySize := by
  cases req with
  | book msg =>
    obtain ⟨now, ts, rfl⟩ := hb
    rfl
  | cancel msg => exact hb.elim
  | applyReplication msg =>
    obtain ⟨-, rfl⟩ := hb
    rfl

theorem brings_op {req : Request} {res : Reservation} (hb : Brings cfg res req) :
    req.op = .book := by
  cases req with
  | book msg => rfl
  | cancel msg => exact hb.elim
  | applyReplication msg => exact hb.1

/-! ## One step -/

theorem allFit_step (hst : Stamped cfg s) (hs : Steps cfg s e s') (hp : AllFit cfg s) :
    AllFit cfg s' ↔ StoresFitting cfg s e := by
  constructor
  · intro hp' h he hd hh hop
    obtain rfl := stores?_eq_some.mp he
    obtain ⟨res, hget, hb⟩ := book_stored hst hs hh hop
    have hfit := hp'.stored _ _ hget
    rwa [key_table, brings_partySize hb] at hfit
  · intro hc
    constructor
    · intro k res hget
      rcases stored_step hst hs hget with hold | ⟨h, hd, rfl, hh, rfl, hb⟩
      · exact hp.stored k res hold
      · rw [key_table, brings_partySize hb]
        exact hc h rfl hd hh (brings_op hb)
    · intro h hd resp res hh hclient hop hresp hok hres
      rcases confirmation_step hst hs hh hclient hop hresp hok hres with
        ⟨hd', hh', hreq, hresp'⟩ | ⟨hd', rfl, hh', hreq, hb⟩
      · rw [← hreq] at hclient hop ⊢
        exact hp.confirmed h hd' resp res hh' hclient hop hresp' hok hres
      · rw [← hreq] at hop hb ⊢
        rw [brings_partySize hb]
        exact hc h rfl hd' hh' hop

/-! ## One state -/

theorem listed_iff {table : TableInfo} (ht : cfg.tables.get? t = some table)
    (hp : query.getD "party_size" (.int 1) = .int p) :
    Listed cfg cat s query t ↔
      p ≤ table.capacity ∧ s.reservations.get? (cfg.slotKey query t) = none := by
  obtain ⟨offers, hoffers⟩ : ∃ offers, availableTables (.int p)
      (fun t => cfg.slotKey query t ∈ s.reservations.keys) cfg.tables.entries = .ok offers :=
    offers_int
  have hread : s.read cfg cat (.checkAvailability query) =
      .availability cfg.restaurantId (query.get "date") (query.get "timeslot") offers := by
    simp only [read, Service.checkAvailability, hp, hoffers]
  have hmem := (Dict.get?_eq_some_iff cfg.tables t table).mp ht
  obtain rfl := offers_ok hoffers
  rw [← Dict.not_mem_keys_iff]
  constructor
  · rintro ⟨r, d, slot, offers', hread', offer, hoffer, rfl⟩
    obtain ⟨-, -, -, rfl⟩ := Reply.availability.inj (hread.symm.trans hread')
    obtain ⟨⟨t', table'⟩, he, rfl⟩ := List.mem_map.mp hoffer
    obtain ⟨hin, hfits⟩ := List.mem_filter.mp he
    obtain rfl : table' = table :=
      Option.some.inj (((Dict.get?_eq_some_iff cfg.tables _ _).mpr hin).symm.trans ht)
    simpa [fits_int, TableInfo.offer] using hfits
  · rintro ⟨hfits, hfree⟩
    refine ⟨_, _, _, _, hread, table.offer t, List.mem_map.mpr ⟨(t, table), ?_, rfl⟩, rfl⟩
    exact List.mem_filter.mpr ⟨hmem, by simp [fits_int, hfits, hfree]⟩

theorem booked_iff (hd : SameDemand query booking t p) (ht : t ∈ cfg.tables.keys)
    (hfree : s.tableLocks t = none) (hnew : s.handlers h = none) (now : Nat) :
    ∃ s' resp, Serves cfg s h (.book booking) (s.script cfg (.book booking) now .acked) s' resp ∧
      (resp.status = .ok ↔ s.reservations.get? (cfg.slotKey query t) = none) := by
  have hc : (Request.book booking).IsClient := trivial
  have htable : (Request.book booking).table = t := by simp only [Request.table, hd.table]
  have hkey : (Request.book booking).key cfg = cfg.slotKey query t := by
    simp only [Request.key, Service.slotKey, htable, hd.date, hd.timeslot]
  have hpre : cfg.precheck (.book booking) = none := by
    simp only [Service.precheck, Service.refuse, hd.table, ht, if_true]
  obtain ⟨es, hcourse⟩ := course_settle (h := h) hc (htable.symm ▸ hfree) now
  refine ⟨_, _, hcourse.serves hc hnew, ?_⟩
  have hdata : s.data.reservations = s.reservations := rfl
  by_cases hyes : s.reservations.get? (cfg.slotKey query t) = none
  · rw [settle_written hpre (by rw [hkey]; exact hyes) rfl]
    exact iff_of_true rfl hyes
  · rw [settle_conflict hpre (by rw [hkey]; exact hyes)]
    exact iff_of_false (by simp [Request.conflict]) hyes

/-- A table is offered to exactly those whose booking would be confirmed if, and only if, the
party fits or the slot is taken. And no party is too large as long as the bookings that are
stored have none. -/
theorem availability_agrees {backUp : Bool} {es : List Event} :
    (∀ t table query booking p h now s, cfg.tables.get? t = some table →
      SameDemand query booking t p → s.tableLocks t = none → s.handlers h = none →
        ∃ s' resp, Serves cfg s h (.book booking)
            (s.script cfg (.book booking) now .acked) s' resp ∧
          ((Listed cfg cat s query t ↔ resp.status = .ok) ↔
            p ≤ table.capacity ∨ s.reservations.get? (cfg.slotKey query t) ≠ none)) ∧
      (Always (step cfg) (AllFit cfg) (start cfg backUp) es ↔
        Meets (step cfg) (StoresFitting cfg) (start cfg backUp) es) := by
  constructor
  · intro t table query booking p h now s ht hd hfree hnew
    have hmem := (Dict.get?_eq_some_iff cfg.tables t table).mp ht
    obtain ⟨s', resp, hserves, hok⟩ :=
      booked_iff hd (List.mem_map_of_mem hmem) hfree hnew now
    refine ⟨s', resp, hserves, ?_⟩
    rw [listed_iff ht hd.asked, hok]
    tauto
  · refine always_iff_meets (I := Stamped cfg) (D := fun _ => True) ?_ ?_ (fun _ _ => trivial)
      (stamped_start cfg backUp) ?_
    · exact fun s e s' hst _ hs => stamped_step hst hs
    · exact fun s e s' hst hp _ hs => allFit_step hst (step_spec hs) hp
    · exact ⟨fun k res hget => by simp [start] at hget, fun h hd _ _ hh => by simp [start] at hh⟩

/-- Alice books for two. -/
def aliceBooks : List Event :=
  .receive (.client 0) (.book (dinner "T1" "Alice")) ::
    acts (.client 0) [.acquire, .check, .stamp 0, .send, .returned .acked, .store, .release]

theorem availability_agrees_alice :
    (∃ s' resp, Serves urbanPlates (start urbanPlates false) (.client 0)
        (.book (dinner "T1" "Alice"))
        ((start urbanPlates false).script urbanPlates (.book (dinner "T1" "Alice")) 0 .acked)
        s' resp ∧
      (Listed urbanPlates plainCatalogue (start urbanPlates false) (dinner "T1" "Alice") "T1" ↔
        resp.status = .ok)) ∧
      Always (step urbanPlates) (AllFit urbanPlates) (start urbanPlates false)
        aliceBooks := by
  have hsame : SameDemand (dinner "T1" "Alice") (dinner "T1" "Alice") "T1" 2 :=
    ⟨rfl, rfl, rfl, rfl, rfl⟩
  obtain ⟨hagree, hfit⟩ := @availability_agrees urbanPlates plainCatalogue false aliceBooks
  obtain ⟨s', resp, hserves, hiff⟩ :=
    hagree "T1" ⟨2, "window"⟩ _ _ 2 (.client 0) 0 (start urbanPlates false) rfl hsame rfl rfl
  exact ⟨⟨s', resp, hserves, hiff.mpr (.inl (by decide))⟩, hfit.mpr (by decide)⟩

/-- Ten guests at a table for two. -/
def tenGuests : Msg :=
  [("table_id", .str "T1"), ("date", .str "2026-05-01"), ("timeslot", .str "18:00"),
    ("customer_name", .str "Alice"), ("party_size", .int 10)]

/-- The table is not offered to them, and their booking is confirmed. -/
theorem tenGuests_confirmed :
    ¬ Listed urbanPlates plainCatalogue (start urbanPlates false) tenGuests "T1" ∧
      ∃ s' resp, Serves urbanPlates (start urbanPlates false) (.client 0) (.book tenGuests)
          [.acquire, .check, .stamp 0, .send, .returned .acked, .store, .release] s' resp ∧
        resp.status = .ok ∧ ¬ AllFit urbanPlates s' := by
  have ht : urbanPlates.tables.get? "T1" = some ⟨2, "window"⟩ := rfl
  refine ⟨fun hl => ?_, _, _, ⟨rfl, rfl⟩, rfl, fun hf => ?_⟩
  · have := ((listed_iff ht (p := 10) rfl).mp hl).1
    simp at this
  · exact hf.stored (dinnerKey "T1") (newReservation urbanPlates tenGuests 0 1) rfl
      ⟨_, ht, rfl⟩

end Node

end ReservationSystem
