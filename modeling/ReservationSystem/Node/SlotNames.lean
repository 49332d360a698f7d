import ReservationSystem.Lib.Words
import ReservationSystem.Node.Capacity

/-!
# What a slot is called

A slot goes by the text `f"{date}_{timeslot}"`. Two different pairs of a date and a timeslot
can give the same text, so a request can run into the reservation of another slot.
-/

namespace ReservationSystem

/-- The date and the timeslot of a message are strings. -/
def Msg.Names (msg : Msg) (date timeslot : String) : Prop :=
  msg.get "date" = .str date ∧ msg.get "timeslot" = .str timeslot

/-- The date and the timeslot of a record. -/
def Reservation.Names (res : Reservation) (date timeslot : String) : Prop :=
  res.date = .str date ∧ res.timeslot = .str timeslot

/-- The text of a slot. -/
def slotText (date timeslot : String) : String := date ++ "_" ++ timeslot

/-- A date without underscores can be read off the text of a slot. -/
theorem slotText_inj {date timeslot date' timeslot' : String} (h : '_' ∉ date.toList)
    (h' : '_' ∉ date'.toList) :
    slotText date timeslot = slotText date' timeslot' ↔ date = date' ∧ timeslot = timeslot' := by
  unfold slotText
  rw [← String.toList_inj, ← String.toList_inj, ← @String.toList_inj timeslot]
  simpa using Words.append_cons_inj h h'

namespace Node

open Machine

variable {cfg : Service} {cat : Catalogue} {s s' : Node} {e : Event} {t : TableId}
  {date timeslot : String} {h : Thread} {msg : Msg}

/-- The request of a client, with strings for the date and the timeslot. -/
def StringSlots : Event → Prop
  | .receive _ (.book msg) | .receive _ (.cancel msg) =>
    ∃ date timeslot, msg.Names date timeslot
  | .receive _ (.applyReplication _) => False
  | _ => True

/-- The store holds a reservation of `t` with this date and this timeslot. -/
def HoldsSlot (s : Node) (t : TableId) (date timeslot : String) : Prop :=
  ∃ k res, s.reservations.get? k = some res ∧ res.tableId = t ∧ res.Names date timeslot

/-- A reservation of `t` whose slot has the same text is for the same date and timeslot. -/
def NoNamesake (s : Node) (t : TableId) (date timeslot : String) : Prop :=
  ∀ k res date' timeslot', s.reservations.get? k = some res → res.tableId = t →
    res.Names date' timeslot' → slotText date' timeslot' = slotText date timeslot →
      date' = date ∧ timeslot' = timeslot

/-- What the handlers take for a reservation of the slot is one. -/
structure Identified (cfg : Service) (cat : Catalogue) (s : Node) (t : TableId)
    (date timeslot : String) : Prop where
  rejects : ∀ msg h as s' resp, msg.get "table_id" = .str t → msg.Names date timeslot →
    Serves cfg s h (.book msg) as s' resp → (∀ o, .returned o ∈ as → o = .acked) →
      resp = (Request.book msg).conflict cfg → HoldsSlot s t date timeslot
  omits : ∀ msg table (p : Int), cfg.tables.get? t = some table → msg.Names date timeslot →
    msg.getD "party_size" (.int 1) = .int p → p ≤ table.capacity →
      ¬ Listed cfg cat s msg t → HoldsSlot s t date timeslot
  removes : ∀ msg h as s' resp, msg.get "table_id" = .str t → msg.Names date timeslot →
    Serves cfg s h (.cancel msg) as s' resp → s'.reservations ≠ s.reservations →
      HoldsSlot s t date timeslot

/-! ## The records that are stored -/

/-- A stored record is under the key that its own fields give, and its slot has a name. -/
structure Filed (cfg : Service) (s : Node) : Prop where
  stamped : Stamped cfg s
  requests : ∀ h hd, s.handlers h = some hd → StringSlots (.receive h hd.request)
  stored : ∀ k res, s.reservations.get? k = some res → ∃ date timeslot,
    res.Names date timeslot ∧ k = (cfg.restaurantId, res.tableId, slotText date timeslot)

theorem names_key (hn : msg.Names date timeslot) :
    (Request.book msg).key cfg = (cfg.restaurantId, (Request.book msg).table,
        slotText date timeslot) ∧
      (Request.cancel msg).key cfg = (cfg.restaurantId, (Request.cancel msg).table,
        slotText date timeslot) := by
  simp only [Request.key, hn.1, hn.2]
  exact ⟨rfl, rfl⟩

theorem filed_start (cfg : Service) (backUp : Bool) : Filed cfg (start cfg backUp) where
  stamped := stamped_start cfg backUp
  requests h hd hh := by simp [start] at hh
  stored k res hget := by simp [start] at hget

theorem filed_step (hf : Filed cfg s)
    (he : StringSlots e) (hs : s.step cfg e = some s') : Filed cfg s' where
  stamped := stamped_step hf.stamped hs
  requests h hd hh := by
    rcases (step_spec hs).handler hh with hsame | ⟨-, rfl, -⟩ | ⟨hd', a, p, -, hh', -, rfl⟩
    · exact hf.requests h hd hsame
    · exact he
    · exact hf.requests h hd' hh'
  stored k res hget := by
    rcases stored_step hf.stamped (step_spec hs) hget with hold | ⟨h, hd, -, hh, rfl, hb⟩
    · exact hf.stored k res hold
    · have hreq := hf.requests h hd hh
      obtain ⟨req, q⟩ := hd
      cases req with
      | book msg =>
        obtain ⟨now, ts, rfl⟩ := hb
        obtain ⟨date, timeslot, hn⟩ := hreq
        exact ⟨date, timeslot, hn, (names_key hn).1⟩
      | cancel msg => exact hb.elim
      | applyReplication msg => exact hreq.elim

theorem filed_reach {backUp : Bool}
    (hr : Reach (step cfg) (fun _ e => StringSlots e) (start cfg backUp) s) : Filed cfg s :=
  hr.invariant (filed_start cfg backUp) fun _ _ _ _ hf he hs => filed_step hf he hs

theorem Filed.key_eq (hf : Filed cfg s) {k : Key} {res : Reservation}
    (hget : s.reservations.get? k = some res) (hn : res.Names date timeslot) :
    k = (cfg.restaurantId, res.tableId, slotText date timeslot) := by
  obtain ⟨date', timeslot', hn', hk⟩ := hf.stored k res hget
  obtain rfl := Json.str.inj (hn'.1.symm.trans hn.1)
  obtain rfl := Json.str.inj (hn'.2.symm.trans hn.2)
  exact hk

/-! ## The handlers -/

section
variable {as : List Action} {resp : Response}
  (ht : t ∈ cfg.tables.keys) (htable : msg.get "table_id" = .str t)
  (hn : msg.Names date timeslot)
include htable hn

theorem slot_key : (Request.book msg).key cfg = (cfg.restaurantId, t, slotText date timeslot) ∧
    (Request.cancel msg).key cfg = (cfg.restaurantId, t, slotText date timeslot) := by
  have hkey := @names_key cfg _ _ _ hn
  simpa only [Request.table, htable] using hkey

include ht in
theorem taken_of_rejected (hs : Serves cfg s h (.book msg) as s' resp)
    (hacked : ∀ o, .returned o ∈ as → o = .acked)
    (hresp : resp = (Request.book msg).conflict cfg) :
    s.reservations.get? (cfg.restaurantId, t, slotText date timeslot) ≠ none := by
  obtain ⟨-, es, d, hcourse, -⟩ := (serves_iff (by trivial)).mp hs
  rw [← (slot_key htable hn).1]
  cases hcourse with
  | refused resp hpre => simp [Service.precheck, Service.refuse, htable, ht] at hpre
  | timedOut =>
    have hmsg := congrArg (fun resp : Response => resp.message.toList.head?) hresp
    simp [lockTimedOut, Request.conflict, errorAnswer] at hmsg
  | conflict hpre hfree hno => exact hno
  | unreplicated | replicated => simp [Request.confirmation, Request.conflict, errorAnswer] at hresp
  | failed now o old res hpre hfree hold hyes hres hrep ho =>
    exact absurd (hacked o (by simp)) ho

theorem taken_of_removed (hs : Serves cfg s h (.cancel msg) as s' resp)
    (hne : s'.reservations ≠ s.reservations) :
    s.reservations.get? (cfg.restaurantId, t, slotText date timeslot) ≠ none := by
  obtain ⟨-, es, d, hcourse, rfl⟩ := (serves_iff (by trivial)).mp hs
  rw [← (slot_key htable hn).2]
  cases hcourse with
  | unreplicated now old res hpre hfree hold hyes | replicated now old res hpre hfree hold hyes =>
    rw [hold]
    exact hyes
  | refused | timedOut | conflict | failed => exact absurd rfl hne

end

theorem slotKey_names (hn : msg.Names date timeslot) :
    cfg.slotKey msg t = (cfg.restaurantId, t, slotText date timeslot) := by
  simp only [Service.slotKey, hn.1, hn.2]
  rfl

theorem Filed.holdsSlot (hf : Filed cfg s) (hno : NoNamesake s t date timeslot)
    (htaken : s.reservations.get? (cfg.restaurantId, t, slotText date timeslot) ≠ none) :
    HoldsSlot s t date timeslot := by
  obtain ⟨res, hget⟩ := Option.ne_none_iff_exists'.mp htaken
  obtain ⟨date', timeslot', hn, hk⟩ := hf.stored _ _ hget
  obtain ⟨-, htable, htext⟩ : cfg.restaurantId = cfg.restaurantId ∧ t = res.tableId ∧
      slotText date timeslot = slotText date' timeslot' := by simpa using hk
  obtain ⟨rfl, rfl⟩ := hno _ res date' timeslot' hget htable.symm hn htext.symm
  exact ⟨_, res, hget, htable.symm, hn⟩

/-- The handlers identify a slot by its date and its timeslot exactly where no reservation of the
table has another pair with the same text. -/
theorem slot_identified_iff {backUp : Bool}
    (hr : Reach (step cfg) (fun _ e => StringSlots e) (start cfg backUp) s)
    (ht : t ∈ cfg.tables.keys) :
    Identified cfg cat s t date timeslot ↔ NoNamesake s t date timeslot := by
  have hf := filed_reach hr
  constructor
  · intro hi k res date' timeslot' hget htable hn htext
    have hk := hf.key_eq hget hn
    rw [htable, htext] at hk
    subst hk
    -- The slot is taken, so even a party that fits is not offered the table.
    obtain ⟨⟨t', table⟩, hmem, rfl⟩ := List.mem_map.mp ht
    have htable' := (Dict.get?_eq_some_iff cfg.tables t' table).mpr hmem
    have hquery : Msg.Names [("date", .str date), ("timeslot", .str timeslot),
        ("party_size", .int table.capacity)] date timeslot := ⟨rfl, rfl⟩
    obtain ⟨k', res', hget', htable', hn'⟩ := hi.omits _ table table.capacity htable' hquery rfl
      (Int.le_refl _) fun hl => by
        have hfree := ((listed_iff htable' (p := table.capacity) rfl).mp hl).2
        rw [slotKey_names hquery, hget] at hfree
        simp at hfree
    have hk' := hf.key_eq hget' hn'
    rw [htable'] at hk'
    subst hk'
    obtain rfl := Option.some.inj (hget.symm.trans hget')
    exact ⟨Json.str.inj (hn.1.symm.trans hn'.1), Json.str.inj (hn.2.symm.trans hn'.2)⟩
  · intro hno
    refine ⟨?_, ?_, ?_⟩
    · intro msg h as s' resp htable hn hs hacked hresp
      exact hf.holdsSlot hno (taken_of_rejected ht htable hn hs hacked hresp)
    · intro msg table p htable hn hp hfits hl
      refine hf.holdsSlot hno fun hfree => hl ((listed_iff htable hp).mpr ⟨hfits, ?_⟩)
      rw [slotKey_names hn]
      exact hfree
    · intro msg h as s' resp htable hn hs hne
      exact hf.holdsSlot hno (taken_of_removed htable hn hs hne)

theorem noNamesake_of_dates (hdate : '_' ∉ date.toList)
    (hdates : ∀ k res date' timeslot', s.reservations.get? k = some res →
      res.Names date' timeslot' → '_' ∉ date'.toList) : NoNamesake s t date timeslot := by
  intro k res date' timeslot' hget _ hn htext
  exact (slotText_inj (hdates k res date' timeslot' hget hn) hdate).mp htext

/-- A booking whose date has an underscore. -/
def evening : Msg :=
  [("table_id", .str "T1"), ("date", .str "2026-05-01_18:00"), ("timeslot", .str "evening"),
    ("customer_name", .str "Alice"), ("party_size", .int 2)]

def booksEvening : List Event :=
  .receive (.client 0) (.book evening) ::
    acts (.client 0) [.acquire, .check, .stamp 0, .send, .returned .acked, .store, .release]

theorem booksEvening_reach : ∃ s,
    Reach (step urbanPlates) (fun _ e => StringSlots e) (start urbanPlates false) s ∧
      s.reservations.entries = [(("restaurant_1", "T1", "2026-05-01_18:00_evening"),
        newReservation urbanPlates evening 0 1)] := by
  have hnames : evening.Names "2026-05-01_18:00" "evening" := ⟨rfl, rfl⟩
  have hm : Meets (step urbanPlates) (fun _ e => StringSlots e) (start urbanPlates false)
      booksEvening := by
    refine meets_of_forall fun e he s => ?_
    rcases List.mem_cons.mp he with rfl | he
    · exact ⟨_, _, hnames⟩
    · obtain ⟨a, -, rfl⟩ := List.mem_map.mp he
      trivial
  exact ⟨_, reach_of_exec hm rfl, rfl⟩

/-- A request for the other slot with that text runs into her reservation. -/
theorem evening_namesake : ∃ s,
    Reach (step urbanPlates) (fun _ e => StringSlots e) (start urbanPlates false) s ∧
      ¬ Identified urbanPlates plainCatalogue s "T1" "2026-05-01" "18:00_evening" := by
  obtain ⟨s, hr, hstore⟩ := booksEvening_reach
  refine ⟨s, hr, fun hi => ?_⟩
  have hquery : Msg.Names [("date", .str "2026-05-01"), ("timeslot", .str "18:00_evening")]
      "2026-05-01" "18:00_evening" := ⟨rfl, rfl⟩
  have htext : slotText "2026-05-01" "18:00_evening" = "2026-05-01_18:00_evening" := rfl
  obtain ⟨k, res, hget, -, hn⟩ := hi.omits _ ⟨2, "window"⟩ 1 rfl hquery rfl (by decide) fun hl => by
    have ht : urbanPlates.tables.get? "T1" = some ⟨2, "window"⟩ := rfl
    have hfree := ((listed_iff ht (p := 1) rfl).mp hl).2
    rw [slotKey_names hquery, htext, ← Dict.not_mem_keys_iff] at hfree
    simp [Dict.keys, hstore, urbanPlates] at hfree
  have hmem := (Dict.get?_eq_some_iff s.reservations k res).mp hget
  obtain ⟨-, rfl⟩ : k = _ ∧ res = newReservation urbanPlates evening 0 1 := by
    simpa [hstore] using hmem
  have hdate : Json.str "2026-05-01_18:00" = .str "2026-05-01" := hn.1
  simp at hdate

theorem slot_identified_evening : ∃ s,
    s.reservations.entries = [(("restaurant_1", "T1", "2026-05-01_18:00_evening"),
      newReservation urbanPlates evening 0 1)] ∧
      Identified urbanPlates plainCatalogue s "T1" "2026-05-01" "18:00" := by
  obtain ⟨s, hr, hstore⟩ := booksEvening_reach
  refine ⟨s, hstore, (slot_identified_iff hr (by decide)).mpr ?_⟩
  intro k res date timeslot hget _ hn htext
  have hmem := (Dict.get?_eq_some_iff s.reservations k res).mp hget
  obtain ⟨-, rfl⟩ : k = _ ∧ res = newReservation urbanPlates evening 0 1 := by
    simpa [hstore] using hmem
  obtain rfl : "2026-05-01_18:00" = date := Json.str.inj hn.1
  obtain rfl : "evening" = timeslot := Json.str.inj hn.2
  revert htext
  decide

end Node

end ReservationSystem
