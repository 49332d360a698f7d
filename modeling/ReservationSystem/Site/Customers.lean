import ReservationSystem.Site.Paths

/-!
# Customers in front of the site

What comes of the dialogues of the client, while other customers are served between their
requests.
-/

namespace ReservationSystem

open Node (settle)

/-- The restaurant has confirmed a write of this kind to the key. -/
def Seen.Does (w : Web) (rid : String) (op : Op) (k : Key) (x : Seen) : Prop :=
  ∃ req text res, x = .asked rid (.write req) (.written ⟨.ok, text, some res⟩) ∧ req.op = op ∧
    req.key (w.service rid .primary) = k

/-- The key of a record, from its own fields. -/
def Web.keyOf (w : Web) (rid : String) (res : Reservation) : Key :=
  (rid, res.tableId, w.fstr res.date ++ "_" ++ w.fstr res.timeslot)

/-- The record that a dialogue is about, without its times. -/
def Ask.wish (a : Ask) (choice : Choice) : Reservation where
  restaurantId := a.restaurantId
  tableId := choice.table.tableId
  date := .str a.date
  timeslot := .str a.timeslot
  customerName := .str choice.customer
  partySize := .int a.partySize
  contact := .str choice.contact
  createdAt := 0
  lamportTs := 0

/-- The record is what the user has typed and picked, on a table that seats the party. -/
structure Ask.Fulfilled (w : Web) (restaurants : List Restaurant) (dates : List String) (a : Ask)
    (choice : Choice) (res : Reservation) : Prop where
  record : res.untimed = a.wish choice
  restaurant : ∃ r ∈ restaurants, r.restaurantId = a.restaurantId ∧ a.timeslot ∈ r.timeslots
  date : a.date ∈ dates
  customer : choice.customer ≠ ""
  seats : ∃ table ∈ (w.tables a.restaurantId).get? choice.table.tableId,
    0 ≤ a.partySize → a.partySize ≤ table.capacity

/-! ## The books between two requests -/

section
variable {w : Web} {rid : String} {k : Key} {x : Seen} {books : Dict Key Reservation}
  {log before between after : List Seen} {demand : Demand} {reply : Reply} {res : Reservation}

/-- What is seen is a write to the key, or leaves it alone. -/
theorem get?_seen (x : Seen) (books : Dict Key Reservation) (k : Key) :
    (x.write w rid books).get? k = books.get? k ∨ ∃ req text res,
      x = .asked rid (.write req) (.written ⟨.ok, text, some res⟩) ∧
        req.key (w.service rid .primary) = k ∧
          (x.write w rid books).get? k = req.op.effect res := by
  unfold Seen.write
  split
  · split_ifs with hrid
    · subst hrid
      rw [get?_write]
      split_ifs with hk
      · exact .inr ⟨_, _, _, rfl, hk.symm, rfl⟩
      · exact .inl rfl
    · exact .inl rfl
  · exact .inl rfl

/-- A free key stays free, or a booking of it is confirmed. -/
theorem free_seen (hfree : books.get? k = none) :
    (x.write w rid books).get? k = none ∨ x.Does w rid .book k := by
  rcases get?_seen x books k with hsame | ⟨req, text, res, hx, hk, heffect⟩
  · exact .inl (hsame.trans hfree)
  · cases hop : req.op with
    | cancel =>
      rw [hop] at heffect
      exact .inl heffect
    | book => exact .inr ⟨req, text, res, hx, hop, hk⟩

theorem stays_free (hfree : (confirmedBooks w rid before).get? k = none)
    (hno : ∀ x ∈ between, ¬ x.Does w rid .book k) :
    (confirmedBooks w rid (before ++ between)).get? k = none := by
  induction between using List.reverseRecOn with
  | nil => rwa [List.append_nil]
  | append_singleton between x ih =>
    have hold := ih fun y hy => hno y (List.mem_append_left _ hy)
    rw [← List.append_assoc, confirmedBooks_snoc]
    exact (free_seen hold).resolve_right
      (hno x (List.mem_append_right _ (List.mem_singleton_self x)))

namespace Site

variable {site : Site}

theorem asked_client (hr : Runs w log site) (hmem : .asked rid demand reply ∈ log) :
    demand.IsClient := by
  induction hr with
  | start => cases hmem
  | asks log site site' rid' a demand' reply' hr hc haddr hx ih =>
    rcases List.mem_append.mp hmem with hmem | hmem
    · exact ih hmem
    · obtain ⟨-, rfl, -⟩ := Seen.asked.inj (List.mem_singleton.mp hmem)
      exact hc
  | crashes log site rid' side hr ih =>
    rcases List.mem_append.mp hmem with hmem | hmem
    · exact ih hmem
    · cases List.mem_singleton.mp hmem
  | promotes log site rid' hr hup ih => exact ih hmem
  | redirects log site rid' primary backup hr hp hb hup hprom ih => exact ih hmem

/-- What a confirmation tells of the books before it. -/
theorem confirmed_write {req : Request} {text : String} (hr : Runs w log site)
    (hlog : log = before ++ .asked rid (.write req) (.written ⟨.ok, text, some res⟩) :: after) :
    (w.service rid .primary).precheck req = none ∧
      req.op.Expects ((confirmedBooks w rid before).get? (req.key (w.service rid .primary))) ∧
      ∃ now ts, req.record (w.service rid .primary) now ts
        ((confirmedBooks w rid before).get? (req.key (w.service rid .primary))) = some res := by
  have hmem : .asked rid (.write req) (.written ⟨.ok, text, some res⟩) ∈ log :=
    hlog ▸ List.mem_append_right before List.mem_cons_self
  have hc : req.IsClient := asked_client hr hmem
  rcases (kept_runs hr).accounted before rid _ _ after hlog with ⟨now, clock, hreply⟩ | ⟨-, herr⟩
  · have hresp : (settle (w.service rid .primary) req now ⟨confirmedBooks w rid before, clock⟩).2 =
        ⟨.ok, text, some res⟩ := (Reply.written.inj hreply).symm
    rcases settle_cases hc now ⟨confirmedBooks w rid before, clock⟩ with
      ⟨resp, -, herr, hset⟩ | ⟨-, -, hset⟩ | ⟨hpre, hyes, res', hres, hset⟩
    · rw [hset] at hresp
      obtain rfl : resp = _ := hresp
      cases herr
    · rw [hset] at hresp
      have hok : (req.conflict (w.service rid .primary)).status = .ok :=
        congrArg Response.status hresp
      rw [Node.conflict_status] at hok
      cases hok
    · rw [hset] at hresp
      refine ⟨hpre, hyes, now, _, hres.trans ?_⟩
      cases req with
      | applyReplication msg => exact hc.elim
      | _ => exact congrArg Response.record hresp
  · cases herr

/-- A record stays in the books, or a cancellation of its key is confirmed. -/
theorem booked_seen (hr : Runs w (log ++ x :: after) site)
    (hbooked : (confirmedBooks w rid log).get? k = some res) :
    (x.write w rid (confirmedBooks w rid log)).get? k = some res ∨ x.Does w rid .cancel k := by
  rcases get?_seen x (confirmedBooks w rid log) k with
    hsame | ⟨req, text, res', hx, hk, heffect⟩
  · exact .inl (hsame.trans hbooked)
  · cases hop : req.op with
    | cancel => exact .inr ⟨req, text, res', hx, hop, hk⟩
    | book =>
      have hfree := (confirmed_write (hx ▸ hr) rfl).2.1
      rw [hop, hk, hbooked] at hfree
      cases hfree

theorem stays_booked (hr : Runs w log site) (hlog : log = before ++ between ++ after)
    (hbooked : (confirmedBooks w rid before).get? k = some res)
    (hno : ∀ x ∈ between, ¬ x.Does w rid .cancel k) :
    (confirmedBooks w rid (before ++ between)).get? k = some res := by
  induction between using List.reverseRecOn generalizing after with
  | nil => rwa [List.append_nil]
  | append_singleton between x ih =>
    have hsplit : log = before ++ between ++ x :: after := by
      rw [hlog]
      simp
    have hold := ih hsplit fun y hy => hno y (List.mem_append_left _ hy)
    rw [← List.append_assoc, confirmedBooks_snoc]
    exact (booked_seen (hsplit ▸ hr) hold).resolve_right
      (hno x (List.mem_append_right _ (List.mem_singleton_self x)))

/-- Each record in the books is one of the restaurant, under the key that its own fields give, for a
table that there is. -/
theorem filed_books (hr : Runs w log site) (hlog : log = before ++ after)
    (hbooked : (confirmedBooks w rid before).get? k = some res) :
    k = w.keyOf rid res ∧ k.table ∈ (w.tables rid).keys ∧ res.restaurantId = rid := by
  induction before using List.reverseRecOn generalizing after with
  | nil => cases hbooked
  | append_singleton before x ih =>
    have hsplit : log = before ++ x :: after := by
      rw [hlog, List.append_assoc]
      rfl
    rw [confirmedBooks_snoc] at hbooked
    rcases get?_seen x (confirmedBooks w rid before) k with
      hsame | ⟨req, text, res', hx, hk, heffect⟩
    · rw [hsame] at hbooked
      exact ih hsplit hbooked
    · subst hx
      have hc : (Demand.write req).IsClient :=
        asked_client hr (hsplit ▸ List.mem_append_right before List.mem_cons_self)
      obtain ⟨hpre, -, now, ts, hrecord⟩ := confirmed_write hr hsplit
      rw [heffect] at hbooked
      cases req with
      | applyReplication msg => exact hc.elim
      | cancel msg => cases hbooked
      | book msg =>
        obtain rfl := Option.some.inj hbooked
        obtain rfl := Option.some.inj hrecord
        subst hk
        obtain ⟨t, ht, hmsg⟩ := refuse_eq_none.mp hpre
        refine ⟨rfl, ?_, rfl⟩
        rw [key_table, Request.table, hmsg]
        exact ht

/-! ## The dialogues -/

section
variable {lower : String → String} {restaurants : List Restaurant} {dates : List String} {a : Ask}
  {choice : Choice} {rid' : String} {date timeslot : Json} {tables : List TableOffer}
  {results : List Reservation} {count : Nat} {q : Msg}

/-- A table that is offered fits, and is free in the books. -/
theorem offered_free {offer : TableOffer} {msg : Msg}
    (hx : Explains w rid books (.read (.checkAvailability msg))
      (.availability rid' date timeslot tables)) (hmem : offer ∈ tables) :
    ∃ table ∈ (w.tables rid).get? offer.tableId,
      fits (msg.getD "party_size" (.int 1)) table.capacity = true ∧
        books.get? ((w.service rid .primary).slotKey msg offer.tableId) = none := by
  replace hx : .availability rid' date timeslot tables = (w.service rid .primary).checkAvailability
      msg fun t => (w.service rid .primary).slotKey msg t ∈ books.keys := hx
  unfold Service.checkAvailability at hx
  split at hx
  · cases hx
  · next offers hoffers =>
    obtain ⟨-, -, -, rfl⟩ := Reply.availability.inj hx
    rw [offers_ok hoffers] at hmem
    obtain ⟨e, he, rfl⟩ := List.mem_map.mp hmem
    obtain ⟨hentry, hgood⟩ := List.mem_filter.mp he
    simp only [Bool.and_eq_true, Bool.not_eq_true', decide_eq_false_iff_not] at hgood
    exact ⟨e.2, (Dict.get?_eq_some_iff ..).mpr hentry, hgood.1,
      (Dict.not_mem_keys_iff ..).mp hgood.2⟩

/-- The books explain a confirmation, or an error of a request that cannot be carried out. -/
theorem explains_cases {req : Request} (hx : Explains w rid books (.write req) reply)
    (hc : req.IsClient) :
    (∃ now ts res, req.record (w.service rid .primary) now ts
        (books.get? (req.key (w.service rid .primary))) = some res ∧
      reply = .written (req.confirmation res)) ∨
    reply.status = .error ∧ ((w.service rid .primary).precheck req = none →
      ¬ req.op.Expects (books.get? (req.key (w.service rid .primary)))) := by
  obtain ⟨now, clock, rfl⟩ := hx
  rcases settle_cases hc now ⟨books, clock⟩ with
    ⟨resp, hpre, herr, hset⟩ | ⟨-, hno, hset⟩ | ⟨-, -, res, hres, hset⟩
  · rw [hset]
    refine .inr ⟨herr, fun hpre' => ?_⟩
    rw [hpre] at hpre'
    cases hpre'
  · rw [hset]
    exact .inr ⟨Node.conflict_status .., fun _ => hno⟩
  · rw [hset]
    exact .inl ⟨now, _, res, hres, rfl⟩

/-- What is explained by the books with a confirmation, when the request can be carried out. -/
theorem explains_confirmed {req : Request} (hx : Explains w rid books (.write req) reply)
    (hc : req.IsClient) (hpre : (w.service rid .primary).precheck req = none)
    (hyes : req.op.Expects (books.get? (req.key (w.service rid .primary)))) :
    ∃ now ts res, req.record (w.service rid .primary) now ts
        (books.get? (req.key (w.service rid .primary))) = some res ∧
      reply = .written (req.confirmation res) := by
  rcases explains_cases hx hc with hyes' | ⟨-, hno⟩
  · exact hyes'
  · exact absurd hyes (hno hpre)

/-- A record of a list is in the books. -/
theorem listed_booked (hx : Explains w rid books (.read (.listReservations q))
    (.reservations results count)) (hmem : res ∈ results) : ∃ k, books.get? k = some res := by
  obtain ⟨hresults, -⟩ := Reply.reservations.inj hx
  rw [hresults] at hmem
  obtain ⟨⟨k, res⟩, hentry, rfl⟩ := List.mem_map.mp (List.mem_filter.mp hmem).1
  exact ⟨k, (Dict.get?_eq_some_iff ..).mpr hentry⟩

theorem Kept.explains_ok (hk : Kept w log site)
    (hlog : log = before ++ .asked rid demand reply :: after) (hok : reply.status = .ok) :
    Explains w rid (confirmedBooks w rid before) demand reply := by
  rcases hk.accounted before rid demand reply after hlog with hx | ⟨-, herr⟩
  · exact hx
  · rw [hok] at herr
    cases herr

/-- The second of two requests, while the backup runs. -/
theorem Kept.explains_second {first : Seen} (hk : Kept w log site)
    (hlog : log = before ++ first :: (between ++ .asked rid demand reply :: after))
    (hfirst : first ≠ .crashed rid .backup) (hup : .crashed rid .backup ∉ before ++ between) :
    Explains w rid (confirmedBooks w rid (before ++ first :: between)) demand reply := by
  have hsplit : log = before ++ first :: between ++ .asked rid demand reply :: after := by
    rw [hlog, List.append_assoc]
    rfl
  refine (hk.accounted _ _ _ _ _ hsplit).resolve_right fun h => hup ?_
  rcases List.mem_append.mp h.1 with hmem | hmem
  · exact List.mem_append_left _ hmem
  · rcases List.mem_cons.mp hmem with heq | hmem
    · exact absurd heq.symm hfirst
    · exact List.mem_append_right _ hmem

theorem not_does_read {op : Op} {q : Query} {x : Seen}
    (hno : ∀ x ∈ between, ¬ x.Does w rid op k) (hx : x ∈ .asked rid (.read q) reply :: between) :
    ¬ x.Does w rid op k := by
  rcases List.mem_cons.mp hx with rfl | hx
  · rintro ⟨req, text, res, heq, -⟩
    cases heq
  · exact hno x hx

/-- A table that was offered is booked, and for what the user has asked for, unless another
customer was faster. -/
theorem booking_dialogue {lines : BookingLines} (hr : Runs w log site)
    (hask : lines.ask restaurants dates = some a)
    (hchoose : lines.choose lower tables = some choice)
    (hlog : log = before ++ .asked a.restaurantId (.read (.checkAvailability a.message))
      (.availability rid' date timeslot tables) :: (between ++
        .asked a.restaurantId (.write (.book (Server.bookMessage (a.body choice)))) reply :: after))
    (hup : .crashed a.restaurantId .backup ∉ before ++ between) :
    (∃ res, reply = .written ⟨.ok, "Reservation confirmed!", some res⟩ ∧
      a.Fulfilled w restaurants dates choice res) ∨
    ∃ x ∈ between, x.Does w a.restaurantId .book (w.keyOf a.restaurantId (a.wish choice)) := by
  have hk := kept_runs hr
  obtain ⟨hrestaurant, hdate, -, -, -, -⟩ := BookingLines.ask_spec hask
  obtain ⟨hoffer, hcustomer⟩ := BookingLines.choose_spec hchoose
  obtain ⟨table, htable, hfits, hfree⟩ := offered_free (hk.explains_ok hlog rfl) hoffer
  by_cases hother : ∃ x ∈ between, x.Does w a.restaurantId .book
      (w.keyOf a.restaurantId (a.wish choice))
  · exact .inr hother
  · refine .inl ?_
    have hnone : (confirmedBooks w a.restaurantId (before ++
        .asked a.restaurantId (.read (.checkAvailability a.message))
          (.availability rid' date timeslot tables) :: between)).get?
            (w.keyOf a.restaurantId (a.wish choice)) = none :=
      stays_free hfree fun x hx => not_does_read (fun y hy hdoes => hother ⟨y, hy, hdoes⟩) hx
    have hpre : (w.service a.restaurantId .primary).precheck
        (.book (Server.bookMessage (a.body choice))) = none :=
      refuse_eq_none.mpr ⟨_, List.mem_map_of_mem ((Dict.get?_eq_some_iff ..).mp htable), rfl⟩
    obtain ⟨now, ts, res, hres, hreply⟩ :=
      explains_confirmed (hk.explains_second hlog Seen.noConfusion hup) trivial hpre hnone
    obtain rfl := Option.some.inj hres
    refine ⟨_, hreply, rfl, hrestaurant, hdate, hcustomer, table, htable, fun hsize => ?_⟩
    have hsize' : a.message.getD "party_size" (.int 1) = .int a.partySize :=
      congrArg Json.int (if_pos hsize)
    rw [hsize', fits_int, decide_eq_true_eq] at hfits
    exact hfits

/-- The record that the user has picked from the list is cancelled, unless another customer has
cancelled it meanwhile. It is that record, and not one which was booked after it. -/
theorem cancelling_dialogue {lines : CancelLines} (hr : Runs w log site)
    (hchoose : lines.choose lower results = some res)
    (hlog : log = before ++
      .asked rid (.read (.listReservations q)) (.reservations results count) :: (between ++
        .asked rid (.write (.cancel (Server.cancelMessage (cancelBody rid res)))) reply :: after))
    (hup : .crashed rid .backup ∉ before ++ between) :
    (∃ ts, reply = .written ⟨.ok, "Reservation cancelled", some { res with lamportTs := ts }⟩) ∨
      ∃ x ∈ between, x.Does w rid .cancel (w.keyOf rid res) := by
  have hk := kept_runs hr
  obtain ⟨key, hbooked⟩ :=
    listed_booked (hk.explains_ok hlog rfl) (CancelLines.choose_mem hchoose)
  obtain ⟨rfl, htable, -⟩ := filed_books hr hlog hbooked
  by_cases hother : ∃ x ∈ between, x.Does w rid .cancel (w.keyOf rid res)
  · exact .inr hother
  · refine .inl ?_
    have hsplit : log = before ++ .asked rid (.read (.listReservations q))
        (.reservations results count) :: between ++
          .asked rid (.write (.cancel (Server.cancelMessage (cancelBody rid res)))) reply ::
            after := by
      rw [hlog, List.append_assoc]
      rfl
    have hstill := stays_booked hr hsplit hbooked fun x hx =>
      not_does_read (fun y hy hdoes => hother ⟨y, hy, hdoes⟩) hx
    have hpre : (w.service rid .primary).precheck
        (.cancel (Server.cancelMessage (cancelBody rid res))) = none :=
      refuse_eq_none.mpr ⟨_, htable, rfl⟩
    have hyes : Op.cancel.Expects ((confirmedBooks w rid _).get? (w.keyOf rid res)) :=
      fun hnone => Option.some_ne_none _ (hstill.symm.trans hnone)
    obtain ⟨now, ts, res', hres, hreply⟩ :=
      explains_confirmed (hk.explains_second hlog Seen.noConfusion hup) trivial hpre hyes
    have hold : (confirmedBooks w rid _).get? ((Request.cancel (Server.cancelMessage
        (cancelBody rid res))).key (w.service rid .primary)) = some res := hstill
    rw [hold] at hres
    obtain rfl := Option.some.inj hres
    exact ⟨ts, hreply⟩

end

end Site

end

namespace Site

/-- The site after a crash of the first primary. -/
def halfDown : Site := (start twoWebs).crash "restaurant_1" .primary

section
variable {log : List Seen} {site : Site}

theorem halfDown_reaches (hup : site.up = halfDown.up) :
    site.Reaches twoWebs ("127.0.0.1", 7001) "restaurant_1" .backup :=
  ⟨rfl, by simp [hup, halfDown, up_crash, start]⟩

/-- A customer is served by the backup then. -/
theorem halfDown_asks {site' : Site} {demand : Demand} {attempt : Gateway.Attempt}
    (hr : Runs twoWebs log site) (hmap : site.serviceMap = twoWebs.serviceMap)
    (hup : site.up = halfDown.up)
    (hcontacts : Contacts twoWebs site ("127.0.0.1", 7001) demand attempt site')
    (hc : demand.IsClient) :
    Runs twoWebs (log ++ [.asked "restaurant_1" demand (Gateway.sendToService attempt)]) site' := by
  have haddr : site.serviceMap.get? "restaurant_1" = some ("127.0.0.1", 6001) := by
    rw [hmap]
    rfl
  have hdown : site.up "restaurant_1" .primary = false := by
    simp [hup, halfDown, up_crash]
  exact .asks _ _ _ _ _ _ _ hr hc haddr (.failedOver _ _ 7001 _ _
    (.refused _ "refused" (not_reaches rfl hdown)) (failoverPort_unavailable ..) hcontacts)

theorem halfDown_reads {q : Query} {reply : Reply} (hr : Runs twoWebs log site)
    (hmap : site.serviceMap = twoWebs.serviceMap) (hup : site.up = halfDown.up)
    (hq : (site.nodes "restaurant_1" .backup).read (twoWebs.service "restaurant_1" .backup)
      (twoWebs.cat "restaurant_1") q = reply) :
    Runs twoWebs (log ++ [.asked "restaurant_1" (.read q) reply]) site := by
  have hread : Contacts twoWebs site ("127.0.0.1", 7001) (.read q) (.answered reply) site := by
    rw [← hq]
    exact .read _ _ _ (halfDown_reaches hup)
  exact halfDown_asks hr hmap hup hread trivial

theorem halfDown_writes {h : Thread} {req : Request} {n : Nat} {s' : Node} {resp : Response}
    (hr : Runs twoWebs log site) (hmap : site.serviceMap = twoWebs.serviceMap)
    (hup : site.up = halfDown.up) (hc : req.IsClient)
    (hs : Node.Serves (twoWebs.service "restaurant_1" .backup) (site.nodes "restaurant_1" .backup)
      h req [.acquire, .check, .stamp n, .skipReplication, .store, .release] s' resp) :
    Runs twoWebs (log ++ [.asked "restaurant_1" (.write req) (.written resp)])
      (site.setNode "restaurant_1" .backup s') := by
  have hwrite : Contacts twoWebs site ("127.0.0.1", 7001) (.write req) (.answered (.written resp))
      (site.setNode "restaurant_1" .backup s') :=
    .write _ _ _ _ _ _ _ _ hc (halfDown_reaches hup) hs (by simp) (.unused rfl)
  exact halfDown_asks hr hmap hup hwrite hc

end

def aliceChoice : Choice := ⟨⟨"T1", 2, "window"⟩, "Alice", ""⟩

def aliceCancels : CancelLines := ⟨"1", "1", "Y"⟩

/-- What the backup does for Alice: a booking, a list and a cancellation. -/
theorem alice_served : ∃ b booked results count res b' cancelled,
    Node.Serves (twoWebs.service "restaurant_1" .backup) (halfDown.nodes "restaurant_1" .backup)
      (.client 0) (.book (Server.bookMessage (aliceAsk.body aliceChoice)))
      [.acquire, .check, .stamp 3, .skipReplication, .store, .release] b booked ∧
    b.read (twoWebs.service "restaurant_1" .backup) (twoWebs.cat "restaurant_1")
      (.listReservations []) = .reservations results count ∧
    aliceCancels.choose (fun _ => "y") results = some res ∧
    Node.Serves (twoWebs.service "restaurant_1" .backup) b (.client 1)
      (.cancel (Server.cancelMessage (cancelBody "restaurant_1" res)))
      [.acquire, .check, .stamp 4, .skipReplication, .store, .release] b' cancelled :=
  ⟨_, _, _, _, _, _, _, ⟨rfl, rfl⟩, rfl, rfl, ⟨rfl, rfl⟩⟩

theorem alice_evening : ∃ tables booked results count res cancelled site,
    Runs twoWebs ([.crashed "restaurant_1" .primary] ++
      .asked "restaurant_1" (.read (.checkAvailability aliceAsk.message))
        (.availability "restaurant_1" (.str "2026-05-01") (.str "18:00") tables) :: ([] ++
      .asked "restaurant_1" (.write (.book (Server.bookMessage (aliceAsk.body aliceChoice))))
        booked :: [])) site ∧
    (∃ site', Runs twoWebs ([.crashed "restaurant_1" .primary,
      .asked "restaurant_1" (.read (.checkAvailability aliceAsk.message))
        (.availability "restaurant_1" (.str "2026-05-01") (.str "18:00") tables),
      .asked "restaurant_1" (.write (.book (Server.bookMessage (aliceAsk.body aliceChoice))))
        booked] ++
      .asked "restaurant_1" (.read (.listReservations [])) (.reservations results count) :: ([] ++
      .asked "restaurant_1"
        (.write (.cancel (Server.cancelMessage (cancelBody "restaurant_1" res))))
          cancelled :: [])) site') ∧
    aliceLines.choose id tables = some aliceChoice ∧
    aliceCancels.choose (fun _ => "y") results = some res := by
  obtain ⟨b, booked, results, count, res, b', cancelled, hb, hlist, hchoose, hb'⟩ := alice_served
  have hcrashed : Runs twoWebs [.crashed "restaurant_1" .primary] halfDown :=
    .crashes [] _ _ _ .start
  have hoffered := halfDown_reads (q := .checkAvailability aliceAsk.message) hcrashed rfl rfl rfl
  have hbooked := halfDown_writes hoffered rfl rfl (by trivial) hb
  have hlisted := halfDown_reads hbooked rfl rfl hlist
  have hcancelled := halfDown_writes hlisted rfl rfl (by trivial) hb'
  exact ⟨[⟨"T1", 2, "window"⟩, ⟨"T2", 2, "window"⟩], _, _, _, _, _, _, hbooked,
    ⟨_, hcancelled⟩, rfl, hchoose⟩

/-- Alice books while the first primary is down. -/
theorem booking_dialogue_alice : ∃ log reply site,
    Runs twoWebs log site ∧ .crashed "restaurant_1" .primary ∈ log ∧
      .asked "restaurant_1" (.write (.book (Server.bookMessage (aliceAsk.body aliceChoice)))) reply
        ∈ log ∧
      ∃ res, reply = .written ⟨.ok, "Reservation confirmed!", some res⟩ ∧
        aliceAsk.Fulfilled twoWebs oneEvening ["2026-04-30", "2026-05-01"] aliceChoice res := by
  obtain ⟨tables, booked, results, count, res, cancelled, site, hr, -, hchoose, -⟩ := alice_evening
  refine ⟨_, booked, site, hr, by simp, by simp, ?_⟩
  exact (booking_dialogue hr alice_asks hchoose rfl (by simp)).resolve_right (by simp)

theorem cancelling_dialogue_alice : ∃ log reply res site,
    Runs twoWebs log site ∧ .asked "restaurant_1"
      (.write (.cancel (Server.cancelMessage (cancelBody "restaurant_1" res)))) reply ∈ log ∧
      ∃ ts, reply =
        .written ⟨.ok, "Reservation cancelled", some { res with lamportTs := ts }⟩ := by
  obtain ⟨tables, booked, results, count, res, cancelled, -, -, ⟨site, hr⟩, -, hchoose⟩ :=
    alice_evening
  refine ⟨_, cancelled, res, site, hr, by simp, ?_⟩
  exact (cancelling_dialogue hr hchoose rfl (by simp)).resolve_right (by simp)

end Site

end ReservationSystem
