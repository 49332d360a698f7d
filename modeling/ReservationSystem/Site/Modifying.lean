import ReservationSystem.Site.Customers

/-!
# A customer who modifies a reservation

`modifyReservation` in front of the site. It gives up the old reservation before it has the new
one, and other customers are served at any time between its requests.
-/

namespace ReservationSystem

/-- A run of the dialogue from the list on: its stage, what is seen, and which part of that is of
other customers. What the gateway reads in the path of the query is left open, and an answer that
has no tables may be its own. -/
inductive Modifies (rid : String) (m : Modification) (before : List Seen) :
    Stage → List Seen → List Seen → Prop
  | start : Modifies rid m before .cancelling before []
  | other (stage : Stage) (log others : List Seen) (x : Seen)
      (hm : Modifies rid m before stage log others) (hf : ¬ stage.Finished) :
      Modifies rid m before stage (log ++ [x]) (others ++ [x])
  | write (stage : Stage) (log others : List Seen) (req : Request) (reply : Reply)
      (hm : Modifies rid m before stage log others) (hreq : m.write? rid stage = some req) :
      Modifies rid m before (Modification.next stage reply)
        (log ++ [.asked rid (.write req) reply]) others
  | query (log others : List Seen) (q : Query) (reply : Reply)
      (hm : Modifies rid m before .querying log others)
      (hsend : sendable m.availabilityPath = true) :
      Modifies rid m before (Modification.next .querying reply)
        (log ++ [.asked rid (.read q) reply]) others
  | unserved (log others : List Seen) (hm : Modifies rid m before .querying log others)
      (hsend : sendable m.availabilityPath = true) :
      Modifies rid m before .restoring log others
  | raised (log others : List Seen) (hm : Modifies rid m before .querying log others)
      (hsend : sendable m.availabilityPath = false) :
      Modifies rid m before .aborted log others

/-- The key of the reservation that the customer has. -/
def Web.oldKey (w : Web) (rid : String) (m : Modification) : Key := w.keyOf rid m.existing

/-- What the dialogue relies on in the books at a stage: the old reservation is there until it is
cancelled, and then its key is free, unless other customers have changed that. -/
def AtStake (w : Web) (rid : String) (m : Modification) (books : Dict Key Reservation)
    (others : List Seen) : Stage → Prop
  | .cancelling =>
    books.get? (w.oldKey rid m) = some m.existing ∨
      ∃ x ∈ others, x.Does w rid .cancel (w.oldKey rid m)
  | .querying | .booking _ | .restoring =>
    books.get? (w.oldKey rid m) = none ∨ ∃ x ∈ others, x.Does w rid .book (w.oldKey rid m)
  | .returned | .aborted => True

/-- How the customer is left by the stage that was the last one. -/
def LeftWith (w : Web) (rid : String) (m : Modification) (books : Dict Key Reservation)
    (others : List Seen) : Stage → Prop
  | .cancelling => ∃ x ∈ others, x.Does w rid .cancel (w.oldKey rid m)
  | .booking t =>
    (∃ res, books.get? (w.keyOf rid (m.modified t)) = some res ∧
      res.untimed = (m.modified t).untimed) ∧
    (w.keyOf rid (m.modified t) ≠ w.oldKey rid m → books.get? (w.oldKey rid m) = none ∨
      ∃ x ∈ others, x.Does w rid .book (w.oldKey rid m))
  | .restoring =>
    (∃ res, books.get? (w.oldKey rid m) = some res ∧ res.untimed = m.existing.untimed) ∨
      ∃ x ∈ others, x.Does w rid .book (w.oldKey rid m)
  | .querying | .returned | .aborted => False

section
variable {w : Web} {rid : String} {m : Modification} {before log others after : List Seen}
  {stage : Stage} {books : Dict Key Reservation} {x : Seen} {req : Request} {reply : Reply}
  {k : Key}

theorem write?_client (hreq : m.write? rid stage = some req) : req.IsClient := by
  unfold Modification.write? at hreq
  split at hreq
  · obtain rfl := Option.some.inj hreq
    trivial
  · obtain rfl := Option.some.inj hreq
    trivial
  · obtain rfl := Option.some.inj hreq
    trivial
  all_goals cases hreq

theorem does_before {op : Op} (h : ∃ x ∈ others, x.Does w rid op k) (y : Seen) :
    ∃ x ∈ others ++ [y], x.Does w rid op k := by
  obtain ⟨x, hx, hdoes⟩ := h
  exact ⟨x, List.mem_append_left _ hx, hdoes⟩

theorem does_last {op : Op} (h : x.Does w rid op k) :
    ∃ y ∈ others ++ [x], y.Does w rid op k :=
  ⟨x, List.mem_append_right _ (List.mem_singleton_self x), h⟩

theorem Modifies.prefix (hm : Modifies rid m before stage log others) : before <+: log := by
  induction hm with
  | start => exact List.prefix_rfl
  | other stage log others x hm hf ih => exact ih.trans (List.prefix_append ..)
  | write stage log others req reply hm hreq ih => exact ih.trans (List.prefix_append ..)
  | query log others q reply hm hsend ih => exact ih.trans (List.prefix_append ..)
  | unserved log others hm hsend ih => exact ih
  | raised log others hm hsend ih => exact ih

namespace Site

variable {site : Site}

/-- What another customer does. -/
theorem atStake_other (hr : Runs w (log ++ x :: after) site)
    (hs : AtStake w rid m (confirmedBooks w rid log) others stage) :
    AtStake w rid m (confirmedBooks w rid (log ++ [x])) (others ++ [x]) stage := by
  rw [confirmedBooks_snoc]
  cases stage with
  | returned | aborted => trivial
  | cancelling =>
    rcases hs with hbooked | hcancelled
    · exact (booked_seen hr hbooked).imp_right does_last
    · exact .inr (does_before hcancelled x)
  | querying | booking | restoring =>
    rcases hs with hfree | hbooked
    · exact (free_seen hfree).imp_right does_last
    · exact .inr (does_before hbooked x)

/-- An answer to a write, by its status. -/
theorem written_cases (hx : Explains w rid books (.write req) reply) (hc : req.IsClient) :
    (reply.status = .ok ∧ ∃ now ts res, req.record (w.service rid .primary) now ts
        (books.get? (req.key (w.service rid .primary))) = some res ∧
      (Seen.asked rid (.write req) reply).write w rid books =
        req.op.write books (req.key (w.service rid .primary)) res) ∨
    (reply.status ≠ .ok ∧ (Seen.asked rid (.write req) reply).write w rid books = books ∧
      ((w.service rid .primary).precheck req = none →
        ¬ req.op.Expects (books.get? (req.key (w.service rid .primary))))) := by
  rcases explains_cases hx hc with ⟨now, ts, res, hres, rfl⟩ | ⟨herr, hno⟩
  · exact .inl ⟨Node.confirmation_status .., now, ts, res, hres, write_confirmed hc res⟩
  · refine .inr ⟨?_, write_error herr rid, hno⟩
    rw [herr]
    decide

/-- What the answer to a request of the dialogue does. -/
theorem atStake_write (hx : Explains w rid books (.write req) reply)
    (hreq : m.write? rid stage = some req) (hs : AtStake w rid m books others stage) :
    AtStake w rid m ((Seen.asked rid (.write req) reply).write w rid books) others
      (Modification.next stage reply) := by
  rcases written_cases hx (write?_client hreq) with
    ⟨hok, now, ts, res, hres, hwrite⟩ | ⟨hne, hsame, -⟩
  · rw [hwrite]
    cases stage with
    | cancelling =>
      obtain rfl := Option.some.inj hreq
      rw [Modification.next, if_pos hok]
      exact .inl ((get?_write ..).trans (if_pos rfl))
    | booking t =>
      rw [Modification.next, if_pos hok]
      trivial
    | restoring => trivial
    | querying | returned | aborted => cases hreq
  · rw [hsame]
    cases stage with
    | cancelling =>
      rw [Modification.next, if_neg hne]
      trivial
    | booking t =>
      rw [Modification.next, if_neg hne]
      exact hs
    | restoring => trivial
    | querying | returned | aborted => cases hreq

theorem modifies_atStake (hm : Modifies rid m before stage log others)
    (hbooked : (confirmedBooks w rid before).get? (w.oldKey rid m) = some m.existing)
    (hr : Runs w (log ++ after) site) (hup : .crashed rid .backup ∉ log) :
    AtStake w rid m (confirmedBooks w rid log) others stage := by
  induction hm generalizing after with
  | start => exact .inl hbooked
  | other stage log others x hm hf ih =>
    rw [List.append_assoc] at hr
    exact atStake_other hr (ih hr fun h => hup (List.mem_append_left _ h))
  | write stage log others req reply hm hreq ih =>
    rw [List.append_assoc] at hr
    have hold : .crashed rid .backup ∉ log := fun h => hup (List.mem_append_left _ h)
    rw [confirmedBooks_snoc]
    refine atStake_write ?_ hreq (ih hr hold)
    exact ((kept_runs hr).accounted log _ _ _ after rfl).resolve_right fun h => hold h.1
  | query log others q reply hm hsend ih =>
    rw [List.append_assoc] at hr
    have hs := ih hr fun h => hup (List.mem_append_left _ h)
    rw [confirmedBooks_snoc]
    unfold Modification.next
    simp only
    split
    · exact hs
    · exact hs
  | unserved log others hm hsend ih => exact ih hr hup
  | raised log others hm hsend ih => trivial

/-- How the last answer leaves the customer. -/
theorem leftWith_last (hx : Explains w rid books (.write req) reply)
    (hreq : m.write? rid stage = some req) (hs : AtStake w rid m books others stage)
    (hend : Modification.next stage reply = .returned) (hrid : m.existing.restaurantId = rid)
    (htable : m.existing.tableId ∈ (w.tables rid).keys) :
    LeftWith w rid m ((Seen.asked rid (.write req) reply).write w rid books) others stage := by
  rcases written_cases hx (write?_client hreq) with
    ⟨hok, now, ts, res, hres, hwrite⟩ | ⟨hne, hsame, hno⟩
  · rw [hwrite]
    cases stage with
    | cancelling =>
      rw [Modification.next, if_pos hok] at hend
      cases hend
    | booking t =>
      obtain rfl := Option.some.inj hreq
      obtain rfl := Option.some.inj hres
      refine ⟨⟨_, (get?_write ..).trans (if_pos rfl), ?_⟩, fun hne => ?_⟩
      · subst hrid
        rfl
      · rw [get?_write]
        split_ifs with heq
        · exact absurd heq.symm hne
        · exact hs
    | restoring =>
      obtain rfl := Option.some.inj hreq
      obtain rfl := Option.some.inj hres
      refine .inl ⟨_, (get?_write ..).trans (if_pos rfl), ?_⟩
      subst hrid
      rfl
    | querying | returned | aborted => cases hreq
  · rw [hsame]
    cases stage with
    | cancelling =>
      obtain rfl := Option.some.inj hreq
      refine hs.resolve_left fun hbooked => ?_
      refine hno (refuse_eq_none.mpr ⟨_, htable, rfl⟩) fun hnone => ?_
      exact Option.some_ne_none _ (hbooked.symm.trans hnone)
    | booking t =>
      rw [Modification.next, if_neg hne] at hend
      cases hend
    | restoring =>
      obtain rfl := Option.some.inj hreq
      exact .inr (hs.resolve_left (hno (refuse_eq_none.mpr ⟨_, htable, rfl⟩)))
    | querying | returned | aborted => cases hreq

/-- When the dialogue ends, the customer has the new reservation, or has the old one again, unless
another customer has cancelled the old one before, or has booked its slot since it was given
up. -/
theorem modifying_dialogue {lines : ModifyLines} {q : Msg} {results : List Reservation}
    {count : Nat}
    (hr : Runs w (log ++ [.asked rid (.write req) reply]) site)
    (hchoose : lines.choose (w.service rid .primary) results = some m)
    (hm : Modifies rid m
      (before ++ [.asked rid (.read (.listReservations q)) (.reservations results count)])
      stage log others)
    (hreq : m.write? rid stage = some req) (hend : Modification.next stage reply = .returned)
    (hup : .crashed rid .backup ∉ log) :
    LeftWith w rid m (confirmedBooks w rid (log ++ [.asked rid (.write req) reply])) others
      stage := by
  have hk := kept_runs hr
  obtain ⟨between, rfl⟩ := hm.prefix
  have hsplit :
      before ++ [.asked rid (.read (.listReservations q)) (.reservations results count)] ++
        between ++ [.asked rid (.write req) reply] =
        before ++ .asked rid (.read (.listReservations q)) (.reservations results count) ::
          (between ++ [.asked rid (.write req) reply]) := by
    simp
  have hlast : Explains w rid (confirmedBooks w rid _) (.write req) reply :=
    (hk.accounted _ rid _ _ [] rfl).resolve_right fun h => hup h.1
  obtain ⟨k, hbooked⟩ :=
    listed_booked (hk.explains_ok hsplit rfl) (ModifyLines.choose_mem hchoose).1
  obtain ⟨rfl, htable, hrid⟩ := filed_books hr hsplit hbooked
  have hs := modifies_atStake hm (by rw [confirmedBooks_snoc]; exact hbooked) hr hup
  rw [confirmedBooks_snoc]
  exact leftWith_last hlast hreq hs hend hrid htable

end Site

end

namespace Site

def aliceChanges : ModifyLines := ⟨"1", " 2026-05-02", "", ""⟩

/-- The query of the gateway for her new date. -/
def aliceQuery : Msg := (Ask.mk "restaurant_1" "2026-05-02" "18:00" 2).message

/-- What the backup does for Alice: a booking, a list, a cancellation, an offer and the new
booking. -/
theorem alice_moved : ∃ b booked results count m b₁ cancelled tables b₂ moved,
    Node.Serves (twoWebs.service "restaurant_1" .backup) (halfDown.nodes "restaurant_1" .backup)
      (.client 0) (.book (Server.bookMessage (aliceAsk.body aliceChoice)))
      [.acquire, .check, .stamp 3, .skipReplication, .store, .release] b booked ∧
    b.read (twoWebs.service "restaurant_1" .backup) (twoWebs.cat "restaurant_1")
      (.listReservations []) = .reservations results count ∧
    aliceChanges.choose (twoWebs.service "restaurant_1" .primary) results = some m ∧
    m.newDate = .str "2026-05-02" ∧ sendable m.availabilityPath = true ∧
    Node.Serves (twoWebs.service "restaurant_1" .backup) b (.client 1)
      (.cancel (Server.cancelMessage (cancelBody "restaurant_1" m.existing)))
      [.acquire, .check, .stamp 4, .skipReplication, .store, .release] b₁ cancelled ∧
    cancelled.status = .ok ∧
    b₁.read (twoWebs.service "restaurant_1" .backup) (twoWebs.cat "restaurant_1")
      (.checkAvailability aliceQuery) =
        .availability "restaurant_1" (.str "2026-05-02") (.str "18:00") tables ∧
    (matchTable tables).map (·.tableId) = some "T1" ∧
    Node.Serves (twoWebs.service "restaurant_1" .backup) b₁ (.client 2)
      (.book (Server.bookMessage (bookBody "restaurant_1" (m.modified "T1"))))
      [.acquire, .check, .stamp 5, .skipReplication, .store, .release] b₂ moved ∧
    moved.status = .ok :=
  ⟨_, _, _, _, _, _, _, _, _, _, ⟨rfl, rfl⟩, rfl, rfl, rfl, rfl, ⟨rfl, rfl⟩, rfl, rfl, rfl,
    ⟨rfl, rfl⟩, rfl⟩

/-- Alice moves her reservation to the next day, while the first primary is down. -/
theorem modifying_dialogue_alice : ∃ log req reply m site,
    Runs twoWebs (log ++ [.asked "restaurant_1" (.write req) reply]) site ∧
      .crashed "restaurant_1" .primary ∈ log ∧ m.newDate = .str "2026-05-02" ∧
      LeftWith twoWebs "restaurant_1" m
        (confirmedBooks twoWebs "restaurant_1" (log ++ [.asked "restaurant_1" (.write req) reply]))
        [] (.booking "T1") := by
  obtain ⟨b, booked, results, count, m, b₁, cancelled, tables, b₂, moved, hb, hlist, hchoose, hdate,
    hsend, hb₁, hcancelled, hoffer, hbest, hb₂, hmoved⟩ := alice_moved
  have hcrashed : Runs twoWebs [.crashed "restaurant_1" .primary] halfDown :=
    .crashes [] _ _ _ .start
  have hbooked := halfDown_writes hcrashed rfl rfl (by trivial) hb
  have hlisted := halfDown_reads hbooked rfl rfl hlist
  have hgiven := halfDown_writes hlisted rfl rfl (by trivial) hb₁
  have hoffered := halfDown_reads hgiven rfl rfl hoffer
  have hmoves := halfDown_writes hoffered rfl rfl (by trivial) hb₂
  have hquerying : Modification.next .cancelling (.written cancelled) = .querying :=
    if_pos hcancelled
  have hbooking : Modification.next .querying
      (.availability "restaurant_1" (.str "2026-05-02") (.str "18:00") tables) = .booking "T1" := by
    obtain ⟨best, hbest, htable⟩ := Option.map_eq_some_iff.mp hbest
    unfold Modification.next
    simp only [Reply.tables, hbest, htable]
  have hstages (before : List Seen) : Modifies "restaurant_1" m before (.booking "T1")
      (before ++
        [.asked "restaurant_1"
          (.write (.cancel (Server.cancelMessage (cancelBody "restaurant_1" m.existing))))
          (.written cancelled)] ++
        [.asked "restaurant_1" (.read (.checkAvailability aliceQuery))
          (.availability "restaurant_1" (.str "2026-05-02") (.str "18:00") tables)]) [] := by
    have hstart : Modifies "restaurant_1" m before .cancelling before [] := .start
    have hgiven := hstart.write _ _ _ _ (.written cancelled) rfl
    rw [hquerying] at hgiven
    rw [← hbooking]
    exact hgiven.query _ _ _ _ hsend
  exact ⟨_, _, _, m, _, hmoves, by simp, hdate,
    modifying_dialogue hmoves hchoose (hstages _) rfl (if_pos hmoved) (by simp)⟩

end Site

end ReservationSystem
