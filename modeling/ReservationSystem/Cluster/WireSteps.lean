import ReservationSystem.Cluster.Requests

/-!
# The steps of a node, on the wire

On the messages that the typed node takes, `_bookTable` and `_cancelReservation` as they are in
`Cluster.Requests` do its steps and answer what it answers.
-/

namespace ReservationSystem

namespace WireServer

def ofNode (time : Nat → Json) (sent : List Msg) (s : Node) : WireServer where
  toWireNode := WireNode.ofNode time s
  backUp := s.backUp
  replicator := s.replicator
  replications := sent

section
variable {cfg : Service} {env : Surroundings} {op : Op} {msg : Msg} {t : TableId} {h : Thread}
  {s : Node} {time : Nat → Json} {now : Nat} {sent : List Msg} {resp : Response} {o : Outcome}

theorem request_isClient (op : Op) (msg : Msg) : (request op msg).IsClient := by
  cases op <;> trivial

theorem request_op (op : Op) (msg : Msg) : (request op msg).op = op := by
  cases op <;> rfl

theorem request_precheck (op : Op) (msg : Msg) :
    cfg.precheck (request op msg) = cfg.refuse (msg.get "table_id") := by
  cases op <;> rfl

theorem request_table (htable : msg.get "table_id" = .str t) : (request op msg).table = t := by
  cases op <;> simp only [request, Request.table, htable]

theorem request_key (htable : msg.get "table_id" = .str t) :
    (request op msg).key cfg = cfg.slotKey msg t := by
  cases op <;> simp only [request, Request.key, Request.table, htable] <;> rfl

/-- The typed model and this one turn down the same tables. -/
theorem lockOf_refuse (hpre : cfg.refuse (msg.get "table_id") = some resp) :
    (∃ text, WireNode.lockOf cfg (msg.get "table_id") = .error text ∧ resp = errorAnswer text) ∨
      WireNode.lockOf cfg (msg.get "table_id") = .ok none ∧
        resp = errorAnswer ("Table " ++ cfg.fstr (msg.get "table_id") ++ " does not exist") := by
  generalize msg.get "table_id" = v at hpre ⊢
  cases v with
  | list vs => exact .inl ⟨_, rfl, (Option.some.inj hpre).symm⟩
  | dict fields => exact .inl ⟨_, rfl, (Option.some.inj hpre).symm⟩
  | str t =>
    simp only [Service.refuse] at hpre
    split_ifs at hpre with ht
    refine .inr ⟨?_, (Option.some.inj hpre).symm⟩
    unfold WireNode.lockOf
    simp only [Json.hashed, bind, Except.bind, if_neg ht]
    rfl
  | float x =>
    refine .inr ⟨?_, (Option.some.inj hpre).symm⟩
    cases hw : (Json.float x).hashed with
    | error text => exact (Json.hashed_error.mp ⟨text, hw⟩).elim
    | ok w =>
      unfold WireNode.lockOf
      rw [hw]
      cases w with
      | str t => cases Json.hashed_str.mp hw
      | _ => rfl
  | _ => exact .inr ⟨rfl, (Option.some.inj hpre).symm⟩

theorem get?_ofNode (k : Key) : (ofNode time sent s).reservations.get? k.encode =
    (s.reservations.get? k).map (·.encode time) :=
  Dict.get?_transport Key.encode_injective _ _ _

theorem write_encode (op : Op) (store : Dict Key Reservation) (k : Key) (res : Reservation) :
    op.write (store.transport Key.encode_injective (·.encode time)) k.encode (res.encode time) =
      (op.write store k res).transport Key.encode_injective (·.encode time) := by
  cases op with
  | book => exact (Dict.transport_set ..).symm
  | cancel => exact (Dict.transport_erase ..).symm

theorem expects_ofNode :
    op.Expects ((ofNode time sent s).reservations.get? (cfg.slotKey msg t).encode) ↔
      op.Expects (s.reservations.get? (cfg.slotKey msg t)) := by
  rw [get?_ofNode]
  cases op <;> simp [Op.Expects]

/-- The record of the typed model, as it is sent. -/
theorem recordOf_ofNode {res : Reservation} (htable : msg.get "table_id" = .str t)
    (htime : time now = .float env.time)
    (hres : (request op msg).record cfg now (Node.nextLamport s.logicalClock)
      (s.reservations.get? (cfg.slotKey msg t)) = some res) :
    recordOf cfg env op msg t (ofNode time sent s) = res.encode time := by
  cases op with
  | book =>
    obtain rfl := Option.some.inj hres
    have ht : (Request.book msg).table = t := @request_table .book msg t htable
    simp only [recordOf, recordAt, newRecord, newReservation, Reservation.encode, ht, htime]
    rfl
  | cancel =>
    obtain ⟨old, hold, rfl⟩ := Option.map_eq_some_iff.mp hres
    simp only [recordOf, recordAt, get?_ofNode, hold]
    simp [Msg.set, Reservation.encode]
    rfl

/-- What the handler returns or raises comes to this answer, if it can be sent. -/
def Delivers (env : Surroundings) (result : Except String Msg) (response : Msg) : Prop :=
  sendMessage env response = .ok () → deliver env result = some response

theorem delivers_ok (response : Msg) : Delivers env (.ok response) response := by
  intro hsend
  unfold deliver
  simp only [hsend]

theorem delivers_error (text : String) : Delivers env (.error text) (errorMsg text) := by
  intro hsend
  unfold deliver sendError
  simp only [hsend]

theorem encode_confirmation (res : Reservation) :
    ((request op msg).confirmation res).encode time op = op.confirmation (res.encode time) := by
  cases op <;> rfl

/-- The replicator returns or raises. -/
def outcome : Outcome → Except String Bool
  | .acked => .ok true
  | .failed => .ok false
  | .raised text => .error text

/-- The typed handler can take these steps, and leaves the node and the answer that this one
does. -/
def Agrees (cfg : Service) (env : Surroundings) (time : Nat → Json) (sent : List Msg) (op : Op)
    (msg : Msg) (h : Thread) (s : Node) (as : List Action) : Prop :=
  ∃ s' resp, Node.Serves cfg s h (request op msg) as s' resp ∧
    (handleClient cfg env h op msg (ofNode time sent s)).2.toWireNode = WireNode.ofNode time s' ∧
      (sendMessage env (resp.encode time op) = .ok () →
        (handleClient cfg env h op msg (ofNode time sent s)).1 = some (resp.encode time op))

theorem precheck_ofNode (he : Enters cfg env msg t (ofNode time sent s)) :
    cfg.precheck (request op msg) = none := by
  rw [request_precheck, he.table]
  exact if_pos he.known

theorem acknowledgement_ofNode (hrep : ∀ message, env.replicate message = outcome o) (k : Key)
    (record : Msg) : acknowledgement env op k record (ofNode time sent s) =
      if s.replicates then outcome o else .ok true := by
  unfold acknowledgement
  rw [hrep]
  rfl

/-- The dict write of both models. -/
theorem wrote_ofNode (htable : msg.get "table_id" = .str t) (res : Reservation) :
    (wrote op (cfg.slotKey msg t) (res.encode time) (ofNode time sent s)).toWireNode =
      { WireNode.ofNode time s with
        reservations := ((request op msg).op.write s.reservations ((request op msg).key cfg)
          res).transport Key.encode_injective (·.encode time)
        logicalClock := Node.nextLamport s.logicalClock } := by
  rw [request_op, request_key htable, ← write_encode]
  rfl

/-- With nothing that cannot be printed, the replicator alone decides how the handler ends. -/
theorem run_ofNode (hp : Proceeds cfg env op msg t (ofNode time sent s))
    (hname : Printable env (msg.get "customer_name"))
    (hstamp : (Json.int (s.logicalClock + 1)).tooLong = false)
    (hrep : ∀ message, env.replicate message = outcome o) :
    let record := recordOf cfg env op msg t (ofNode time sent s)
    (handler cfg env h op msg).run.run (ofNode time sent s) =
      match if s.replicates then outcome o else .ok true with
      | .ok true =>
        (.ok (op.confirmation record), wrote op (cfg.slotKey msg t) record (ofNode time sent s))
      | .ok false =>
        (.ok (errorMsg "Backup replication failed"),
          asked op (cfg.slotKey msg t) record (ofNode time sent s))
      | .error text => (.error text, asked op (cfg.slotKey msg t) record (ofNode time sent s)) := by
  obtain ⟨line, hline⟩ := (@doneLine_eq_ok cfg env op msg t (s.logicalClock + 1) hp.date
    hp.timeslot).mpr ⟨fun _ => hname, hstamp⟩
  obtain ⟨failure, hfailed⟩ := @failedLine_printable cfg env op msg t hp.date hp.timeslot
  have hclock : (ofNode time sent s).logicalClock + 1 = (s.logicalClock + 1 : Int) := rfl
  rw [run_proceeds hp, acknowledgement_ofNode hrep, hclock, hline, hfailed]
  rfl

section
variable {as : List Action} {es : List Entry} {d : Data} {result : Except String Msg}
  {s₁ : WireServer} (hnew : s.handlers h = none)
include hnew

theorem agrees_of_course (hcourse : Node.Course cfg s h (request op msg) as es d resp)
    (hrun : (handler cfg env h op msg).run.run (ofNode time sent s) = (result, s₁))
    (hstate : s₁.toWireNode = { WireNode.ofNode time s with
      reservations := d.reservations.transport Key.encode_injective (·.encode time)
      logicalClock := d.logicalClock })
    (hdelivers : Delivers env result (resp.encode time op)) :
    Agrees cfg env time sent op msg h s as := by
  refine ⟨_, resp, hcourse.serves (request_isClient op msg) hnew, ?_⟩
  unfold handleClient
  rw [hrun]
  exact ⟨hstate, hdelivers⟩

theorem agrees_refused (hpre : cfg.precheck (request op msg) = some resp)
    (htable : Printable env (msg.get "table_id")) : Agrees cfg env time sent op msg h s [] := by
  have hcourse := Node.Course.refused (s := s) (h := h) resp hpre
  rw [request_precheck] at hpre
  rcases lockOf_refuse hpre with ⟨text, hlock, rfl⟩ | ⟨hlock, rfl⟩
  · exact agrees_of_course hnew hcourse (run_handler_error hlock) rfl (delivers_error text)
  · have hrun := (@run_handler_none cfg env op msg h (ofNode time sent s) hlock).trans
      run_unknownTable
    rw [fstr_printable htable] at hrun
    exact agrees_of_course hnew hcourse hrun rfl (delivers_ok _)

variable (he : Enters cfg env msg t (ofNode time sent s))
include he

theorem agrees_conflict (hno : ¬ op.Expects (s.reservations.get? (cfg.slotKey msg t))) :
    Agrees cfg env time sent op msg h s [.acquire, .check, .release] := by
  have hpre := @precheck_ofNode cfg env op msg t s time sent he
  have hcourse : Node.Course cfg s h (request op msg) _ _ _ _ :=
    .conflict hpre (by rw [request_table he.table]; exact he.free)
      (by rwa [request_op, request_key he.table])
  refine agrees_of_course hnew hcourse
    (run_conflict he fun hyes => hno (expects_ofNode.mp hyes)) rfl ?_
  have hencode : ((request op msg).conflict cfg).encode time op =
      errorMsg ((request op msg).conflict cfg).message := by cases op <;> rfl
  rw [hencode]
  exact delivers_ok _

theorem agrees_commit (hyes : op.Expects (s.reservations.get? (cfg.slotKey msg t)))
    (hname : Printable env (msg.get "customer_name"))
    (hstamp : (Json.int (s.logicalClock + 1)).tooLong = false)
    (htime : time now = .float env.time) (hrep : ∀ message, env.replicate message = outcome o) :
    Agrees cfg env time sent op msg h s (s.script cfg (request op msg) now o) := by
  have hpre := @precheck_ofNode cfg env op msg t s time sent he
  have hfree : s.tableLocks (request op msg).table = none := by
    rw [request_table he.table]
    exact he.free
  have hyes' : (request op msg).op.Expects (s.reservations.get? ((request op msg).key cfg)) := by
    rwa [request_op, request_key he.table]
  obtain ⟨res, hres⟩ := Node.record_of_expects (request_isClient op msg) hyes' now
    (Node.nextLamport s.logicalClock)
  have hrecord : recordOf cfg env op msg t (ofNode time sent s) = res.encode time := by
    rw [request_key he.table] at hres
    exact recordOf_ofNode he.table htime hres
  have hrun := @run_ofNode cfg env op msg t h s time sent o
    ⟨he, expects_ofNode.mpr hyes⟩ hname hstamp hrep
  rw [hrecord] at hrun
  have hwrote := @wrote_ofNode cfg op msg t s time sent he.table res
  have hdelivers : Delivers env (.ok (op.confirmation (res.encode time)))
      (((request op msg).confirmation res).encode time op) := by
    rw [encode_confirmation]
    exact delivers_ok _
  unfold Node.script
  rw [if_neg (by simp [hpre]), if_pos hyes']
  cases hreps : s.replicates with
  | false =>
    rw [hreps] at hrun
    exact agrees_of_course hnew
      (.unreplicated now _ res hpre hfree rfl hyes' hres hreps) hrun hwrote hdelivers
  | true =>
    rw [hreps] at hrun
    cases o with
    | acked =>
      exact agrees_of_course hnew
        (.replicated now _ res hpre hfree rfl hyes' hres hreps) hrun hwrote hdelivers
    | failed =>
      exact agrees_of_course hnew
        (.failed now .failed _ res hpre hfree rfl hyes' hres hreps nofun) hrun rfl (delivers_ok _)
    | raised text =>
      exact agrees_of_course hnew
        (.failed now (.raised text) _ res hpre hfree rfl hyes' hres hreps nofun) hrun rfl
        (delivers_error text)

end

/-- Where everything can be printed, the handlers do the steps of the typed node, and answer what
it answers. -/
theorem handleClient_ofNode (hnew : s.handlers h = none)
    (hfree : s.tableLocks (request op msg).table = none)
    (hprint : ∀ name, Printable env (msg.get name))
    (hstamp : (Json.int (s.logicalClock + 1)).tooLong = false)
    (htime : time now = .float env.time) (hrep : ∀ message, env.replicate message = outcome o) :
    Agrees cfg env time sent op msg h s (s.script cfg (request op msg) now o) := by
  cases hpre : cfg.precheck (request op msg) with
  | some resp =>
    have hagrees : Agrees cfg env time sent op msg h s [] :=
      agrees_refused hnew hpre (hprint "table_id")
    unfold Node.script
    rwa [hpre]
  | none =>
    obtain ⟨t, ht, htable⟩ := refuse_eq_none.mp ((request_precheck op msg).symm.trans hpre)
    have he : Enters cfg env msg t (ofNode time sent s) := by
      rw [request_table htable] at hfree
      exact ⟨htable, ht, hfree, hprint _, hprint _⟩
    by_cases hyes : op.Expects (s.reservations.get? (cfg.slotKey msg t))
    · exact agrees_commit hnew he hyes (hprint _) hstamp htime hrep
    · have hagrees := agrees_conflict hnew he hyes
      unfold Node.script
      rwa [if_neg (by simp [hpre]), if_neg (by rwa [request_op, request_key htable])]

end

end WireServer

end ReservationSystem
