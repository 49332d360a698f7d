import ReservationSystem.Cluster.Requests
import ReservationSystem.Gateway.Answering
import ReservationSystem.Site.Books

/-!
# What a customer gets over HTTP

The handlers of the gateway in front of the site. A response can be foretold from the responses
before it.
-/

namespace ReservationSystem

open Gateway (Address sendToService failoverPort)
open Raising Url

/-! ## Messages -/

/-- The branch of `_handleClient` that a message takes. Heartbeats and replication messages are
not sent by the gateway, and have handlers of their own. -/
def Msg.demand? (msg : Msg) : Option Demand :=
  match msg.get "action" with
  | .str "heartbeat" | .str "apply_replication" => none
  | .str "get_info" => some (.read .getInfo)
  | .str "check_availability" => some (.read (.checkAvailability msg))
  | .str "book" => some (.write (.book msg))
  | .str "cancel" => some (.write (.cancel msg))
  | .str "list_reservations" => some (.read (.listReservations msg))
  | action => some (.read (.unknown action))

def TableInfo.encode (table : TableInfo) : Json :=
  .dict [("capacity", .int table.capacity), ("location", .str table.location)]

def RestaurantInfo.encode (info : RestaurantInfo) : Msg :=
  [("status", .str "ok"), ("restaurant_id", .str info.restaurantId), ("name", info.name),
    ("cuisine", info.cuisine), ("address", info.address), ("menu_url", info.menuUrl),
    ("description", info.description), ("price_range", info.priceRange), ("rating", info.rating),
    ("features", info.features),
    ("tables", .dict (info.tables.entries.map fun e => (e.1, e.2.encode))),
    ("timeslots", info.timeslots)]

def TableOffer.encode (offer : TableOffer) : Json :=
  .dict [("table_id", .str offer.tableId), ("capacity", .int offer.capacity),
    ("location", .str offer.location)]

/-- The JSON object that a node sends back. -/
def Reply.encode (time : Nat → Json) (demand : Demand) : Reply → Msg
  | .written resp =>
    match demand with
    | .write req => resp.encode time req.op
    | .read _ => resp.encode time .book
  | .info about => about.encode
  | .availability rid date timeslot tables =>
    [("status", .str "ok"), ("restaurant_id", .str rid), ("date", date), ("timeslot", timeslot),
      ("available_tables", .list (tables.map TableOffer.encode))]
  | .reservations results count =>
    [("status", .str "ok"),
      ("reservations", .list (results.map fun res => .dict (res.encode time))),
      ("count", .int count)]

section
variable {time : Nat → Json} {demand : Demand}

theorem encodes_response (op : Op) (resp : Response) :
    Server.Encodes (.written resp) (resp.encode time op) := by
  obtain ⟨status, text, record⟩ := resp
  constructor
  · cases status <;> rfl
  · cases status with
    | error => rfl
    | ok =>
      by_cases htext : text = ""
      · subst htext
        cases record <;> cases op <;> rfl
      · have hsays : ¬ (Status.ok = .ok ∧ text = "") := fun h => htext h.2
        unfold Response.encode
        rw [if_neg hsays]
        rfl

theorem encodes_reply (reply : Reply) : Server.Encodes reply (reply.encode time demand) := by
  cases reply with
  | written resp =>
    cases demand with
    | read q => exact encodes_response .book resp
    | write req => exact encodes_response req.op resp
  | _ =>
    constructor <;> rfl

end

/-! ## Requests over HTTP -/

inductive Http
  | get (target : List Char)
  | post (target : List Char) (body : ByteArray)
  | delete (target : List Char) (body : ByteArray)

/-- What the gateway needs of Python's libraries, and the text of a time in JSON. -/
structure Libraries where
  loads : List Char → Except LoadsError Json
  odd : List Char → Option String
  time : Nat → Json

/-- The gateway of a site, when the services answer as `net` says. -/
def Site.gateway (w : Web) (lib : Libraries) (site : Site) (net : Address → Msg → Msg) :
    Server where
  restaurantServiceMap := site.serviceMap
  backupMap := w.backupMap
  replicationHost := w.replicationHost
  loads := lib.loads
  odd := lib.odd
  printable := w.printable
  net := net

namespace Server

def handle (g : Server) : Http → Responding Unit
  | .get target => g.doGet target
  | .post target body => g.doPost target body
  | .delete target body => g.doDelete target body

/-- The requests that are passed on to a restaurant: what it gets, and the status of the response
for what it says. -/
inductive Passes (g : Server) : Http → String → Msg → (Msg → Nat) → Prop
  | get (target path query : List Char) (rid : String) (msg : Msg)
      (hparse : urlparse g.odd target = .ok ⟨path, query⟩)
      (hroute : Routes path query rid (.ok msg)) :
      Passes g (.get target) rid msg fun _ => 200
  | post (target path query : List Char) (body : ByteArray) (fields : Msg) (rid : String)
      (hparse : urlparse g.odd target = .ok ⟨path, query⟩) (hpath : path = "/reservations".toList)
      (hbody : g.Holds body (.dict fields)) (hrid : fields.get "restaurant_id" = .str rid)
      (hne : rid ≠ "") :
      Passes g (.post target body) rid (bookMessage fields) fun resp =>
        if resp.get "status" = .str "ok" then 200 else 409
  | delete (target path query : List Char) (body : ByteArray) (fields : Msg) (rid : String)
      (hparse : urlparse g.odd target = .ok ⟨path, query⟩) (hpath : path = "/reservations".toList)
      (hbody : g.Holds body (.dict fields)) (hrid : fields.get "restaurant_id" = .str rid)
      (hne : rid ≠ "") :
      Passes g (.delete target body) rid (cancelMessage fields) fun resp =>
        if resp.get "status" = .str "ok" then 200 else 400

section
variable {g : Server} {r : Http} {rid : String} {msg resp : Msg} {status : Msg → Nat} {a : Address}

theorem run_ok {α β : Type} {x : Except String α} {v : α} {f : α → Responding β}
    {sent : List Sent} (h : x = .ok v) : (liftM x >>= f).run.run sent = (f v).run.run sent := by
  rw [run_bind, run_lift, h]

theorem run_forward (haddr : g.restaurantServiceMap.get? rid = some a)
    (hresp : g.sendToServiceWithFailover a msg = .ok resp) :
    (g.forward (.str rid) (.ok msg) status).run.run [] = (.ok (), [⟨status resp, .dict resp⟩]) := by
  have hsend : (Except.ok msg >>= g.sendToServiceWithFailover a) = .ok resp := hresp
  unfold forward
  rw [run_ok (getServiceAddress_str.trans (congrArg Except.ok haddr)), run_ok hsend]
  rfl

theorem run_onReservations {message : Msg → Msg} {failed : Nat} {target path query : List Char}
    {body : ByteArray} {fields : Msg} (hparse : urlparse g.odd target = .ok ⟨path, query⟩)
    (hpath : path = "/reservations".toList) (hbody : g.Holds body (.dict fields))
    (hrid : fields.get "restaurant_id" = .str rid) (hne : rid ≠ "")
    (haddr : g.restaurantServiceMap.get? rid = some a)
    (hresp : g.sendToServiceWithFailover a (message fields) = .ok resp) :
    (g.onReservations message failed target body).run.run [] =
      (.ok (), [⟨if resp.get "status" = .str "ok" then 200 else failed, .dict resp⟩]) := by
  have htruthy : (Json.str rid).truthy = true := by simpa [Json.truthy] using hne
  have hfields : Json.fields (.dict fields) = .ok fields := rfl
  have hread : ¬ Json.dict fields = .null := Json.noConfusion
  unfold onReservations
  rw [run_ok hparse, run_ok hbody.readBody, if_neg hread, if_pos hpath, run_ok hfields]
  simp only [hrid]
  rw [if_pos htruthy]
  exact run_forward haddr hresp

theorem run_handle (hp : g.Passes r rid msg status)
    (haddr : g.restaurantServiceMap.get? rid = some a)
    (hresp : g.sendToServiceWithFailover a msg = .ok resp) :
    (g.handle r).run.run [] = (.ok (), [⟨status resp, .dict resp⟩]) := by
  cases hp with
  | post target path query body fields rid hparse hpath hbody hrid hne =>
    exact run_onReservations hparse hpath hbody hrid hne haddr hresp
  | delete target path query body fields rid hparse hpath hbody hrid hne =>
    exact run_onReservations hparse hpath hbody hrid hne haddr hresp
  | get target path query rid msg hparse hroute =>
    have hfirst := hroute.ne_restaurants
    have hsecond := hroute.second
    unfold handle doGet
    rw [run_ok hparse, if_neg hfirst]
    generalize hm : Except.ok msg = message at hroute
    cases hroute with
    | availability _ ha =>
      rw [if_pos ha, run_ok hsecond, ← hm]
      exact run_forward haddr hresp
    | info _ ha hr =>
      rw [if_neg ha, if_pos hr, run_ok hsecond]
      obtain rfl := Except.ok.inj hm
      exact run_forward haddr hresp
    | list _ ha hr =>
      have hno : ¬ "/restaurants/".toList <+: path := fun h => prefixes_exclusive h hr
      rw [if_neg ha, if_neg hno, if_pos hr, run_ok hsecond]
      obtain rfl := Except.ok.inj hm
      exact run_forward haddr hresp

end

end Server

namespace Site

/-- An exchange, in the messages of which `net` consists. -/
inductive Speaks (w : Web) (lib : Libraries) (site : Site) (net : Address → Msg → Msg) (a : Address)
    (msg : Msg) (demand : Demand) : Reply → Site → Prop
  | answered (attempt : Gateway.Attempt) (site' : Site)
      (hc : Contacts w site a demand attempt site')
      (hport : failoverPort w.backupMap a.2 (sendToService attempt) = none)
      (hnet : net a msg = (sendToService attempt).encode lib.time demand) :
      Speaks w lib site net a msg demand (sendToService attempt) site'
  | failedOver (attempt attempt' : Gateway.Attempt) (port : Nat) (site₁ site' : Site)
      (hc : Contacts w site a demand attempt site₁)
      (hport : failoverPort w.backupMap a.2 (sendToService attempt) = some port)
      (hc' : Contacts w site₁ (w.replicationHost, port) demand attempt' site')
      (hnet : net a msg = (sendToService attempt).encode lib.time demand)
      (hnet' : net (w.replicationHost, port) msg =
        (sendToService attempt').encode lib.time demand) :
      Speaks w lib site net a msg demand (sendToService attempt') site'

/-- The gateway handles a request that it passes on to the restaurant `rid`, and sends `sent`. -/
inductive Serves (w : Web) (lib : Libraries) (site : Site) (r : Http) (rid : String)
    (demand : Demand) : Reply → List Sent → Site → Prop
  | intro (net : Address → Msg → Msg) (msg : Msg) (status : Msg → Nat) (a : Address)
      (reply : Reply) (site' : Site)
      (hpasses : (site.gateway w lib net).Passes r rid msg status)
      (hdemand : msg.demand? = some demand) (haddr : site.serviceMap.get? rid = some a)
      (hspeaks : Speaks w lib site net a msg demand reply site') :
      Serves w lib site r rid demand reply
        (((site.gateway w lib net).handle r).run.run []).2 site'

/-- The status that stands for a request that was not carried out. -/
def failure : Op → Nat
  | .book => 409
  | .cancel => 400

/-- The response that the books of a restaurant call for. -/
inductive Promised (w : Web) (lib : Libraries) (rid : String) (books : Dict Key Reservation) :
    Demand → Sent → Prop
  | read (q : Query) :
      Promised w lib rid books (.read q) ⟨200, .dict
        ((readBooks (w.service rid .primary) (w.cat rid) books q).encode lib.time (.read q))⟩
  | done (req : Request) (now ts : Nat) (res : Reservation)
      (hpre : (w.service rid .primary).precheck req = none)
      (hyes : req.op.Expects (books.get? (req.key (w.service rid .primary))))
      (hres : req.record (w.service rid .primary) now ts
        (books.get? (req.key (w.service rid .primary))) = some res) :
      Promised w lib rid books (.write req)
        ⟨200, .dict ((req.confirmation res).encode lib.time req.op)⟩
  | unknown (req : Request) (resp : Response)
      (hpre : (w.service rid .primary).precheck req = some resp) :
      Promised w lib rid books (.write req)
        ⟨failure req.op, .dict (resp.encode lib.time req.op)⟩
  | conflict (req : Request) (hpre : (w.service rid .primary).precheck req = none)
      (hno : ¬ req.op.Expects (books.get? (req.key (w.service rid .primary)))) :
      Promised w lib rid books (.write req)
        ⟨failure req.op, .dict ((req.conflict (w.service rid .primary)).encode lib.time req.op)⟩

section
variable {w : Web} {lib : Libraries} {site site' : Site} {r : Http} {rid : String}
  {demand : Demand} {reply : Reply} {sent : List Sent} {net : Address → Msg → Msg} {a : Address}
  {msg : Msg} {status : Msg → Nat} {books : Dict Key Reservation}

theorem Speaks.exchanges (hs : Speaks w lib site net a msg demand reply site') :
    Exchanges w site a demand reply site' := by
  cases hs with
  | answered attempt site' hc hport => exact .answered attempt site' hc hport
  | failedOver attempt attempt' port site₁ site' hc hport hc' =>
    exact .failedOver attempt attempt' port site₁ site' hc hport hc'

theorem Speaks.sendToServiceWithFailover (hs : Speaks w lib site net a msg demand reply site') :
    (site.gateway w lib net).sendToServiceWithFailover a msg =
      .ok (reply.encode lib.time demand) := by
  have hlooks (reply : Reply) : Server.looksDown (reply.encode lib.time demand) =
      .ok (reply.status = .error ∧ System.mentionsUnavailable reply.message) :=
    Server.looksDown_encodes (encodes_reply reply)
  unfold Server.sendToServiceWithFailover
  cases hs with
  | answered attempt site' hc hport hnet =>
    simp only [gateway, hnet, hlooks, bind, Except.bind, decide_eq_true_eq]
    split_ifs with hdown
    · rw [failoverPort, if_pos hdown] at hport
      rw [hport]
      rfl
    · rfl
  | failedOver attempt attempt' port site₁ site' hc hport hc' hnet hnet' =>
    obtain ⟨hdown, hport⟩ := failoverPort_some hport
    simp only [gateway, hnet, hlooks, bind, Except.bind, decide_eq_true_eq]
    rw [if_pos (show _ ∧ _ from hdown), hport]
    exact congrArg Except.ok hnet'

theorem encode_ok_iff (demand : Demand) (reply : Reply) :
    (reply.encode lib.time demand).get "status" = .str "ok" ↔ reply.status = .ok := by
  rw [(encodes_reply reply).status]
  cases reply.status <;> simp

theorem routes_read {path query : List Char} {message : Except String Msg}
    (hr : Server.Routes path query rid message) (hmsg : message = .ok msg)
    (hd : msg.demand? = some demand) : ∃ q, demand = .read q := by
  cases hr with
  | availability =>
    obtain ⟨n, -, hn⟩ := bind_eq_ok.mp hmsg
    obtain rfl := Except.ok.inj hn
    exact ⟨_, (Option.some.inj hd).symm⟩
  | info =>
    obtain rfl := Except.ok.inj hmsg
    exact ⟨_, (Option.some.inj hd).symm⟩
  | list =>
    obtain rfl := Except.ok.inj hmsg
    exact ⟨_, (Option.some.inj hd).symm⟩

/-- The status of a response, from the answer of the restaurant. -/
def statusOf (demand : Demand) (reply : Reply) : Nat :=
  match demand with
  | .read _ => 200
  | .write req => if reply.status = .ok then 200 else failure req.op

theorem status_passes {g : Server} (hp : g.Passes r rid msg status)
    (hd : msg.demand? = some demand) (reply : Reply) :
    status (reply.encode lib.time demand) = statusOf demand reply ∧ demand.IsClient := by
  cases hp with
  | get target path query rid msg hparse hroute =>
    obtain ⟨q, rfl⟩ := routes_read hroute rfl hd
    exact ⟨rfl, trivial⟩
  | post | delete =>
    obtain rfl := Option.some.inj hd
    refine ⟨?_, trivial⟩
    simp only [encode_ok_iff]
    rfl

/-- An answer from the books is the one that they call for. -/
theorem promised (hc : demand.IsClient) (hx : Explains w rid books demand reply) :
    Promised w lib rid books demand
      ⟨statusOf demand reply, .dict (reply.encode lib.time demand)⟩ := by
  cases demand with
  | read q =>
    obtain rfl := hx
    exact .read q
  | write req =>
    obtain ⟨now, clock, rfl⟩ := hx
    rcases settle_cases hc now ⟨books, clock⟩ with
      ⟨resp, hpre, hresp, hset⟩ | ⟨hpre, hno, hset⟩ | ⟨hpre, hyes, res, hres, hset⟩
    · have herr : resp.status ≠ .ok := by
        rw [hresp]
        nofun
      rw [hset, statusOf, Reply.status, if_neg herr]
      exact .unknown req resp hpre
    · have herr : (req.conflict (w.service rid .primary)).status ≠ .ok := by
        rw [Node.conflict_status]
        nofun
      rw [hset, statusOf, Reply.status, if_neg herr]
      exact .conflict req hpre hno
    · rw [hset, statusOf, Reply.status, if_pos (Node.confirmation_status ..)]
      exact .done req now _ res hpre hyes hres

/-- As long as its backup runs, a restaurant gets one response for each request that is passed on
to it. It is the one that its books call for, which are those of the confirmed requests before. -/
theorem http_promised {log : List Seen} (hr : Runs w log site) (hup : .crashed rid .backup ∉ log)
    (hs : Serves w lib site r rid demand reply sent site') :
    (∃ x, sent = [x] ∧ Promised w lib rid (confirmedBooks w rid log) demand x) ∧
      Runs w (log ++ [.asked rid demand reply]) site' := by
  obtain ⟨net, msg, status, a, reply, site', hp, hd, haddr, hspeaks⟩ := hs
  have hrun := Server.run_handle hp haddr hspeaks.sendToServiceWithFailover
  obtain ⟨hstatus, hc⟩ : status (reply.encode lib.time demand) = statusOf demand reply ∧
      demand.IsClient := status_passes hp hd reply
  have hasked := Runs.asks log site site' rid a demand reply hr hc haddr hspeaks.exchanges
  refine ⟨⟨_, by rw [hrun], ?_⟩, hasked⟩
  rw [hstatus]
  refine promised hc (((kept_runs hasked).accounted _ _ _ _ [] rfl).resolve_right ?_)
  exact fun h => hup h.1

/-- Libraries for requests without a body. -/
def fewLibraries : Libraries where
  loads _ := .error .jsonDecodeError
  odd _ := none
  time n := .int n

def listTarget : List Char := "/reservations/restaurant_1".toList

/-- The request for the list, after Alice's booking and the crash. -/
theorem http_promised_alice : ∃ reply sent site x,
    Serves twoWebs fewLibraries site (.get listTarget) "restaurant_1"
      (.read (.listReservations (Server.listReservationsMessage []))) reply sent site ∧
      sent = [x] ∧ Promised twoWebs fewLibraries "restaurant_1"
        (site.nodes "restaurant_1" .backup).reservations
        (.read (.listReservations (Server.listReservationsMessage []))) x := by
  obtain ⟨booked, site, hcrashed, haddr, hdown, hreach⟩ := alice_crash
  let q : Query := .listReservations (Server.listReservationsMessage [])
  let attempt : Gateway.Attempt := .answered
    ((site.nodes "restaurant_1" .backup).read (twoWebs.service "restaurant_1" .backup)
      (twoWebs.cat "restaurant_1") q)
  let net (a : Address) (_ : Msg) : Msg :=
    if a.2 = 6001 then
      (sendToService (.noResponse "refused")).encode fewLibraries.time (.read q)
    else (sendToService attempt).encode fewLibraries.time (.read q)
  have hroute : Server.Routes listTarget [] "restaurant_1"
      (.ok (Server.listReservationsMessage [])) := .list rfl (by decide) (by decide)
  have hserves : Serves twoWebs fewLibraries site (.get listTarget) "restaurant_1" (.read q)
      (sendToService attempt) _ site :=
    .intro net _ _ _ _ _ (.get _ _ _ _ _ rfl hroute) rfl haddr
      (.failedOver _ attempt 7001 _ _ (.refused _ "refused" hdown) (failoverPort_unavailable ..)
        (.read _ _ _ hreach) rfl rfl)
  obtain ⟨⟨x, hx, hp⟩, -⟩ := http_promised hcrashed (by simp) hserves
  refine ⟨_, _, site, x, hserves, hx, ?_⟩
  rw [(kept_runs hcrashed).reservations (by simp)]
  exact hp

end

end Site

end ReservationSystem
