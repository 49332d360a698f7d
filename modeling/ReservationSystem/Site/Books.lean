import ReservationSystem.Cluster.Transparency
import ReservationSystem.Site.Spec

/-!
# The books of a restaurant

A restaurant seen through the gateway is a map from keys to records that takes one request at a
time. What it holds can be read off the answers that the gateway has passed on, whichever of the
two nodes gave them.
-/

namespace ReservationSystem

open Gateway (Address sendToService failoverPort)
open Node (settle)

/-! ## The abstract restaurant -/

/-- What a restaurant with these books answers to a query. -/
def readBooks (cfg : Service) (cat : Catalogue) (books : Dict Key Reservation) (q : Query) :
    Reply :=
  { Node.start cfg false with reservations := books }.read cfg cat q

/-- The answer that the books give, with the times that the node took. -/
def Explains (w : Web) (rid : String) (books : Dict Key Reservation) : Demand → Reply → Prop
  | .read q, reply => reply = readBooks (w.service rid .primary) (w.cat rid) books q
  | .write req, reply => ∃ now clock,
      reply = .written (settle (w.service rid .primary) req now ⟨books, clock⟩).2

/-- What an answer says about the books of `rid`. -/
def Seen.write (w : Web) (rid : String) (books : Dict Key Reservation) : Seen → Dict Key Reservation
  | .asked rid' (.write req) (.written ⟨.ok, _, some res⟩) =>
    if rid' = rid then req.op.write books (req.key (w.service rid .primary)) res else books
  | _ => books

/-- The books of `rid`, from the answers that the gateway has passed on. -/
def confirmedBooks (w : Web) (rid : String) (log : List Seen) : Dict Key Reservation :=
  log.foldl (Seen.write w rid) .empty

section
variable {w : Web} {rid : String} {side : Side} {s s' : Node} {h : Thread} {req : Request}
  {as : List Action} {resp : Response} {books : Dict Key Reservation}

theorem confirmedBooks_snoc (log : List Seen) (x : Seen) :
    confirmedBooks w rid (log ++ [x]) = x.write w rid (confirmedBooks w rid log) := by
  simp [confirmedBooks]

theorem read_eq_readBooks (q : Query) : s.read (w.service rid side) (w.cat rid) q =
    readBooks (w.service rid .primary) (w.cat rid) s.reservations q := by
  cases q <;> rfl

theorem settle_side (hc : req.IsClient) (now : Nat) (d : Data) :
    settle (w.service rid side) req now d = settle (w.service rid .primary) req now d := by
  cases req with
  | applyReplication msg => exact hc.elim
  | _ => rfl

/-- A request is turned down, finds its key in the wrong state, or is carried out. -/
theorem settle_cases {cfg : Service} (hc : req.IsClient) (now : Nat) (d : Data) :
    (∃ resp, cfg.precheck req = some resp ∧ resp.status = .error ∧
      settle cfg req now d = (d, resp)) ∨
    (cfg.precheck req = none ∧ ¬ req.op.Expects (d.reservations.get? (req.key cfg)) ∧
      settle cfg req now d = (d, req.conflict cfg)) ∨
    (cfg.precheck req = none ∧ req.op.Expects (d.reservations.get? (req.key cfg)) ∧
      ∃ res, req.record cfg now (Node.nextLamport d.logicalClock)
          (d.reservations.get? (req.key cfg)) = some res ∧
        settle cfg req now d =
          (⟨req.op.write d.reservations (req.key cfg) res, Node.nextLamport d.logicalClock⟩,
            req.confirmation res)) := by
  cases hpre : cfg.precheck req with
  | some resp =>
    exact .inl ⟨resp, rfl, Node.precheck_status hpre, Node.settle_refused hpre⟩
  | none =>
    by_cases hyes : req.op.Expects (d.reservations.get? (req.key cfg))
    · obtain ⟨res, hres⟩ : ∃ res, req.record cfg now (Node.nextLamport d.logicalClock)
          (d.reservations.get? (req.key cfg)) = some res := Node.record_of_expects hc hyes ..
      exact .inr (.inr ⟨rfl, hyes, res, hres, Node.settle_written hpre hyes hres⟩)
    · exact .inr (.inl ⟨rfl, hyes, Node.settle_conflict hpre hyes⟩)

/-- A confirmation says what the handler has written. -/
theorem write_confirmed (hc : req.IsClient) (res : Reservation) :
    (Seen.asked rid (.write req) (.written (req.confirmation res))).write w rid books =
      req.op.write books (req.key (w.service rid .primary)) res := by
  cases req with
  | applyReplication msg => exact hc.elim
  | _ => exact if_pos rfl

theorem settle_write (hc : req.IsClient) (now clock : Nat) :
    (settle (w.service rid .primary) req now ⟨books, clock⟩).1.reservations =
      (Seen.asked rid (.write req) (.written
        (settle (w.service rid .primary) req now ⟨books, clock⟩).2)).write w rid books := by
  rcases settle_cases hc now ⟨books, clock⟩ with
    ⟨⟨status, text, record⟩, -, herr, hset⟩ | ⟨-, -, hset⟩ | ⟨-, -, res, -, hset⟩
  · obtain rfl : status = .error := herr
    rw [hset]
    rfl
  · rw [hset]
    cases req <;> rfl
  · rw [hset, write_confirmed hc]

/-- Whether a request is carried out depends on the books alone. -/
theorem settle_status (hc : req.IsClient) (now now' clock clock' : Nat)
    (herr : (settle (w.service rid .primary) req now ⟨books, clock⟩).2.status = .error) :
    (settle (w.service rid .primary) req now' ⟨books, clock'⟩).2.status = .error := by
  rcases settle_cases hc now ⟨books, clock⟩ with
    ⟨resp, hpre, hresp, -⟩ | ⟨hpre, hno, -⟩ | ⟨-, -, res, -, hset⟩
  · rwa [Node.settle_refused hpre]
  · rw [Node.settle_conflict (d := ⟨books, clock'⟩) hpre hno]
    exact Node.conflict_status ..
  · rw [hset, Node.confirmation_status] at herr
    cases herr

theorem write_error {demand : Demand} {reply : Reply} (herr : reply.status = .error)
    (rid' : String) : (Seen.asked rid' demand reply).write w rid books = books := by
  cases demand with
  | read q => rfl
  | write req =>
    cases reply with
    | written resp =>
      obtain ⟨status, text, record⟩ := resp
      obtain rfl : status = .error := herr
      rfl
    | _ => rfl

/-- An answer to one restaurant says nothing about another one. -/
theorem write_ne {rid' : String} (hne : rid' ≠ rid) (demand : Demand) (reply : Reply) :
    (Seen.asked rid' demand reply).write w rid books = books := by
  unfold Seen.write
  split
  · rename_i heq
    obtain ⟨rfl, -, -⟩ := Seen.asked.inj heq
    exact if_neg hne
  · rfl

theorem Explains.error_of_error {demand : Demand} {reply reply' : Reply}
    (hc : demand.IsClient) (hx : Explains w rid books demand reply)
    (hx' : Explains w rid books demand reply') (herr : reply.status = .error) :
    (Seen.asked rid demand reply').write w rid books = books := by
  cases demand with
  | read q => rfl
  | write req =>
    obtain ⟨now, clock, rfl⟩ := hx
    obtain ⟨now', clock', rfl⟩ := hx'
    have herr' : Reply.status (.written (settle (w.service rid .primary) req now'
        ⟨books, clock'⟩).2) = .error := settle_status hc now now' clock clock' herr
    exact write_error herr' rid

/-! ## What a handler does to the books -/

/-- How a handler ends that nothing delays. -/
inductive Finishes (cfg : Service) (s : Node) (req : Request) (as : List Action) (s' : Node)
    (resp : Response) : Prop
  | alone (now : Nat) (hno : Node.attempts as = false) (hall : ∀ o, .returned o ∉ as)
      (hset : settle cfg req now s.data = (s'.data, resp))
      (hkept : s.replicates = true → resp.status = .error)
  | copied (now : Nat) (res : Reservation) (hset : settle cfg req now s.data = (s'.data, resp))
      (hstore : s'.reservations = req.op.write s.reservations (req.key cfg) res)
      (hrep : s.replicates = true) (hsend : Node.attempts as = true)
      (hsent : ∀ h msg, .sent h msg ∈ s'.log.drop s.log.length →
        msg = ⟨req.op, keyToList (req.key cfg), res⟩)
      (hall : ∀ o, .returned o ∈ as → o = .acked)
  | failed (o : Outcome) (hsame : s'.reservations = s.reservations) (hresp : resp = o.answer)
      (hrep : s.replicates = true) (hsend : Node.attempts as = true) (ho : o ≠ .acked)
      (hall : ∀ o', .returned o' ∈ as → o' = o)

theorem serves_finishes {cfg : Service} (hc : req.IsClient)
    (hs : Node.Serves cfg s h req as s' resp) (hprompt : .lockTimeout ∉ as) :
    Finishes cfg s req as s' resp ∧ s'.replicator = s.replicator ∧ s'.backUp = s.backUp ∧
      s'.isPromotedPrimary = s.isPromotedPrimary := by
  obtain ⟨-, es, d, hcourse, rfl⟩ := (Node.serves_iff hc).mp hs
  refine ⟨?_, rfl, rfl, rfl⟩
  cases hcourse with
  | refused resp hpre =>
    exact .alone 0 rfl (by simp) (Node.settle_refused hpre) fun _ => Node.precheck_status hpre
  | timedOut => exact absurd List.mem_cons_self hprompt
  | conflict hpre hfree hno =>
    exact .alone 0 rfl (by simp) (Node.settle_conflict hpre hno) fun _ => Node.conflict_status ..
  | unreplicated now old res hpre hfree hold hyes hres hrep =>
    subst hold
    refine .alone now rfl (by simp) (Node.settle_written hpre hyes hres) fun hr => ?_
    cases hrep.symm.trans hr
  | replicated now old res hpre hfree hold hyes hres hrep =>
    subst hold
    refine .copied now res (Node.settle_written hpre hyes hres) rfl hrep rfl ?_ ?_
    · intro h' msg hmem
      simp only [Node.after, List.drop_left] at hmem
      have hboth : h' = h ∧ msg = ⟨req.op, keyToList (req.key cfg), res⟩ := by simpa using hmem
      exact hboth.2
    · simp
  | failed now o old res hpre hfree hold hyes hres hrep ho =>
    refine .failed o rfl rfl hrep rfl ho ?_
    simp

end

/-! ## Who listens where -/

namespace Config

variable {conf : Config} {rid rid' : String} {side : Side} {a : Address}

theorem listener_of_address (h : conf.address rid side = some a) :
    conf.listener a = some (rid, side) := by
  cases hl : conf.listener a with
  | none =>
    exfalso
    obtain ⟨e, hget, rfl⟩ := Option.map_eq_some_iff.mp h
    have hnone := List.findSome?_eq_none_iff.mp hl _ ((Dict.get?_eq_some_iff ..).mp hget)
    cases side with
    | primary => simp [Side.port] at hnone
    | backup =>
      simp only [Side.port] at hnone
      split_ifs at hnone
  | some node =>
    obtain ⟨rid', side'⟩ := node
    obtain ⟨rfl, rfl⟩ := address_inj h (listener_address hl)
    rfl

theorem backupMap_primary (h : conf.address rid .primary = some a) :
    ∃ port, conf.backupMap a.2 = some port ∧
      conf.address rid .backup = some (conf.replicationHost, port) := by
  obtain ⟨port, hmem, rfl⟩ := address_entry h
  have hin : port ∈ conf.serviceMap.entries.map fun e => e.2.2 :=
    List.mem_map.mpr ⟨_, hmem, rfl⟩
  have hport : conf.backupMap port = some (port + heartbeatPortOffset) := if_pos hin
  exact ⟨_, hport, backupMap_address h hport⟩

theorem backupMap_backup (h : conf.address rid .backup = some a) : conf.backupMap a.2 = none := by
  obtain ⟨port, hmem, rfl⟩ := address_entry h
  refine if_neg fun hin => ?_
  obtain ⟨e, he, heq⟩ := List.mem_map.mp hin
  exact conf.apart e he _ hmem heq

theorem get?_updateMap {map : Dict String Address} {sides : String → Side}
    {primary backup : Address}
    (hmap : ∀ rid, map.get? rid = conf.address rid (sides rid))
    (hp : conf.address rid .primary = some primary) (hb : conf.address rid .backup = some backup)
    (rid' : String) : (Fleet.updateMap map primary.2 backup).get? rid' =
      conf.address rid' (Function.update sides rid .backup rid') := by
  unfold Fleet.updateMap
  split
  · rename_i e he
    have haddr := (Dict.get?_eq_some_iff ..).mpr (List.mem_of_find?_eq_some he)
    rw [hmap] at haddr
    have hport : e.2.2 = primary.2 := by simpa using List.find?_some he
    have hsame : e.2 = primary := by
      obtain ⟨port, -, heq⟩ := address_entry haddr
      obtain ⟨port', -, rfl⟩ := address_entry hp
      rw [heq] at hport ⊢
      exact Prod.ext rfl hport
    obtain ⟨rfl, -⟩ := address_inj haddr (hsame ▸ hp)
    rw [Dict.get?_set, Function.update_apply]
    split_ifs with heq
    · rw [heq, hb]
    · exact hmap rid'
  · -- No entry has the primary's port: the restaurant is on its backup already.
    rename_i hnone
    have hside : sides rid = .backup := by
      cases hside : sides rid with
      | backup => rfl
      | primary =>
        have hmem := (Dict.get?_eq_some_iff ..).mp ((hmap rid).trans (by rw [hside, hp]))
        simpa using List.find?_eq_none.mp hnone _ hmem
    rw [← hside, Function.update_eq_self, hmap]

theorem backupTarget_backup (conf : Config) (rid : String) :
    (conf.service rid .backup).backupTarget = none := by
  cases h : conf.address rid .backup with
  | none => simp [service, h]
  | some a => simp [service, h, backupMap_backup h]

end Config

namespace Site

variable {w : Web} {site site' : Site} {rid rid' : String} {side side' : Side} {a : Address}
  {demand : Demand} {attempt : Gateway.Attempt} {reply : Reply}
  {books : String → Dict Key Reservation}
  {sides : String → Side}

theorem reaches_iff (h : w.address rid side = some a) :
    site.Reaches w a rid' side' ↔ (rid' = rid ∧ side' = side) ∧ site.up rid side = true := by
  unfold Reaches
  rw [Config.listener_of_address h]
  constructor
  · rintro ⟨heq, hup⟩
    obtain ⟨rfl, rfl⟩ := Prod.mk.inj (Option.some.inj heq)
    exact ⟨⟨rfl, rfl⟩, hup⟩
  · rintro ⟨⟨rfl, rfl⟩, hup⟩
    exact ⟨rfl, hup⟩

/-- Nobody is reached at the address of a node that is down. -/
theorem not_reaches (ha : w.listener a = some (rid, side)) (hdown : site.up rid side = false)
    (rid' : String) (side' : Side) : ¬ site.Reaches w a rid' side' := by
  rintro ⟨hl, hup⟩
  obtain ⟨rfl, rfl⟩ := Prod.mk.inj (Option.some.inj (hl.symm.trans ha))
  rw [hdown] at hup
  cases hup

@[simp]
theorem nodes_setNode (s : Node) : (site.setNode rid side s).nodes rid side = s := by
  simp [setNode]

@[simp]
theorem primary_setNode (s : Node) :
    (site.setNode rid .backup s).nodes rid .primary = site.nodes rid .primary := by
  simp [setNode]

@[simp]
theorem backup_setNode (s : Node) :
    (site.setNode rid .primary s).nodes rid .backup = site.nodes rid .backup := by
  simp [setNode]

theorem nodes_setNode_ne (s : Node) (hne : rid' ≠ rid) :
    (site.setNode rid side s).nodes rid' side' = site.nodes rid' side' := by
  simp [setNode, Function.update_of_ne hne]

/-! ## The books are on the nodes -/

/-- A restaurant's books are on the node that the gateway talks to, and on its backup as long as
it runs. `sides` says which nodes the map names. -/
structure Sound (w : Web) (books : String → Dict Key Reservation) (sides : String → Side)
    (site : Site) : Prop where
  map : ∀ rid, site.serviceMap.get? rid = w.address rid (sides rid)
  primary : ∀ rid, (site.nodes rid .primary).replicator = (w.service rid .primary).backupTarget ∧
    (site.nodes rid .primary).backUp = false
  backup : ∀ rid, (site.nodes rid .backup).replicator = none
  original : ∀ rid, sides rid = .primary → site.up rid .primary = true →
    (site.nodes rid .primary).reservations = books rid
  copy : ∀ rid, site.up rid .backup = true → (site.nodes rid .backup).reservations = books rid

theorem sound_start (w : Web) : Sound w (fun _ => .empty) (fun _ => .primary) (start w) where
  map rid := by
    cases h : w.serviceMap.get? rid <;> simp [start, Config.address, h, Side.port]
  primary rid := ⟨rfl, rfl⟩
  backup rid := rfl
  original rid _ _ := rfl
  copy rid _ := rfl

/-- The books after an answer. -/
def turn (w : Web) (books : String → Dict Key Reservation) (rid : String) (demand : Demand)
    (reply : Reply) (rid' : String) : Dict Key Reservation :=
  (Seen.asked rid demand reply).write w rid' (books rid')

theorem turn_eq (h : (Seen.asked rid demand reply).write w rid (books rid) = books rid) :
    turn w books rid demand reply = books := by
  funext rid'
  by_cases heq : rid = rid'
  · subst heq
    exact h
  · exact write_ne heq demand reply

/-- A node that has the books turns them as the answer says. -/
theorem settled {s s' : Node} {req : Request} {resp : Response} {now : Nat} (hc : req.IsClient)
    (hbooks : s.reservations = books rid)
    (hset : settle (w.service rid side) req now s.data = (s'.data, resp)) :
    Explains w rid (books rid) (.write req) (.written resp) ∧
      s'.reservations = turn w books rid (.write req) (.written resp) rid := by
  rw [settle_side hc] at hset
  have hdata : s.data = ⟨books rid, s.logicalClock⟩ := by rw [Node.data, hbooks]
  rw [hdata] at hset
  have hwrite := @settle_write w rid req (books rid) hc now s.logicalClock
  rw [hset] at hwrite
  exact ⟨⟨now, s.logicalClock, by rw [hset]⟩, hwrite⟩

theorem Sound.replicates_backup (hs : Sound w books sides site) (rid : String) :
    (site.nodes rid .backup).replicates = false := by
  simp [Node.replicates, hs.backup rid]

/-- Only the books and the nodes of `rid` have changed. -/
theorem Sound.update (rid : String) {books' : String → Dict Key Reservation}
    (hs : Sound w books sides site)
    (hmap : site'.serviceMap = site.serviceMap) (hup : site'.up = site.up)
    (hnodes : ∀ rid' ≠ rid, ∀ side, site'.nodes rid' side = site.nodes rid' side)
    (hbooks : ∀ rid' ≠ rid, books' rid' = books rid')
    (hprimary : (site'.nodes rid .primary).replicator = (w.service rid .primary).backupTarget ∧
      (site'.nodes rid .primary).backUp = false)
    (hbackup : (site'.nodes rid .backup).replicator = none)
    (horiginal : sides rid = .primary → site.up rid .primary = true →
      (site'.nodes rid .primary).reservations = books' rid)
    (hcopy : site.up rid .backup = true → (site'.nodes rid .backup).reservations = books' rid) :
    Sound w books' sides site' := by
  constructor
  · rw [hmap]
    exact hs.map
  all_goals
    intro rid'
    by_cases heq : rid' = rid
    · subst heq
      simpa only [hup] using ‹_›
    · simp only [hnodes rid' heq, hbooks rid' heq, hup]
      first
      | exact hs.primary rid'
      | exact hs.backup rid'
      | exact hs.original rid'
      | exact hs.copy rid'

/-- The answer for a message that the books have no say in. -/
theorem Sound.untouched (hs : Sound w books sides site) (rid : String) {reply : Reply}
    (herr : reply.status = .error) : Sound w (turn w books rid demand reply) sides site := by
  rwa [turn_eq (write_error herr rid)]

/-- A message for the backup finds it down, or is answered from the books. -/
theorem Sound.contacts_backup (hs : Sound w books sides site)
    (haddr : w.address rid .backup = some a)
    (hquiet : sides rid = .primary → site.up rid .primary = true → ∀ reply,
      Explains w rid (books rid) demand reply →
        (Seen.asked rid demand reply).write w rid (books rid) = books rid)
    (hc : Contacts w site a demand attempt site') :
    Sound w (turn w books rid demand (sendToService attempt)) sides site' ∧
      site'.up = site.up ∧
      (Explains w rid (books rid) demand (sendToService attempt) ∨
        site.up rid .backup = false ∧ (sendToService attempt).status = .error) := by
  cases hc with
  | refused demand text hdown =>
    refine ⟨hs.untouched rid rfl, rfl, .inr ⟨?_, rfl⟩⟩
    by_contra hup
    exact hdown rid .backup ((reaches_iff haddr).mpr ⟨⟨rfl, rfl⟩, by simpa using hup⟩)
  | read q rid' side' hreach =>
    obtain ⟨⟨rfl, rfl⟩, hup⟩ := (reaches_iff haddr).mp hreach
    refine ⟨?_, rfl, .inl ?_⟩
    · rwa [turn_eq rfl]
    · rw [Explains, sendToService, read_eq_readBooks, hs.copy _ hup]
  | write req rid' side' h as s' resp site' hclient hreach hserves hprompt hrep =>
    obtain ⟨⟨rfl, rfl⟩, hup⟩ := (reaches_iff haddr).mp hreach
    obtain ⟨hfin, hreplicator, hbackUp, -⟩ := serves_finishes hclient hserves hprompt
    simp only [sendToService]
    have hno := hs.replicates_backup rid'
    cases hfin with
    | copied _ _ _ _ hr => cases hr.symm.trans hno
    | failed _ _ _ hr => cases hr.symm.trans hno
    | alone now hatt hall hset =>
      obtain ⟨hx, hstore⟩ := settled hclient (hs.copy _ hup) hset
      cases hrep with
      | acked _ _ _ _ _ _ _ _ _ hack => exact absurd hack (hall _)
      | failed _ hfail => exact absurd hfail (hall _)
      | unused =>
        refine ⟨hs.update rid' rfl rfl ?_ ?_ ?_ ?_ ?_ ?_, rfl, .inl hx⟩
        · intro rid'' hne side
          exact nodes_setNode_ne s' hne
        · exact fun rid'' hne => write_ne (Ne.symm hne) ..
        · rw [primary_setNode]
          exact hs.primary rid'
        · rw [nodes_setNode, hreplicator]
          exact hs.backup rid'
        · intro hside hpup
          rw [primary_setNode, hs.original rid' hside hpup]
          exact (hquiet hside hpup _ hx).symm
        · intro _
          rw [nodes_setNode, hstore]

theorem backupTarget_primary (haddr : w.address rid .primary = some a) : ∃ port,
    (w.service rid .primary).backupTarget = some port ∧
      w.address rid .backup = some (w.replicationHost, port) := by
  obtain ⟨port, hport, hbackup⟩ := Config.backupMap_primary haddr
  exact ⟨port, by simp [Web.service, Config.service, haddr, hport], hbackup⟩

/-- The primary has turned the books, and the backup's are turned already. -/
theorem Sound.setPrimary {p : Node} (hs : Sound w books sides site)
    (hflags : p.replicator = (w.service rid .primary).backupTarget ∧ p.backUp = false)
    (hstore : p.reservations = turn w books rid demand reply rid)
    (hcopy : ∀ rid', site.up rid' .backup = true →
      (site.nodes rid' .backup).reservations = turn w books rid demand reply rid') :
    Sound w (turn w books rid demand reply) sides (site.setNode rid .primary p) := by
  refine hs.update rid rfl rfl ?_ ?_ ?_ ?_ ?_ ?_
  · exact fun rid' hne side => nodes_setNode_ne p hne
  · exact fun rid' hne => write_ne (Ne.symm hne) ..
  · rwa [nodes_setNode]
  · rw [backup_setNode]
    exact hs.backup rid
  · intro _ _
    rw [nodes_setNode, hstore]
  · intro hup
    rw [backup_setNode]
    exact hcopy rid hup

/-- A message for the primary finds it down, or is answered from the books. A write can also
fail, when the backup is down. -/
theorem Sound.contacts_primary (hs : Sound w books sides site)
    (haddr : w.address rid .primary = some a) (hside : sides rid = .primary)
    (hc : Contacts w site a demand attempt site') :
    Sound w (turn w books rid demand (sendToService attempt)) sides site' ∧
      site'.up = site.up ∧
      (Explains w rid (books rid) demand (sendToService attempt) ∨
        site.up rid .primary = false ∧ (∃ text, attempt = .noResponse text) ∨
        site.up rid .backup = false ∧
          attempt = .answered (.written (errorAnswer "Backup replication failed"))) := by
  cases hc with
  | refused demand text hdown =>
    refine ⟨hs.untouched rid rfl, rfl, .inr (.inl ⟨?_, text, rfl⟩)⟩
    by_contra hup
    exact hdown rid .primary ((reaches_iff haddr).mpr ⟨⟨rfl, rfl⟩, by simpa using hup⟩)
  | read q rid' side' hreach =>
    obtain ⟨⟨rfl, rfl⟩, hup⟩ := (reaches_iff haddr).mp hreach
    refine ⟨?_, rfl, .inl ?_⟩
    · rwa [turn_eq rfl]
    · rw [Explains, sendToService, read_eq_readBooks, hs.original _ hside hup]
  | write req rid' side' h as s' resp site' hclient hreach hserves hprompt hrep =>
    obtain ⟨⟨rfl, rfl⟩, hup⟩ := (reaches_iff haddr).mp hreach
    obtain ⟨hfin, hreplicator, hbackUp, -⟩ := serves_finishes hclient hserves hprompt
    simp only [sendToService]
    obtain ⟨hport, hnot⟩ := hs.primary rid'
    have hflags : s'.replicator = (w.service rid' .primary).backupTarget ∧ s'.backUp = false :=
      ⟨hreplicator.trans hport, hbackUp.trans hnot⟩
    obtain ⟨port, htarget, hbackup⟩ := backupTarget_primary haddr
    have hold := hs.original _ hside hup
    cases hfin with
    | alone now hatt hall hset hkept =>
      obtain ⟨hx, hstore⟩ := settled hclient hold hset
      have herr : (Reply.written resp).status = .error :=
        hkept (by simp [Node.replicates, hport, hnot, htarget])
      have hsame : turn w books rid' (.write req) (.written resp) = books :=
        turn_eq (write_error herr rid')
      cases hrep with
      | acked _ _ _ _ _ _ _ _ _ hack => exact absurd hack (hall _)
      | failed _ hfail => exact absurd hfail (hall _)
      | unused =>
        refine ⟨hs.setPrimary hflags hstore ?_, rfl, .inl hx⟩
        intro rid'' hcopy
        rw [hsame]
        exact hs.copy rid'' hcopy
    | copied now res hset hstore hr hsend hsent hall =>
      obtain ⟨hx, hturn⟩ := settled hclient hold hset
      cases hrep with
      | unused hno => cases hsend.symm.trans hno
      | failed _ hfail => cases hall _ hfail
      | acked h₀ h' msg port' rid'' side'' as' b resp' hack hmsg hport' hto happly hok =>
        obtain rfl : port = port' := Option.some.inj
          ((htarget.symm.trans hport.symm).trans hport')
        obtain ⟨⟨hrid, rfl⟩, hbup⟩ := (reaches_iff hbackup).mp hto
        subst hrid
        obtain rfl := hsent _ _ hmsg
        rw [backup_setNode] at happly
        obtain ⟨-, es, rfl⟩ := happly.applied hok
        refine ⟨hs.update rid'' rfl rfl ?_ ?_ ?_ ?_ ?_ ?_, rfl, .inl hx⟩
        · intro other hne side
          rw [nodes_setNode_ne _ hne, nodes_setNode_ne _ hne]
        · exact fun other hne => write_ne (Ne.symm hne) ..
        · rwa [primary_setNode, nodes_setNode]
        · rw [nodes_setNode]
          exact hs.backup _
        · intro _ _
          rw [primary_setNode, nodes_setNode, hturn]
        · -- The backup has made the write that the primary makes.
          intro _
          rw [nodes_setNode, ← hturn, hstore, hold, ← hs.copy _ hbup]
          rfl
    | failed o hsame hresp hr hsend ho hall =>
      cases hrep with
      | unused hno => cases hsend.symm.trans hno
      | acked _ _ _ _ _ _ _ _ _ hack => exact absurd (hall _ hack).symm ho
      | failed port' hfail hport' hdown =>
        obtain rfl := hall _ hfail
        obtain rfl := hresp
        obtain rfl : port = port' := Option.some.inj
          ((htarget.symm.trans hport.symm).trans hport')
        have hbdown : site.up rid' .backup = false := by
          by_contra hbup
          have hbup : site.up rid' .backup = true := by simpa using hbup
          exact hdown rid' .backup ((reaches_iff hbackup).mpr ⟨⟨rfl, rfl⟩, hbup⟩)
        have hkept : turn w books rid' (.write req) (.written Outcome.failed.answer) = books :=
          turn_eq (write_error rfl rid')
        refine ⟨hs.setPrimary hflags ?_ ?_, rfl, .inr (.inr ⟨hbdown, rfl⟩)⟩
        · rw [hkept, hsame, hold]
        · rw [hkept]
          exact hs.copy

theorem failoverPort_unavailable (backupMap : Nat → Option Nat) (port : Nat) (text : String) :
    failoverPort backupMap port (sendToService (.noResponse text)) = backupMap port :=
  if_pos ⟨rfl, System.mentionsUnavailable_unavailable text⟩

theorem failoverPort_some {backupMap : Nat → Option Nat} {port port' : Nat}
    (h : failoverPort backupMap port reply = some port') :
    Gateway.LooksDown reply ∧ backupMap port = some port' := by
  unfold failoverPort at h
  split_ifs at h with hdown
  exact ⟨hdown, h⟩

/-- The gateway passes on what the books say, or an error that left them alone. The latter
happens only when the backup is down. -/
theorem Sound.exchanges (hs : Sound w books sides site) (hclient : demand.IsClient)
    (haddr : w.address rid (sides rid) = some a) (hx : Exchanges w site a demand reply site') :
    Sound w (turn w books rid demand reply) sides site' ∧ site'.up = site.up ∧
      (Explains w rid (books rid) demand reply ∨
        site.up rid .backup = false ∧ reply.status = .error) := by
  cases hside : sides rid with
  | primary =>
    rw [hside] at haddr
    obtain ⟨port, hport, hbackup⟩ := Config.backupMap_primary haddr
    cases hx with
    | answered attempt site' hc hno =>
      obtain ⟨hs', hup, hx⟩ := hs.contacts_primary haddr hside hc
      refine ⟨hs', hup, ?_⟩
      rcases hx with hx | ⟨hdown, text, rfl⟩ | ⟨hdown, rfl⟩
      · exact .inl hx
      · rw [failoverPort_unavailable, hport] at hno
        cases hno
      · exact .inr ⟨hdown, rfl⟩
    | failedOver attempt attempt' port' site₁ site' hc hport' hc' =>
      obtain ⟨hs₁, hup₁, hx⟩ := hs.contacts_primary haddr hside hc
      obtain ⟨⟨herr, hm⟩, hport'⟩ := failoverPort_some hport'
      obtain rfl : port' = port := Option.some.inj (hport'.symm.trans hport)
      rw [turn_eq (write_error herr rid)] at hs₁
      have hquiet : sides rid = .primary → site₁.up rid .primary = true → ∀ reply,
          Explains w rid (books rid) demand reply →
            (Seen.asked rid demand reply).write w rid (books rid) = books rid := by
        intro _ hpup reply hreply
        rcases hx with hx | ⟨hdown, -⟩ | ⟨-, rfl⟩
        · exact hx.error_of_error hclient hreply herr
        · rw [hup₁, hdown] at hpup
          cases hpup
        · exact absurd hm (by decide)
      obtain ⟨hs', hup', hx'⟩ := hs₁.contacts_backup hbackup hquiet hc'
      rw [hup₁] at hup' hx'
      exact ⟨hs', hup', hx'⟩
  | backup =>
    rw [hside] at haddr
    cases hx with
    | answered attempt site' hc hno =>
      refine hs.contacts_backup haddr ?_ hc
      intro h
      cases hside.symm.trans h
    | failedOver attempt attempt' port' site₁ site' hc hport' hc' =>
      obtain ⟨-, hport'⟩ := failoverPort_some hport'
      rw [Config.backupMap_backup haddr] at hport'
      cases hport'

theorem up_crash : (site.crash rid side).up rid' side' =
    if rid' = rid ∧ side' = side then false else site.up rid' side' := by
  unfold crash
  by_cases hrid : rid' = rid
  · subst hrid
    by_cases hside : side' = side
    · subst hside
      simp
    · simp [hside]
  · simp [hrid]

theorem up_of_crash (h : (site.crash rid side).up rid' side' = true) :
    site.up rid' side' = true := by
  rw [up_crash] at h
  split_ifs at h
  exact h

theorem Sound.crash (hs : Sound w books sides site) (rid : String) (side : Side) :
    Sound w books sides (site.crash rid side) where
  map := hs.map
  primary := hs.primary
  backup := hs.backup
  original rid' hside hup := hs.original rid' hside (up_of_crash hup)
  copy rid' hup := hs.copy rid' (up_of_crash hup)

theorem Sound.promote (hs : Sound w books sides site) (rid : String) :
    Sound w books sides (site.setNode rid .backup
      ((site.nodes rid .backup).promoteToPrimary (w.service rid .backup))) := by
  refine hs.update rid rfl rfl ?_ (fun _ _ => rfl) ?_ ?_ ?_ ?_
  · exact fun other hne side => nodes_setNode_ne _ hne
  · rw [primary_setNode]
    exact hs.primary rid
  · rw [nodes_setNode, Node.promoteToPrimary]
    split
    · exact hs.backup rid
    · simp [Web.service, Config.backupTarget_backup, hs.backup rid]
  · rw [primary_setNode]
    exact hs.original rid
  · rw [nodes_setNode, Node.promote_reservations]
    exact hs.copy rid

theorem Sound.redirect {primary backup : Address} (hs : Sound w books sides site)
    (hp : w.address rid .primary = some primary) (hb : w.address rid .backup = some backup) :
    Sound w books (Function.update sides rid .backup) (site.redirect primary backup) where
  map := Config.get?_updateMap hs.map hp hb
  primary := hs.primary
  backup := hs.backup
  original rid' hside hup := by
    refine hs.original rid' ?_ hup
    by_cases heq : rid' = rid
    · subst heq
      rw [Function.update_self] at hside
      cases hside
    · rwa [Function.update_of_ne heq] at hside
  copy := hs.copy

/-! ## Runs -/

/-- Each answer is the one that the answers before it call for, or an error after the restaurant's
backup has crashed. -/
def Accounted (w : Web) (log : List Seen) : Prop :=
  ∀ before rid demand reply after, log = before ++ .asked rid demand reply :: after →
    Explains w rid (confirmedBooks w rid before) demand reply ∨
      .crashed rid .backup ∈ before ∧ reply.status = .error

theorem accounted_snoc {log : List Seen} {x : Seen} (ha : Accounted w log)
    (hx : ∀ rid demand reply, x = .asked rid demand reply →
      Explains w rid (confirmedBooks w rid log) demand reply ∨
        .crashed rid .backup ∈ log ∧ reply.status = .error) : Accounted w (log ++ [x]) := by
  intro before rid demand reply after heq
  rcases List.eq_nil_or_concat after with rfl | ⟨after, y, rfl⟩
  · obtain ⟨rfl, hlast⟩ := List.append_inj' heq rfl
    exact hx rid demand reply (List.cons.inj hlast).1
  · rw [List.concat_eq_append, ← List.cons_append, ← List.append_assoc] at heq
    exact ha before rid demand reply after (List.append_inj' heq rfl).1

/-- What is known of a site after a run. -/
structure Kept (w : Web) (log : List Seen) (site : Site) : Prop where
  sound : ∃ sides, Sound w (fun rid => confirmedBooks w rid log) sides site
  down : ∀ rid, site.up rid .backup = false → .crashed rid .backup ∈ log
  accounted : Accounted w log

theorem kept_runs {log : List Seen} (hr : Runs w log site) : Kept w log site := by
  induction hr with
  | start => exact ⟨⟨_, sound_start w⟩, by simp [start], by simp [Accounted]⟩
  | asks log site site' rid a demand reply hr hc haddr hx ih =>
    obtain ⟨⟨sides, hs⟩, hdown, ha⟩ := ih
    rw [hs.map] at haddr
    obtain ⟨hs', hup, hans⟩ := hs.exchanges hc haddr hx
    refine ⟨⟨sides, ?_⟩, ?_, accounted_snoc ha ?_⟩
    · simp only [confirmedBooks_snoc]
      exact hs'
    · intro rid' h
      rw [hup] at h
      exact List.mem_append_left _ (hdown rid' h)
    · rintro _ _ _ heq
      obtain ⟨rfl, rfl, rfl⟩ := Seen.asked.inj heq
      exact hans.imp_right fun h => ⟨hdown _ h.1, h.2⟩
  | crashes log site rid side hr ih =>
    obtain ⟨⟨sides, hs⟩, hdown, ha⟩ := ih
    refine ⟨⟨sides, ?_⟩, ?_, accounted_snoc ha nofun⟩
    · simp only [confirmedBooks_snoc]
      exact hs.crash rid side
    · intro rid' h
      rw [up_crash] at h
      split_ifs at h with heq
      · obtain ⟨rfl, rfl⟩ := heq
        exact List.mem_append_right _ List.mem_cons_self
      · exact List.mem_append_left _ (hdown rid' h)
  | promotes log site rid hr hup ih =>
    obtain ⟨⟨sides, hs⟩, hdown, ha⟩ := ih
    exact ⟨⟨sides, hs.promote rid⟩, hdown, ha⟩
  | redirects log site rid primary backup hr hp hb hup hprom ih =>
    obtain ⟨⟨sides, hs⟩, hdown, ha⟩ := ih
    exact ⟨⟨_, hs.redirect hp hb⟩, hdown, ha⟩

theorem Kept.reservations {log : List Seen} (hk : Kept w log site)
    (hno : .crashed rid .backup ∉ log) :
    (site.nodes rid .backup).reservations = confirmedBooks w rid log := by
  obtain ⟨sides, hs⟩ := hk.sound
  refine hs.copy rid ?_
  by_contra hup
  exact hno (hk.down rid (by simpa using hup))

/-- As long as the backup of a restaurant runs, the restaurant answers each request as its books
say, and its backup has them. It does not matter when its primary crashes, when the backup is
promoted, or which node the gateway talks to. After that there can be errors, which change
nothing. -/
theorem site_accounted {log : List Seen} (hr : Runs w log site) :
    Accounted w log ∧ ∀ rid, .crashed rid .backup ∉ log →
      (site.nodes rid .backup).reservations = confirmedBooks w rid log :=
  ⟨(kept_runs hr).accounted, fun _ hno => (kept_runs hr).reservations hno⟩

/-- Two restaurants that know nothing about themselves. -/
def twoWebs : Web := { Fleet.twoRestaurants with cat := fun _ => plainCatalogue }

/-- What Alice's booking sends to the backup. -/
def alicesMessage : ReplicationMsg :=
  ⟨.book, keyToList (dinnerKey "T1"),
    newReservation (twoWebs.service "restaurant_1" .primary) (dinner "T1" "Alice") 3 1⟩

theorem alice_books : ∃ reply site, Exchanges twoWebs (start twoWebs) ("127.0.0.1", 6001)
    (.write (.book (dinner "T1" "Alice"))) reply site ∧
      site.serviceMap = twoWebs.serviceMap ∧ site.up = (start twoWebs).up := by
  obtain ⟨p, resp, hp, hok, hsent⟩ : ∃ p resp,
      Node.Serves (twoWebs.service "restaurant_1" .primary)
        (.start (twoWebs.service "restaurant_1" .primary) false) (.client 0)
        (.book (dinner "T1" "Alice"))
        [.acquire, .check, .stamp 3, .send, .returned .acked, .store, .release] p resp ∧
      resp.status = .ok ∧ .sent (.client 0) alicesMessage ∈ p.log.drop 0 :=
    ⟨_, _, ⟨rfl, rfl⟩, rfl, .tail _ (.tail _ (.tail _ (.head _)))⟩
  obtain ⟨b, resp', hb, hok'⟩ : ∃ b resp', Node.Serves (twoWebs.service "restaurant_1" .backup)
      (.start (twoWebs.service "restaurant_1" .backup) true) (.replica 0)
      (.applyReplication alicesMessage) [.acquire, .advance, .store, .release] b resp' ∧
      resp'.status = .ok := ⟨_, _, ⟨rfl, rfl⟩, rfl⟩
  refine ⟨_, _, .answered _ _ (.write _ "restaurant_1" .primary (.client 0) _ p resp _ trivial
    ⟨rfl, rfl⟩ hp (by simp) (.acked (.client 0) (.replica 0) alicesMessage 7001 "restaurant_1"
      .backup _ b resp' (by simp) hsent rfl ⟨rfl, rfl⟩ hb hok')) ?_, rfl, rfl⟩
  simp [failoverPort, sendToService, Reply.status, hok]

/-- Alice books T1, and the primary crashes. -/
theorem alice_crash : ∃ reply site,
    Runs twoWebs [.asked "restaurant_1" (.write (.book (dinner "T1" "Alice"))) reply,
      .crashed "restaurant_1" .primary] site ∧
      site.serviceMap.get? "restaurant_1" = some ("127.0.0.1", 6001) ∧
      (∀ rid side, ¬ site.Reaches twoWebs ("127.0.0.1", 6001) rid side) ∧
      site.Reaches twoWebs ("127.0.0.1", 7001) "restaurant_1" .backup := by
  obtain ⟨reply, site, hx, hmap, hup⟩ := alice_books
  have hbooked : Runs twoWebs [.asked "restaurant_1" (.write (.book (dinner "T1" "Alice"))) reply]
      site := .asks [] _ _ _ _ _ _ .start trivial rfl hx
  exact ⟨reply, _, .crashes _ _ "restaurant_1" .primary hbooked, by rw [crash, hmap]; rfl,
    not_reaches rfl (by simp [up_crash]), rfl, by simp [up_crash, hup, start]⟩

/-- Somebody asks for the list after that. -/
theorem site_accounted_alice : ∃ reply reply' site,
    Runs twoWebs [.asked "restaurant_1" (.write (.book (dinner "T1" "Alice"))) reply,
      .crashed "restaurant_1" .primary,
      .asked "restaurant_1" (.read (.listReservations [])) reply'] site ∧
      Explains twoWebs "restaurant_1"
        (confirmedBooks twoWebs "restaurant_1"
          [.asked "restaurant_1" (.write (.book (dinner "T1" "Alice"))) reply,
            .crashed "restaurant_1" .primary])
        (.read (.listReservations [])) reply' := by
  obtain ⟨reply, site, hcrashed, haddr, hdown, hreach⟩ := alice_crash
  have hlisted := Runs.asks _ _ _ "restaurant_1" ("127.0.0.1", 6001) (.read (.listReservations []))
    _ hcrashed trivial haddr (.failedOver _ _ 7001 _ _ (.refused _ "refused" hdown)
      (failoverPort_unavailable ..) (.read _ _ _ hreach))
  refine ⟨reply, _, _, hlisted, ?_⟩
  refine ((site_accounted hlisted).1 _ _ _ _ [] rfl).resolve_right fun h => ?_
  simp at h

end Site

end ReservationSystem
