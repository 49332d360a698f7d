import ReservationSystem.Cluster.Spec
import ReservationSystem.Lib.DictRel
import ReservationSystem.Node.Queries
import ReservationSystem.Node.Serve

/-!
# Failover transparency

A primary that serves one request after the other, and the backup that has applied its
messages. From its promotion on the backup answers as the primary would have answered.
-/

namespace ReservationSystem

open Machine

/-! ## Serving one request after the other -/

/-- The node serves clients' requests, and every call of `replicate` is acknowledged. -/
inductive Handles (cfg : Service) (s₀ : Node) : Node → Prop
  | refl : Handles cfg s₀ s₀
  | tail {s s' : Node} {h : Thread} {req : Request} {as : List Action} {resp : Response} :
      Handles cfg s₀ s → req.IsClient → Node.Serves cfg s h req as s' resp →
      (∀ o, .returned o ∈ as → o = .acked) → Handles cfg s₀ s'

/-- The replication messages that a node has sent, in order. -/
def sentMessages (log : List Entry) : List ReplicationMsg :=
  log.filterMap fun
    | .sent _ msg => some msg
    | _ => none

/-- The node applies exactly these messages, and acknowledges each of them. -/
inductive Applies (cfg : Service) (s₀ : Node) : List ReplicationMsg → Node → Prop
  | nil : Applies cfg s₀ [] s₀
  | snoc {msgs : List ReplicationMsg} {msg : ReplicationMsg} {s s' : Node} {h : Thread}
      {as : List Action} {resp : Response} :
      Applies cfg s₀ msgs s → Node.Serves cfg s h (.applyReplication msg) as s' resp →
      resp.status = .ok → Applies cfg s₀ (msgs ++ [msg]) s'

/-- The node answers queries and serves clients' writes, each at a time of its own clock, and
every replication that it needs succeeds. -/
inductive Session (cfg : Service) (cat : Catalogue) :
    Node → List (Demand × Nat) → List Reply → Node → Prop
  | nil (s : Node) : Session cfg cat s [] [] s
  | read {s s' : Node} {q : Query} {now : Nat} {demands : List (Demand × Nat)}
      {replies : List Reply} :
      Session cfg cat s demands replies s' →
      Session cfg cat s ((.read q, now) :: demands) (s.read cfg cat q :: replies) s'
  | write {s s₁ s' : Node} {h : Thread} {req : Request} {now : Nat} {resp : Response}
      {demands : List (Demand × Nat)} {replies : List Reply} :
      req.IsClient → Node.Serves cfg s h req (s.script cfg req now .acked) s₁ resp →
      Session cfg cat s₁ demands replies s' →
      Session cfg cat s ((.write req, now) :: demands) (.written resp :: replies) s'

/-! ## Answers that are alike -/

/-- The same record, up to the times of writes after the promotion: those have a
`lamport_ts` above `n`, and a `created_at` that the two nodes have read for one request. -/
structure Reservation.Alike (n : Nat) (clocks : List (Nat × Nat)) (r r' : Reservation) : Prop where
  untimed : r.untimed = r'.untimed
  lamportTs : r.lamportTs = r'.lamportTs ∨ n < r.lamportTs ∧ n < r'.lamportTs
  createdAt : r.createdAt = r'.createdAt ∨ (r.createdAt, r'.createdAt) ∈ clocks

def Reply.Alike (n : Nat) (clocks : List (Nat × Nat)) : Reply → Reply → Prop
  | .written r, .written r' =>
    r.status = r'.status ∧ r.message = r'.message ∧
      Option.Rel (Reservation.Alike n clocks) r.record r'.record
  | .reservations rs count, .reservations rs' count' =>
    count = count' ∧ List.Forall₂ (Reservation.Alike n clocks) rs rs'
  | x, y => x = y

/-! ## Applying a message -/

namespace Node

variable {cfg : Service} {s s' : Node} {h : Thread} {a : Action} {as : List Action}
  {resp : Response} {msg : ReplicationMsg}

theorem Ends.apply (he : Ends cfg s h (.applyReplication msg) .received as) :
    as = [.lockTimeout] ∨
      s.tableLocks (Request.applyReplication msg).table = none ∧
        as = [.acquire, .advance, .store, .release] := by
  obtain ⟨a, as, s₁, rfl, hs, hnext⟩ := he.next nofun
  cases act_spec hs with
  | lockTimeout => exact .inl (by rw [(hnext _ (Function.update_self ..)).done])
  | acquire hp hfree =>
    refine .inr ⟨hfree, ?_⟩
    obtain ⟨b, bs, s₂, rfl, hs₂, hnext⟩ := (hnext _ (Function.update_self ..)).next nofun
    cases act_spec hs₂ with
    | advance msg' hreq =>
      obtain ⟨c, cs, s₃, rfl, hs₃, hnext⟩ := (hnext _ (Function.update_self ..)).next nofun
      cases act_spec hs₃ with
      | apply => rw [(hnext _ (Function.update_self ..)).leaving]
      | _ => simp_all
    | checkFails => simp [act, applyReplication] at hs₂
    | checkPasses old hc => exact hc.elim
    | _ => simp_all
  | _ => simp_all

theorem exec_apply (hnew : s.handlers h = none)
    (hpre : cfg.precheck (.applyReplication msg) = none)
    (hfree : s.tableLocks (Request.applyReplication msg).table = none) :
    ∃ es, exec (step cfg) s (.receive h (.applyReplication msg) ::
        acts h [.acquire, .advance, .store, .release]) =
      some (s.after h (.applyReplication msg) ⟨.ok, "", none⟩
        ⟨msg.operation.write s.reservations ((Request.applyReplication msg).key cfg)
            msg.reservation,
          advanceLamportFromPeer s.logicalClock msg.reservation.lamportTs⟩ es) := by
  have hadvance (es : List Entry) : (s.during h (.applyReplication msg) .locked s.data es).act cfg h
      ⟨.applyReplication msg, .locked⟩ .advance =
        some (s.during h (.applyReplication msg) .advanced
          ⟨s.reservations, advanceLamportFromPeer s.logicalClock msg.reservation.lamportTs⟩
          es) := by
    simp [act, applyReplication, during, moveTo, data]
  have hstore (d : Data) (es : List Entry) : (s.during h (.applyReplication msg) .advanced d es).act
      cfg h ⟨.applyReplication msg, .advanced⟩ .store =
        some ((s.during h (.applyReplication msg) .advanced d es).store h
          ⟨.applyReplication msg, .advanced⟩ msg.operation
          ((Request.applyReplication msg).key cfg) msg.reservation ⟨.ok, "", none⟩) := rfl
  rw [exec_locked hnew hpre hfree, exec_acts _ during_handlers, hadvance, Option.bind_some,
    exec_acts _ during_handlers, hstore, Option.bind_some, during_store, exec_leaving hfree]
  exact ⟨_, rfl⟩

theorem Serves.applied (hs : Serves cfg s h (.applyReplication msg) as s' resp)
    (hok : resp.status = .ok) :
    s.handlers h = none ∧ ∃ es, s' = s.after h (.applyReplication msg) resp
      ⟨msg.operation.write s.reservations ((Request.applyReplication msg).key cfg)
          msg.reservation,
        advanceLamportFromPeer s.logicalClock msg.reservation.lamportTs⟩ es := by
  have hs' := hs
  obtain ⟨he, hd⟩ := hs
  simp only [exec, Option.bind_eq_some_iff] at he
  obtain ⟨s₀, hs₀, he⟩ := he
  cases step_spec hs₀ with
  | refuse h req resp' hnew hpre herr =>
    obtain rfl := exec_done (Function.update_self ..) he
    obtain rfl := Option.some.inj he
    have := Phase.done.inj (congrArg Handler.phase (handler_moved s h hd))
    simp [this, herr] at hok
  | receive h req hnew hpre =>
    refine ⟨hnew, ?_⟩
    have hends : Ends cfg _ h (.applyReplication msg) .received as :=
      ⟨Function.update_self .., s', resp, he, hd⟩
    rcases hends.apply with rfl | ⟨hfree, rfl⟩
    · rw [exec_acts _ (Function.update_self ..)] at he
      obtain rfl := Option.some.inj he
      have := Phase.done.inj (congrArg Handler.phase (handler_moved _ h hd))
      simp [this] at hok
    · obtain ⟨es, hes⟩ := exec_apply hnew hpre hfree
      obtain rfl := Option.some.inj (hes.symm.trans hs'.1)
      obtain rfl : (⟨.ok, "", none⟩ : Response) = resp := by
        simpa [after] using hd
      exact ⟨es, rfl⟩

end Node

/-! ## Between two requests -/

/-- No lock is held, and there are threads left. -/
structure Idle (s : Node) : Prop where
  free : ∀ t, s.tableLocks t = none
  fresh : ∃ n, ∀ m, n ≤ m → s.handlers (.client m) = none

theorem idle_start (cfg : Service) (backUp : Bool) : Idle (.start cfg backUp) :=
  ⟨fun _ => rfl, 0, fun _ _ => rfl⟩

theorem Idle.after {s : Node} (hi : Idle s) (h : Thread) (req : Request) (resp : Response)
    (d : Data) (es : List Entry) : Idle (s.after h req resp d es) := by
  refine ⟨hi.free, ?_⟩
  obtain ⟨n, hn⟩ := hi.fresh
  cases h with
  | replica k => exact ⟨n, fun m hm => by simp [Node.after, hn m hm]⟩
  | client k =>
    refine ⟨max n (k + 1), fun m hm => ?_⟩
    have hne : m ≠ k := by omega
    simp [Node.after, hne, hn m (by omega)]

theorem Idle.promote {s : Node} (hi : Idle s) (cfg : Service) : Idle (s.promoteToPrimary cfg) := by
  refine ⟨fun t => ?_, ?_⟩
  · rw [Node.promote_tableLocks]
    exact hi.free t
  · rw [Node.promote_handlers]
    exact hi.fresh

/-! ## Before the promotion -/

section
variable {d : Deployment} {p b : Node} {msgs : List ReplicationMsg} {msg : ReplicationMsg}

theorem handles_idle (hp : Handles d.primary (.start d.primary false) p) :
    Idle p ∧ p.replicates = true := by
  induction hp with
  | refl => exact ⟨idle_start .., rfl⟩
  | tail _ hc hs _ ih =>
    obtain ⟨-, es, dt, -, rfl⟩ := (Node.serves_iff hc).mp hs
    exact ⟨ih.1.after .., ih.2⟩

theorem applies_idle (hb : Applies d.backup (.start d.backup true) msgs b) : Idle b := by
  induction hb with
  | nil => exact idle_start ..
  | snoc _ hs hok ih =>
    obtain ⟨-, es, rfl⟩ := hs.applied hok
    exact ih.after ..

theorem Applies.nil_inv {cfg : Service} {s₀ s' : Node} (hb : Applies cfg s₀ [] s') : s' = s₀ := by
  generalize hl : ([] : List ReplicationMsg) = l at hb
  cases hb with
  | nil => rfl
  | snoc => simp at hl

theorem Applies.snoc_inv {cfg : Service} {s₀ s' : Node} (hb : Applies cfg s₀ (msgs ++ [msg]) s') :
    ∃ s h as resp, Applies cfg s₀ msgs s ∧
      Node.Serves cfg s h (.applyReplication msg) as s' resp ∧ resp.status = .ok := by
  generalize hl : msgs ++ [msg] = l at hb
  cases hb with
  | nil => simp at hl
  | snoc hb hs hok =>
    obtain ⟨rfl, hmsg⟩ := List.append_inj' hl rfl
    obtain rfl := List.singleton_inj.mp hmsg
    exact ⟨_, _, _, _, hb, hs, hok⟩

theorem record_lamportTs {cfg : Service} {req : Request} {now ts : Nat}
    {old : Option Reservation} {res : Reservation} (hc : req.IsClient)
    (h : req.record cfg now ts old = some res) : res.lamportTs = ts := by
  cases req with
  | applyReplication msg => exact hc.elim
  | book msg =>
    obtain rfl := Option.some.inj h
    rfl
  | cancel msg =>
    obtain ⟨r, rfl, rfl⟩ := Option.map_eq_some_iff.mp h
    rfl

/-- The backup has rebuilt the store of the primary, entry by entry, and its clock is not
behind. -/
theorem rebuilt (hp : Handles d.primary (.start d.primary false) p)
    (hb : Applies d.backup (.start d.backup true) (sentMessages p.log) b) :
    b.reservations = p.reservations ∧ p.logicalClock ≤ b.logicalClock := by
  induction hp generalizing b with
  | refl =>
    obtain rfl := Applies.nil_inv hb
    exact ⟨rfl, Nat.le_refl _⟩
  | @tail s s' h req as resp hp hc hs hacked ih =>
    have hrep := (handles_idle hp).2
    obtain ⟨-, es, dt, hcourse, rfl⟩ := (Node.serves_iff hc).mp hs
    have hlog : sentMessages (s.after h req resp dt es).log =
        sentMessages s.log ++ sentMessages es := List.filterMap_append
    rw [hlog] at hb
    cases hcourse with
    | refused | timedOut | conflict => exact ih (by simpa [sentMessages] using hb)
    | unreplicated now old res hpre hfree hold hyes hres hno => simp [hrep] at hno
    | failed now o old res hpre hfree hold hyes hres _ ho =>
      exact absurd (hacked o (by simp)) ho
    | replicated now old res hpre hfree hold hyes hres =>
      obtain ⟨b₀, h', as', resp', hb₀, hs', hok⟩ := Applies.snoc_inv hb
      obtain ⟨-, es', rfl⟩ := hs'.applied hok
      obtain ⟨hstore, hclock⟩ := ih hb₀
      refine ⟨?_, ?_⟩
      · exact congrArg (req.op.write · (req.key d.primary) res) hstore
      · have hts := record_lamportTs hc hres
        simp only [Node.after, Node.advanceLamportFromPeer, hts]
        omega

end

/-! ## After the promotion -/

section
variable {n : Nat} {clocks : List (Nat × Nat)} {r r' : Reservation} {d : Deployment}
  {cat : Catalogue} {p b : Node}

theorem Reservation.Alike.refl (r : Reservation) : Reservation.Alike n clocks r r :=
  ⟨rfl, .inl rfl, .inl rfl⟩

theorem optionAlike_refl (o : Option Reservation) :
    Option.Rel (Reservation.Alike n clocks) o o := by
  cases o with
  | none => exact .none
  | some r => exact .some (.refl r)

theorem Reply.Alike.refl (reply : Reply) : Reply.Alike n clocks reply reply := by
  cases reply with
  | written resp => exact ⟨rfl, rfl, optionAlike_refl _⟩
  | reservations rs count => exact ⟨rfl, List.forall₂_same.mpr fun r _ => .refl r⟩
  | _ => rfl

/-- What the two nodes have in common between two requests. -/
structure Twins (n : Nat) (clocks : List (Nat × Nat)) (p b : Data) : Prop where
  stores : Dict.Rel (Reservation.Alike n clocks) p.reservations b.reservations
  primary : n ≤ p.logicalClock
  backup : n ≤ b.logicalClock

theorem read_alike (ht : Twins n clocks p.data b.data) (q : Query) :
    Reply.Alike n clocks (p.read d.primary cat q) (b.read d.backup cat q) := by
  cases q with
  | getInfo => exact .refl _
  | unknown action => exact .refl _
  | checkAvailability msg =>
    have hkeys : p.reservations.keys = b.reservations.keys := ht.stores.keys
    simp only [Node.read, hkeys]
    exact .refl _
  | listReservations msg =>
    have hsame {r r' : Reservation} (h : r.Alike n clocks r') : r.date = r'.date :=
      show r.untimed.date = r'.untimed.date by rw [h.untimed]
    have hlist := List.rel_filter
      (p := fun res => !((msg.get "date").truthy && !res.date.equals (msg.get "date")))
      (q := fun res => !((msg.get "date").truthy && !res.date.equals (msg.get "date")))
      (fun r r' h => by simp only [hsame h]) ht.stores.values
    exact ⟨hlist.length_eq, hlist⟩

theorem record_alike {req : Request} {now now' ts ts' : Nat} {old old' : Option Reservation}
    {res : Reservation} (hc : req.IsClient)
    (hold : Option.Rel (Reservation.Alike n clocks) old old')
    (hres : req.record d.primary now ts old = some res) (hnow : (now, now') ∈ clocks)
    (hts : n < ts) (hts' : n < ts') :
    ∃ res', req.record d.backup now' ts' old' = some res' ∧ res.Alike n clocks res' := by
  cases req with
  | applyReplication msg => exact hc.elim
  | book msg =>
    obtain rfl := Option.some.inj hres
    exact ⟨_, rfl, rfl, .inr ⟨hts, hts'⟩, .inr hnow⟩
  | cancel msg =>
    cases hold with
    | none => simp [Request.record] at hres
    | some h =>
      obtain rfl := Option.some.inj hres
      exact ⟨_, rfl, congrArg (fun r : Reservation => { r with lamportTs := 0 }) h.untimed,
        .inr ⟨hts, hts'⟩, h.createdAt⟩

theorem expects_alike {op : Op} {old old' : Option Reservation}
    (h : Option.Rel (Reservation.Alike n clocks) old old') : op.Expects old ↔ op.Expects old' := by
  cases h <;> cases op <;> simp [Op.Expects]

theorem settle_alike {p b : Data} {req : Request} {now now' : Nat} (hc : req.IsClient)
    (ht : Twins n clocks p b) (hnow : (now, now') ∈ clocks) :
    Twins n clocks (Node.settle d.primary req now p).1 (Node.settle d.backup req now' b).1 ∧
      Reply.Alike n clocks (.written (Node.settle d.primary req now p).2)
        (.written (Node.settle d.backup req now' b).2) := by
  have hpre : d.backup.precheck req = d.primary.precheck req := by cases req <;> rfl
  have hkey : req.key d.backup = req.key d.primary := by cases req <;> rfl
  have hold := ht.stores.get? (req.key d.primary)
  cases hpre' : d.primary.precheck req with
  | some resp =>
    rw [Node.settle_refused hpre', Node.settle_refused (hpre.trans hpre')]
    exact ⟨ht, .refl _⟩
  | none =>
    by_cases hyes : req.op.Expects (p.reservations.get? (req.key d.primary))
    · obtain ⟨res, hres⟩ : ∃ res, req.record d.primary now (Node.nextLamport p.logicalClock)
          (p.reservations.get? (req.key d.primary)) = some res :=
        Node.record_of_expects hc hyes ..
      obtain ⟨res', hres', halike⟩ := record_alike (d := d) hc hold hres hnow
        (Nat.lt_succ_of_le ht.primary) (Nat.lt_succ_of_le ht.backup)
      rw [Node.settle_written hpre' hyes hres,
        Node.settle_written (hpre.trans hpre') (hkey ▸ (expects_alike hold).mp hyes)
          (hkey ▸ hres'), hkey]
      refine ⟨⟨?_, Nat.le_succ_of_le ht.primary, Nat.le_succ_of_le ht.backup⟩, ?_⟩
      · cases req.op with
        | book => exact ht.stores.set _ halike
        | cancel => exact ht.stores.erase _
      · cases req with
        | applyReplication msg => exact hc.elim
        | _ => exact ⟨rfl, rfl, .some halike⟩
    · rw [Node.settle_conflict hpre' hyes,
        Node.settle_conflict (hpre.trans hpre') fun h => hyes ((expects_alike hold).mpr (hkey ▸ h))]
      refine ⟨ht, ?_⟩
      have hconflict : req.conflict d.backup = req.conflict d.primary := by cases req <;> rfl
      rw [hconflict]
      exact .refl _

theorem session_alike {demands demands' : List (Demand × Nat)} {replies replies' : List Reply}
    {p' b' : Node} (hs : Session d.primary cat p demands replies p')
    (hs' : Session d.backup cat b demands' replies' b')
    (hsame : demands.map Prod.fst = demands'.map Prod.fst)
    (hclocks : (demands.map Prod.snd).zip (demands'.map Prod.snd) ⊆ clocks)
    (hp : Idle p) (hb : Idle b) (ht : Twins n clocks p.data b.data) :
    List.Forall₂ (Reply.Alike n clocks) replies replies' := by
  induction hs generalizing b demands' replies' with
  | nil =>
    obtain rfl : demands' = [] := by simpa using hsame.symm
    cases hs'
    exact .nil
  | @read s s' q now demands replies _ ih =>
    obtain ⟨x, rest, rfl⟩ := List.exists_cons_of_ne_nil
      (show demands' ≠ [] by rintro rfl; simp at hsame)
    obtain ⟨hx, hrest⟩ := List.cons.inj hsame
    obtain ⟨demand, now'⟩ := x
    obtain rfl : Demand.read q = demand := hx
    cases hs' with
    | read hs' =>
      refine .cons (read_alike ht q) (ih hs' hrest (fun x hx => hclocks ?_) hp hb ht)
      exact List.mem_cons_of_mem _ hx
  | @write s s₁ s' h req now resp demands replies hc hserves _ ih =>
    obtain ⟨x, rest, rfl⟩ := List.exists_cons_of_ne_nil
      (show demands' ≠ [] by rintro rfl; simp at hsame)
    obtain ⟨hx, hrest⟩ := List.cons.inj hsame
    obtain ⟨demand, now'⟩ := x
    obtain rfl : Demand.write req = demand := hx
    cases hs' with
    | @write _ s₁' _ h' _ _ resp' _ _ _ hserves' hs' =>
      obtain ⟨es, hcourse⟩ := Node.course_settle (h := h) hc (hp.free _) now
      obtain ⟨es', hcourse'⟩ := Node.course_settle (h := h') hc (hb.free _) now'
      obtain ⟨rfl, rfl⟩ := hserves.eq_after hc hcourse
      obtain ⟨rfl, rfl⟩ := hserves'.eq_after hc hcourse'
      obtain ⟨htwins, hreply⟩ := settle_alike hc ht (hclocks List.mem_cons_self)
      refine .cons hreply (ih hs' hrest (fun x hx => hclocks ?_) (hp.after ..) (hb.after ..) htwins)
      exact List.mem_cons_of_mem _ hx

theorem session_exists {cfg : Service} {s : Node} (hi : Idle s) (demands : List (Demand × Nat))
    (hc : ∀ x ∈ demands, x.1.IsClient) : ∃ replies s', Session cfg cat s demands replies s' := by
  induction demands generalizing s with
  | nil => exact ⟨[], s, .nil s⟩
  | cons x rest ih =>
    obtain ⟨demand, now⟩ := x
    have hrest : ∀ x ∈ rest, x.1.IsClient := fun x hx => hc x (List.mem_cons_of_mem _ hx)
    cases demand with
    | read q =>
      obtain ⟨replies, s', hs⟩ := ih hi hrest
      exact ⟨_, _, .read hs⟩
    | write req =>
      have hreq : req.IsClient := hc _ List.mem_cons_self
      obtain ⟨k, hk⟩ := hi.fresh
      obtain ⟨es, hcourse⟩ := Node.course_settle (h := .client k) hreq (hi.free _) now
      obtain ⟨replies, s', hs⟩ := ih (hi.after (.client k) req _ _ es) hrest
      exact ⟨_, _, .write hreq (hcourse.serves hreq (hk k (Nat.le_refl k))) hs⟩

/-- A backup that has applied the messages of a primary and was then promoted gives the answers
that the primary would have given, up to the times of the writes after the promotion. -/
theorem failover_transparent (hp : Handles d.primary (.start d.primary false) p)
    (hb : Applies d.backup (.start d.backup true) (sentMessages p.log) b)
    {demands demands' : List (Demand × Nat)}
    (hsame : demands.map Prod.fst = demands'.map Prod.fst)
    (hc : ∀ x ∈ demands, x.1.IsClient) :
    (∃ replies p', Session d.primary cat p demands replies p') ∧
      (∃ replies b', Session d.backup cat (b.promoteToPrimary d.backup) demands' replies b') ∧
      ∀ replies p' replies' b', Session d.primary cat p demands replies p' →
        Session d.backup cat (b.promoteToPrimary d.backup) demands' replies' b' →
        List.Forall₂
          (Reply.Alike p.logicalClock ((demands.map Prod.snd).zip (demands'.map Prod.snd)))
          replies replies' := by
  have hidle := (handles_idle hp).1
  have hidle' := (applies_idle hb).promote d.backup
  have hc' : ∀ x ∈ demands', x.1.IsClient := by
    intro x hx
    have hmem : x.1 ∈ demands.map Prod.fst := hsame ▸ List.mem_map_of_mem hx
    obtain ⟨y, hy, heq⟩ := List.mem_map.mp hmem
    exact heq ▸ hc y hy
  refine ⟨session_exists hidle demands hc, session_exists hidle' demands' hc', ?_⟩
  intro replies p' replies' b' hs hs'
  obtain ⟨hstore, hclock⟩ := rebuilt hp hb
  refine session_alike hs hs' hsame (List.Subset.refl _) hidle hidle' ⟨?_, Nat.le_refl _, ?_⟩
  · have hdata : (b.promoteToPrimary d.backup).data.reservations = p.data.reservations :=
      (Node.promote_reservations ..).trans hstore
    rw [hdata]
    exact .refl .refl _
  · exact hclock.trans_eq (Node.promote_logicalClock ..).symm

end

/-- The message for Alice's booking of T1. -/
def aliceBooked : ReplicationMsg :=
  ⟨.book, keyToList (dinnerKey "T1"), newReservation urban.primary (dinner "T1" "Alice") 5 1⟩

/-- A list of the reservations, and a cancel of hers. -/
def listsAndCancels (now : Nat) : List (Demand × Nat) :=
  [(.read (.listReservations []), now), (.write (.cancel (dinner "T1" "Alice")), now + 1)]

/-- Her booking is listed, and can be cancelled, on either node. -/
theorem failover_transparent_alice : ∃ (p b : Node) (replies replies' : List Reply) (p' b' : Node),
    sentMessages p.log = [aliceBooked] ∧
      Session urban.primary plainCatalogue p (listsAndCancels 7) replies p' ∧
      Session urban.backup plainCatalogue (b.promoteToPrimary urban.backup) (listsAndCancels 9)
        replies' b' ∧
      List.Forall₂ (Reply.Alike p.logicalClock [(7, 9), (8, 10)]) replies replies' := by
  obtain ⟨p, resp, hserves, hlog⟩ : ∃ p resp, Node.Serves urban.primary
      (.start urban.primary false) (.client 0) (.book (dinner "T1" "Alice"))
      [.acquire, .check, .stamp 5, .send, .returned .acked, .store, .release] p resp ∧
        sentMessages p.log = [aliceBooked] := ⟨_, _, ⟨rfl, rfl⟩, rfl⟩
  obtain ⟨b, resp', hserves', hok⟩ : ∃ b resp, Node.Serves urban.backup
      (.start urban.backup true) (.replica 0) (.applyReplication aliceBooked)
      [.acquire, .advance, .store, .release] b resp ∧ resp.status = .ok := ⟨_, _, ⟨rfl, rfl⟩, rfl⟩
  have hc : (Request.book (dinner "T1" "Alice")).IsClient := trivial
  have hp : Handles urban.primary (.start urban.primary false) p :=
    .tail .refl hc hserves (by simp)
  have hb : Applies urban.backup (.start urban.backup true) (sentMessages p.log) b :=
    hlog ▸ .snoc .nil hserves' hok
  have hsame : (listsAndCancels 7).map Prod.fst = (listsAndCancels 9).map Prod.fst := rfl
  obtain ⟨⟨replies, p', hs⟩, ⟨replies', b', hs'⟩, halike⟩ := failover_transparent hp hb hsame
    (by simp [listsAndCancels, Demand.IsClient, Request.IsClient])
  exact ⟨p, b, replies, replies', p', b', hlog, hs, hs', halike _ _ _ _ hs hs'⟩

end ReservationSystem
