import ReservationSystem.Node.Decisions
import ReservationSystem.Node.Order
import ReservationSystem.Node.Queries

/-!
# Tables do not interfere

All tables share one dict and one clock. What a node does on one table is still what a store
of that table alone does with the requests that get its lock, one after the other.
-/

namespace ReservationSystem

open Machine

/-! ## A table on its own -/

/-- A request that has the lock, and how `replicate` ends for it when not with `True`. -/
abbrev Visit := Request × Option Outcome

/-- What one request leaves in the store of its table, and its answer. -/
def serveVisit (cfg : Service) (store : Dict Key Reservation) (v : Visit) :
    Dict Key Reservation × Response :=
  let old := store.get? (v.1.key cfg)
  match (if v.1.op.Expects old then v.1.record cfg 0 0 old else none), v.2 with
  | none, _ => (store, v.1.conflict cfg)
  | some _, some o => (store, o.answer)
  | some res, none => (v.1.op.write store (v.1.key cfg) res, v.1.confirmation res)

def serveAll (cfg : Service) (vs : List Visit) : Dict Key Reservation × List Response :=
  vs.foldl (fun acc v => ((serveVisit cfg acc.1 v).1, acc.2 ++ [(serveVisit cfg acc.1 v).2]))
    (.empty, [])

theorem serveAll_snoc (cfg : Service) (vs : List Visit) (v : Visit) :
    serveAll cfg (vs ++ [v]) =
      ((serveVisit cfg (serveAll cfg vs).1 v).1,
        (serveAll cfg vs).2 ++ [(serveVisit cfg (serveAll cfg vs).1 v).2]) := by
  simp only [serveAll, List.foldl_append, List.foldl_cons, List.foldl_nil]

/-! ## Times do not matter -/

section
variable {cfg : Service} {req : Request} {op : Op} {old : Option Reservation}
  {res : Reservation} {o : Outcome}

theorem expects_untimed : op.Expects (old.map Reservation.untimed) ↔ op.Expects old := by
  cases op <;> simp [Op.Expects]

theorem record_untimed {now ts : Nat} (h : req.record cfg now ts old = some res)
    (hc : req.IsClient) : req.record cfg 0 0 (old.map .untimed) = some res.untimed := by
  cases req with
  | applyReplication msg => exact hc.elim
  | book msg =>
    obtain rfl := Option.some.inj h
    rfl
  | cancel msg =>
    simp only [Request.record, Option.map_eq_some_iff] at h
    obtain ⟨r, rfl, rfl⟩ := h
    rfl

theorem conflict_untimed : (req.conflict cfg).untimed = req.conflict cfg := by
  cases req <;> rfl

theorem answer_untimed : o.answer.untimed = o.answer := by
  cases o <;> rfl

theorem confirmation_untimed : (req.confirmation res).untimed = req.confirmation res.untimed := by
  cases req <;> rfl

end

namespace Node

variable {cfg : Service} {s s' : Node} {h h' : Thread} {hd hd' : Handler} {t : TableId}
  {req : Request} {a : Action} {e : Event} {es : List Event}

/-! ## What a run does on one table -/

/-- The threads that have got the lock of `t`, in order. -/
def visitors (t : TableId) (log : List Entry) : List Thread :=
  log.filterMap fun
    | .acquired h t' => if t' = t then some h else none
    | _ => none

/-- How `replicate` has ended for thread `h`, when not with `True`. -/
def refusal (es : List Event) (h : Thread) : Option Outcome :=
  es.findSome? fun
    | .act _ (.returned .acked) => none
    | .act h' (.returned o) => if h' = h then some o else none
    | _ => none

/-- The visit of a thread that has made up its mind, and its answer. -/
def verdict (es : List Event) (s : Node) (h : Thread) : Option (Visit × Response) :=
  (s.handlers h).bind fun hd =>
    hd.phase.resp?.map fun resp => ((hd.request, refusal es h), resp)

def verdicts (t : TableId) (es : List Event) (s : Node) : List (Visit × Response) :=
  (visitors t s.log).filterMap (verdict es s)

/-- The requests on `t` that have been decided, in the order in which they got the lock, with
what became of their replication. -/
def visits (t : TableId) (es : List Event) (s : Node) : List Visit :=
  (verdicts t es s).map Prod.fst

def answers (t : TableId) (es : List Event) (s : Node) : List Response :=
  (verdicts t es s).map fun v => v.2.untimed

/-- The stored reservations whose key is on `t`. -/
def storedOn (t : TableId) (s : Node) : Dict Key Reservation :=
  s.reservations.restrict (fun k => k.table = t) .untimed

/-- Only clients' requests come for the table. -/
def ClientsOn (t : TableId) : Event → Prop
  | .receive _ req => req.table = t → req.IsClient
  | _ => True

theorem visitors_append (t : TableId) (log log' : List Entry) :
    visitors t (log ++ log') = visitors t log ++ visitors t log' := List.filterMap_append

theorem mem_visitors {log : List Entry} : h ∈ visitors t log ↔ .acquired h t ∈ log := by
  simp only [visitors, List.mem_filterMap]
  constructor
  · rintro ⟨x, hx, heq⟩
    split at heq
    · split_ifs at heq with ht
      obtain rfl := Option.some.inj heq
      exact ht ▸ hx
    · simp at heq
  · exact fun hx => ⟨_, hx, by simp⟩

theorem refusal_snoc (es : List Event) (e : Event) (h : Thread) :
    refusal (es ++ [e]) h = (refusal es h).or (refusal [e] h) := by
  simp [refusal, List.findSome?_append]

theorem refusal_of_ne (hne : h' ≠ h) : refusal [.act h a] h' = none := by
  cases a with
  | returned o => cases o <;> simp [refusal, hne.symm]
  | _ => rfl

theorem refusal_returned {o : Outcome} (ho : o ≠ .acked) :
    refusal [.act h (.returned o)] h = some o := by
  cases o with
  | acked => exact absurd rfl ho
  | _ => simp [refusal]

theorem storedOn_get? (s : Node) {k : Key} (hk : k.table = t) :
    (storedOn t s).get? k = (s.reservations.get? k).map .untimed := by
  rw [storedOn, Dict.get?_restrict, if_pos (by simpa using hk)]

theorem restrict_write (op : Op) (store : Dict Key Reservation) (k : Key) (res : Reservation) :
    (op.write store k res).restrict (fun k => k.table = t) .untimed =
      if k.table = t then
        op.write (store.restrict (fun k => k.table = t) .untimed) k res.untimed
      else store.restrict (fun k => k.table = t) .untimed := by
  cases op with
  | book => simp [Op.write, Dict.restrict_set]
  | cancel =>
    simp only [Op.write, Dict.restrict_erase]
    split_ifs with hk
    · rfl
    · exact Dict.erase_of_not_mem fun h => hk (by simpa using ((Dict.mem_keys_restrict ..).mp h).2)

/-! ## One step -/

theorem verdict_ne (hs : Steps cfg s (.act h a) s') (hne : h' ≠ h) :
    verdict (es ++ [.act h a]) s' h' = verdict es s h' := by
  have hh : s'.handlers h' = s.handlers h' := by
    cases hs with
    | act h hd a s' hh ha => exact ha.handlers_ne hne
  simp only [verdict, hh, refusal_snoc, refusal_of_ne hne, Option.or_none]

/-- The threads that had the lock of `t` are done, the one that has it apart. -/
def Queued (t : TableId) (s : Node) : Prop :=
  ∀ h, s.tableLocks t = some h →
    ∃ before, visitors t s.log = before ++ [h] ∧ ∀ h' ∈ before, IsDone s h'

/-- What ties the run on `t` to a store of `t` alone. -/
structure Serial (cfg : Service) (t : TableId) (es : List Event) (s : Node) : Prop where
  queued : Queued t s
  /-- `replicate` has refused nobody who is still undecided. -/
  undecided : ∀ h, verdict es s h = none → refusal es h = none
  clients : ∀ h hd, s.handlers h = some hd → hd.request.table = t → hd.request.IsClient
  stamped : Stamped cfg s
  serial : serveAll cfg (visits t es s) = (storedOn t s, answers t es s)

theorem serial_start (cfg : Service) (t : TableId) (backUp : Bool) :
    Serial cfg t [] (start cfg backUp) where
  queued h hh := by simp [start] at hh
  undecided _ _ := rfl
  clients h hd hh := by simp [start] at hh
  stamped := stamped_start cfg backUp
  serial := rfl

theorem verdicts_owner (hi : Serial cfg t es s) (hs : Steps cfg s (.act h a) s')
    (hown : s.tableLocks t = some h) (hlog : visitors t s'.log = visitors t s.log)
    (hnone : verdict es s h = none) :
    verdicts t (es ++ [.act h a]) s' =
      verdicts t es s ++ (verdict (es ++ [.act h a]) s' h).toList := by
  obtain ⟨before, hv, hdone⟩ := hi.queued h hown
  have hbefore : before.filterMap (verdict (es ++ [.act h a]) s') =
      before.filterMap (verdict es s) := by
    refine List.filterMap_congr fun h' hh' => verdict_ne hs ?_
    rintro rfl
    obtain ⟨hd, resp, hh, hp⟩ := hdone h' hh'
    simp [verdict, hh, hp] at hnone
  rw [verdicts, verdicts, hlog, hv, List.filterMap_append, List.filterMap_append, hbefore]
  cases hd : verdict (es ++ [.act h a]) s' h <;> simp [hnone, hd]

theorem verdict_eq (hh : s.handlers h = some hd) :
    verdict es s h = hd.phase.resp?.map fun resp => ((hd.request, refusal es h), resp) := by
  simp [verdict, hh]

theorem verdicts_congr (hlog : visitors t s'.log = visitors t s.log) {es' : List Event}
    (hv : ∀ h ∈ visitors t s.log, verdict es' s' h = verdict es s h) :
    verdicts t es' s' = verdicts t es s := by
  rw [verdicts, verdicts, hlog]
  exact List.filterMap_congr hv

theorem verdicts_new {es' : List Event} (hlog : visitors t s'.log = visitors t s.log ++ [h])
    (hnone : verdict es' s' h = none)
    (hv : ∀ h ∈ visitors t s.log, verdict es' s' h = verdict es s h) :
    verdicts t es' s' = verdicts t es s := by
  rw [verdicts, verdicts, hlog, List.filterMap_append, List.filterMap_congr hv]
  simp [hnone]

theorem Serial.quiet (hi : Serial cfg t es s) {es' : List Event}
    (hv : verdicts t es' s' = verdicts t es s) (hstore : storedOn t s' = storedOn t s) :
    serveAll cfg (visits t es' s') = (storedOn t s', answers t es' s') := by
  simp only [visits, answers, hv, hstore]
  exact hi.serial

theorem Serial.decided (hi : Serial cfg t es s) {es' : List Event} {v : Visit} {resp : Response}
    (hv : verdicts t es' s' = verdicts t es s ++ [(v, resp)])
    (hserve : serveVisit cfg (storedOn t s) v = (storedOn t s', resp.untimed)) :
    serveAll cfg (visits t es' s') = (storedOn t s', answers t es' s') := by
  have hvisits : visits t es' s' = visits t es s ++ [v] := by simp [visits, hv]
  have hanswers : answers t es' s' = answers t es s ++ [resp.untimed] := by simp [answers, hv]
  rw [hvisits, hanswers, serveAll_snoc, hi.serial, hserve]

theorem Acts.visitors_eq (ha : Acts cfg s h hd a s')
    (hn : hd.request.table = t → hd.phase ≠ .received) :
    visitors t s'.log = visitors t s.log := by
  cases ha with
  | acquire hp =>
    have hne : hd.request.table ≠ t := fun ht => hn ht hp
    simp [visitors, moveTo, hne]
  | _ => simp [visitors]

theorem Acts.storedOn_ne (ha : Acts cfg s h hd a s') (hne : hd.request.table ≠ t) :
    storedOn t s' = storedOn t s := by
  have hk : (hd.request.key cfg).table ≠ t := by rwa [key_table]
  cases ha with
  | store | apply => exact (restrict_write ..).trans (if_neg hk)
  | _ => rfl

theorem History.visitor (hi : History cfg s) (hx : h ∈ visitors t s.log)
    (hh : s.handlers h = some hd) : hd.request.table = t ∧ hd.phase ≠ .received := by
  obtain ⟨hd', hh', hfit⟩ := hi.fits _ (mem_visitors.mp hx)
  obtain rfl := Option.some.inj (hh.symm.trans hh')
  exact hfit

/-! ### The step that decides -/

theorem serveVisit_conflict {req : Request} {store : Dict Key Reservation} {r : Option Outcome}
    (hno : ¬ req.op.Expects (store.get? (req.key cfg))) :
    serveVisit cfg store (req, r) = (store, req.conflict cfg) := by
  simp only [serveVisit, if_neg hno]

theorem serveVisit_record {req : Request} {store : Dict Key Reservation} {res : Reservation}
    (hyes : req.op.Expects (store.get? (req.key cfg)))
    (hres : req.record cfg 0 0 (store.get? (req.key cfg)) = some res) :
    (∀ o, serveVisit cfg store (req, some o) = (store, o.answer)) ∧
      serveVisit cfg store (req, none) =
        (req.op.write store (req.key cfg) res, req.confirmation res) := by
  simp only [serveVisit, if_pos hyes, hres, implies_true, and_self]

theorem stored_get? (ht : req.table = t) :
    (storedOn t s).get? (req.key cfg) = (s.reservations.get? (req.key cfg)).map .untimed :=
  storedOn_get? s (by rwa [key_table])

/-- A record that is stamped is the one that the visit brings. -/
theorem serveVisit_stamped (hw : Wf cfg s) (hi : Serial cfg t es s) {p : Phase}
    {old : Option Reservation} {res : Reservation} (hh : s.handlers h = some ⟨req, p⟩)
    (ht : req.table = t) (hold : p.old? = some old) (hres : p.res? = some res) :
    (∀ o, serveVisit cfg (storedOn t s) (req, some o) = (storedOn t s, o.answer)) ∧
      serveVisit cfg (storedOn t s) (req, none) =
        (req.op.write (storedOn t s) (req.key cfg) res.untimed,
          req.confirmation res.untimed) := by
  have hc := hi.clients h _ hh ht
  obtain ⟨now, ts, hrecord⟩ := hi.stamped h _ old res hh hc hold hres
  have hseen := hw.seen h _ old hh hold
  have hyes := (hw.expects h _ old hh hold).2
  refine serveVisit_record ?_ ?_
  · rwa [stored_get? ht, hseen, expects_untimed]
  · rw [stored_get? ht, hseen]
    exact record_untimed hrecord hc

/-- The check: a conflict is a decision. -/
theorem serial_check (hw : Wf cfg s) (hi : Serial cfg t es s)
    (hh : s.handlers h = some ⟨req, .locked⟩) (ht : req.table = t)
    (hact : s.act cfg h ⟨req, .locked⟩ .check = some s') :
    serveAll cfg (visits t (es ++ [.act h .check]) s') =
      (storedOn t s', answers t (es ++ [.act h .check]) s') := by
  have hc := hi.clients h _ hh ht
  have hs : Steps cfg s (.act h .check) s' := .act h _ .check s' hh (act_spec hact)
  have hown : s.tableLocks t = some h := ht ▸ hw.holds h _ hh trivial
  have hv := verdicts_owner hi hs hown ((act_spec hact).visitors_eq nofun)
    (by rw [verdict_eq hh]; rfl)
  rw [act_check hc] at hact
  split_ifs at hact with hyes <;> obtain rfl := Option.some.inj hact <;>
    rw [verdict_eq (Function.update_self ..)] at hv
  · exact hi.quiet (hv.trans (List.append_nil _)) rfl
  · refine hi.decided hv ?_
    rw [serveVisit_conflict, conflict_untimed]
    · rfl
    · rwa [stored_get? ht, expects_untimed]

/-- `replicate` returns: anything but `True` is a decision. -/
theorem serial_returned (hw : Wf cfg s) (hi : Serial cfg t es s) {o : Outcome}
    {old : Option Reservation} {res : Reservation}
    (hh : s.handlers h = some ⟨req, .replicating old res⟩) (ht : req.table = t)
    (hact : s.act cfg h ⟨req, .replicating old res⟩ (.returned o) = some s') :
    serveAll cfg (visits t (es ++ [.act h (.returned o)]) s') =
      (storedOn t s', answers t (es ++ [.act h (.returned o)]) s') := by
  have hc := hi.clients h _ hh ht
  have hs : Steps cfg s (.act h (.returned o)) s' := .act h _ _ s' hh (act_spec hact)
  have hown : s.tableLocks t = some h := ht ▸ hw.holds h _ hh trivial
  have hnone : verdict es s h = none := by rw [verdict_eq hh]; rfl
  have hv := verdicts_owner hi hs hown ((act_spec hact).visitors_eq nofun) hnone
  rw [act_replicate hc (.inr rfl)] at hact
  by_cases ho : o = .acked
  · subst ho
    obtain rfl := Option.some.inj hact
    rw [verdict_eq (Function.update_self ..)] at hv
    exact hi.quiet (hv.trans (List.append_nil _)) rfl
  · have hs' : s' = s.moveTo h ⟨req, .replicating old res⟩ (.leaving o.answer) [] := by
      cases o with
      | acked => exact absurd rfl ho
      | _ => exact (Option.some.inj hact).symm
    subst hs'
    rw [verdict_eq (Function.update_self ..), refusal_snoc, hi.undecided h hnone,
      refusal_returned ho] at hv
    refine hi.decided hv ?_
    rw [Option.none_or, (serveVisit_stamped hw hi hh ht rfl rfl).1 o, answer_untimed]
    rfl

/-- The dict write is a decision. -/
theorem serial_store (hw : Wf cfg s) (hi : Serial cfg t es s) {old : Option Reservation}
    {res : Reservation} (hh : s.handlers h = some ⟨req, .replicated old res⟩)
    (ht : req.table = t)
    (hact : s.act cfg h ⟨req, .replicated old res⟩ .store = some s') :
    serveAll cfg (visits t (es ++ [.act h .store]) s') =
      (storedOn t s', answers t (es ++ [.act h .store]) s') := by
  have hc := hi.clients h _ hh ht
  have hs : Steps cfg s (.act h .store) s' := .act h _ _ s' hh (act_spec hact)
  have hown : s.tableLocks t = some h := ht ▸ hw.holds h _ hh trivial
  have hnone : verdict es s h = none := by rw [verdict_eq hh]; rfl
  have hv := verdicts_owner hi hs hown ((act_spec hact).visitors_eq nofun) hnone
  rw [act_store hc] at hact
  obtain rfl := Option.some.inj hact
  rw [verdict_eq (Function.update_self ..), refusal_snoc, hi.undecided h hnone] at hv
  refine hi.decided hv ?_
  rw [show (none : Option Outcome).or (refusal [.act h .store] h) = none from rfl,
    (serveVisit_stamped hw hi hh ht rfl rfl).2, confirmation_untimed]
  congr 1
  have hk : (req.key cfg).table = t := by rwa [key_table]
  exact ((restrict_write ..).trans (if_pos hk)).symm

/-! ### The steps that decide nothing -/

/-- An action at another table. -/
theorem serial_other (hist : History cfg s) (hi : Serial cfg t es s) (hh : s.handlers h = some hd)
    (ht : hd.request.table ≠ t) (hact : s.act cfg h hd a = some s') :
    serveAll cfg (visits t (es ++ [.act h a]) s') =
      (storedOn t s', answers t (es ++ [.act h a]) s') := by
  have ha := act_spec hact
  have hlog : visitors t s'.log = visitors t s.log := ha.visitors_eq fun h => absurd h ht
  refine hi.quiet (verdicts_congr hlog fun h' hh' => ?_) (ha.storedOn_ne ht)
  refine verdict_ne (.act h hd a s' hh ha) ?_
  rintro rfl
  exact ht (hist.visitor hh' hh).1

/-- A thread that waits for the lock is no visitor yet. -/
theorem serial_waiting (hist : History cfg s) (hi : Serial cfg t es s)
    (hh : s.handlers h = some hd) (hp : hd.phase = .received) (hact : s.act cfg h hd a = some s')
    (hlog : visitors t s'.log = visitors t s.log ∨
      visitors t s'.log = visitors t s.log ++ [h] ∧ verdict (es ++ [.act h a]) s' h = none)
    (hstore : storedOn t s' = storedOn t s) :
    serveAll cfg (visits t (es ++ [.act h a]) s') =
      (storedOn t s', answers t (es ++ [.act h a]) s') := by
  have hv : ∀ h' ∈ visitors t s.log, verdict (es ++ [.act h a]) s' h' = verdict es s h' := by
    intro h' hh'
    refine verdict_ne (.act h hd a s' hh (act_spec hact)) ?_
    rintro rfl
    exact (hist.visitor hh' hh).2 hp
  rcases hlog with hlog | ⟨hlog, hnone⟩
  · exact hi.quiet (verdicts_congr hlog hv) hstore
  · exact hi.quiet (verdicts_new hlog hnone hv) hstore

/-- The owner moves on, from one phase without an answer to another. -/
theorem serial_owner (hw : Wf cfg s) (hi : Serial cfg t es s) (hh : s.handlers h = some hd)
    (ht : hd.request.table = t) (hact : s.act cfg h hd a = some s') (hl : hd.phase.HoldsLock)
    (hr : hd.phase.resp? = none) {p : Phase} (hh' : s'.handlers h = some { hd with phase := p })
    (hp : p.resp? = none) (hstore : storedOn t s' = storedOn t s) :
    serveAll cfg (visits t (es ++ [.act h a]) s') =
      (storedOn t s', answers t (es ++ [.act h a]) s') := by
  have hs : Steps cfg s (.act h a) s' := .act h hd a s' hh (act_spec hact)
  have hlog : visitors t s'.log = visitors t s.log := by
    refine (act_spec hact).visitors_eq fun _ hrec => ?_
    rw [hrec] at hl
    exact hl
  have hv := verdicts_owner hi hs (ht ▸ hw.holds h _ hh hl) hlog (by rw [verdict_eq hh, hr]; rfl)
  rw [verdict_eq hh', hp] at hv
  exact hi.quiet (hv.trans (List.append_nil _)) hstore

/-- The release changes no verdict. -/
theorem serial_release (hi : Serial cfg t es s) {resp : Response}
    (hh : s.handlers h = some hd) (hp : hd.phase = .leaving resp)
    (hact : s.act cfg h hd .release = some (s.release h hd resp)) :
    serveAll cfg (visits t (es ++ [.act h .release]) (s.release h hd resp)) =
      (storedOn t (s.release h hd resp),
        answers t (es ++ [.act h .release]) (s.release h hd resp)) := by
  have hlog : visitors t (s.release h hd resp).log = visitors t s.log := by simp [visitors]
  refine hi.quiet (verdicts_congr hlog fun h' hh' => ?_) rfl
  by_cases hne : h' = h
  · subst hne
    have hquiet : refusal [.act h' .release] h' = none := rfl
    rw [verdict_eq (Function.update_self ..), verdict_eq hh, hp, refusal_snoc, hquiet,
      Option.or_none]
    rfl
  · exact verdict_ne (.act h hd .release _ hh (act_spec hact)) hne

/-! ### Every action -/

theorem serial_act (hw : Wf cfg s) (hist : History cfg s) (hi : Serial cfg t es s)
    (hh : s.handlers h = some hd) (hact : s.act cfg h hd a = some s') :
    serveAll cfg (visits t (es ++ [.act h a]) s') =
      (storedOn t s', answers t (es ++ [.act h a]) s') := by
  by_cases ht : hd.request.table = t
  · obtain ⟨req, p⟩ := hd
    cases act_spec hact with
    | acquire hp hfree =>
      obtain rfl : p = .received := hp
      refine serial_waiting hist hi hh rfl hact (.inr ⟨?_, ?_⟩) rfl
      · exact (visitors_append ..).trans (by simp [visitors, ht])
      · rw [verdict_eq (Function.update_self ..)]
        rfl
    | lockTimeout resp hp =>
      exact serial_waiting hist hi hh hp hact (.inl (by simp [visitors])) rfl
    | checkFails resp hp | checkPasses old hc hp =>
      obtain rfl : p = .locked := hp
      exact serial_check hw hi hh ht hact
    | stamp now old res hp =>
      obtain rfl : p = .checked old := hp
      exact serial_owner hw hi hh ht hact trivial rfl (Function.update_self ..) rfl rfl
    | skip old res hp | send old res hp =>
      obtain rfl : p = .stamped old res := hp
      exact serial_owner hw hi hh ht hact trivial rfl (Function.update_self ..) rfl rfl
    | acked old res hp | refused o resp old res hp =>
      obtain rfl : p = .replicating old res := hp
      exact serial_returned hw hi hh ht hact
    | advance msg hreq | apply msg resp hreq =>
      -- The backup serves the replicated requests, and none comes for this table.
      obtain rfl : req = .applyReplication msg := hreq
      exact (hi.clients h _ hh ht).elim
    | store old res resp hc hp =>
      obtain rfl : p = .replicated old res := hp
      exact serial_store hw hi hh ht hact
    | release resp hp => exact serial_release hi hh hp hact
  · exact serial_other hist hi hh ht hact

/-! ### The other fields -/

theorem queued_step (hw : Wf cfg s) (hist : History cfg s) (hi : Queued t s)
    (hs : Steps cfg s e s') : Queued t s' := by
  have hkeep (hlog : visitors t s'.log = visitors t s.log)
      (hlock : ∀ h, s'.tableLocks t = some h → s.tableLocks t = some h) : Queued t s' := by
    intro h hown
    obtain ⟨before, hv, hdone⟩ := hi h (hlock h hown)
    exact ⟨before, hlog.trans hv, fun h' hh' => (hdone h' hh').step hs⟩
  have hstep := hs
  cases hs with
  | receive h req | refuse h req => exact hkeep (by simp [visitors]) fun _ => id
  | promote => exact hkeep (by rw [promote_log]) fun h => by rw [promote_tableLocks]; exact id
  | act h hd a s' hh ha =>
    by_cases ht : hd.request.table = t
    · cases ha with
      | acquire hp hfree =>
        intro h' hown
        obtain rfl : h = h' := by simpa [ht] using hown
        refine ⟨visitors t s.log, (visitors_append ..).trans (by simp [visitors, ht]), ?_⟩
        intro h' hh'
        exact (hw.isDone_of_free hist (mem_visitors.mp hh') (ht ▸ hfree)).step hstep
      | release resp hp =>
        intro h' hown
        simp [release, ht] at hown
      | _ => exact hkeep (by simp [visitors]) fun _ => id
    · refine hkeep (ha.visitors_eq fun h => absurd h ht) fun h' hown => ?_
      cases ha with
      | acquire | release => exact (Function.update_of_ne (Ne.symm ht) _ _).symm.trans hown
      | _ => exact hown

theorem undecided_step (hu : ∀ h, verdict es s h = none → refusal es h = none)
    (hs : Steps cfg s e s') (h : Thread) (hnone : verdict (es ++ [e]) s' h = none) :
    refusal (es ++ [e]) h = none := by
  rw [refusal_snoc]
  have hkeep (hhs : ∀ hd, s.handlers h = some hd → s'.handlers h = some hd)
      (he : refusal [e] h = none) : (refusal es h).or (refusal [e] h) = none := by
    rw [he, Option.or_none]
    refine hu h ?_
    cases hh : s.handlers h with
    | none => simp [verdict, hh]
    | some hd =>
      rw [verdict_eq (hhs hd hh), Option.map_eq_none_iff] at hnone
      rw [verdict_eq hh, hnone]
      rfl
  cases hs with
  | receive h' req hnew | refuse h' req resp hnew =>
    refine hkeep (fun hd hh => ?_) rfl
    have hne : h ≠ h' := by
      rintro rfl
      simp [hh] at hnew
    exact (Function.update_of_ne hne _ _).trans hh
  | promote => exact hkeep (fun hd hh => by rwa [promote_handlers]) rfl
  | act h' hd a s' hh ha =>
    by_cases hne : h = h'
    · subst hne
      obtain ⟨p, hp⟩ := ha.handlers_self
      rw [verdict_eq hp, Option.map_eq_none_iff] at hnone
      have hr : hd.phase.resp? = none := by
        cases hr : hd.phase.resp? with
        | none => rfl
        | some resp => exact absurd (hnone.symm.trans (ha.resp?_after hp hr)) (by simp)
      have hold : refusal es h = none := hu h (by rw [verdict_eq hh, hr]; rfl)
      rw [hold, Option.none_or]
      cases ha with
      | refused =>
        obtain rfl := Handler.mk.inj (handler_moved s h hp) |>.2
        simp at hnone
      | _ => rfl
    · exact hkeep (fun hd' hh' => (ha.handlers_ne hne).trans hh') (refusal_of_ne hne)

theorem serial_step (hw : Wf cfg s) (hist : History cfg s) (hi : Serial cfg t es s)
    (hs : s.step cfg e = some s') (he : ClientsOn t e) : Serial cfg t (es ++ [e]) s' := by
  have hsteps := step_spec hs
  have hclients (h : Thread) (hd' : Handler) (hh' : s'.handlers h = some hd')
      (ht : hd'.request.table = t) : hd'.request.IsClient := by
    rcases hsteps.handler hh' with hsame | ⟨-, rfl, -⟩ | ⟨hd, a, p, rfl, hh, -, rfl⟩
    · exact hi.clients h hd' hsame ht
    · exact he ht
    · exact hi.clients h hd hh ht
  refine
    { queued := queued_step hw hist hi.queued hsteps
      undecided := undecided_step hi.undecided hsteps
      clients := hclients
      stamped := stamped_step hi.stamped hs
      serial := ?_ }
  have hothers (hr : ∀ h, refusal [e] h = none)
      (hh : ∀ h ∈ visitors t s.log, s'.handlers h = s.handlers h) (h : Thread)
      (hmem : h ∈ visitors t s.log) : verdict (es ++ [e]) s' h = verdict es s h := by
    simp only [verdict, hh h hmem, refusal_snoc, hr, Option.or_none]
  cases hsteps with
  | receive h req hnew | refuse h req resp hnew =>
    refine hi.quiet (verdicts_congr (by simp [visitors]) (hothers (fun _ => rfl) ?_)) rfl
    intro h' hmem
    refine Function.update_of_ne ?_ _ _
    rintro rfl
    obtain ⟨hd, hh, -⟩ := hist.fits _ (mem_visitors.mp hmem)
    exact absurd (hh.symm.trans hnew) (by simp)
  | promote =>
    refine hi.quiet (verdicts_congr (by rw [promote_log]) (hothers (fun _ => rfl) ?_)) ?_
    · intro h hmem
      rw [promote_handlers]
    · rw [storedOn, promote_reservations, storedOn]
  | act h hd a s' hh ha => exact serial_act hw hist hi hh (by simpa [step, hh] using hs)

theorem serial_run {backUp : Bool} (hes : ∀ e ∈ es, ClientsOn t e)
    (he : exec (step cfg) (start cfg backUp) es = some s) : Serial cfg t es s := by
  induction es using List.reverseRecOn generalizing s with
  | nil =>
    obtain rfl := Option.some.inj he
    exact serial_start cfg t backUp
  | append_singleton es e ih =>
    rw [exec_snoc, Option.bind_eq_some_iff] at he
    obtain ⟨s₀, hs₀, hs⟩ := he
    have hr : Reach (step cfg) (fun _ _ => True) (start cfg backUp) s₀ :=
      reach_of_exec (meets_of_forall fun _ _ _ => trivial) hs₀
    exact serial_step (wf_reach (wf_start cfg backUp) hr)
      (history_reach (history_start cfg backUp) hr)
      (ih (fun e he => hes e (List.mem_append_left _ he)) hs₀) hs
      (hes e (List.mem_append_right _ List.mem_cons_self))

/-! ## Requests that never have the lock -/

/-- A handler that has not had the lock waits for it, or has been turned down. -/
def Unlocked (cfg : Service) (s : Node) : Prop :=
  ∀ h hd, s.handlers h = some hd → hd.request.IsClient →
    h ∉ visitors hd.request.table s.log →
      cfg.precheck hd.request = none ∧ hd.phase = .received ∨
        hd.phase = .done ((cfg.precheck hd.request).getD lockTimedOut)

theorem unlocked_step (hi : Unlocked cfg s) (hs : s.step cfg e = some s') : Unlocked cfg s' := by
  intro h hd' hh' hc hno
  have hsteps := step_spec hs
  have hsub : ∀ t, h ∉ visitors t s'.log → h ∉ visitors t s.log := by
    intro t hno hmem
    obtain ⟨es, hes⟩ := hsteps.log_append
    rw [hes, visitors_append] at hno
    exact hno (List.mem_append_left _ hmem)
  cases hsteps with
  | receive h' req hnew hadm =>
    by_cases hne : h = h'
    · subst hne
      obtain rfl := handler_moved s h hh'
      exact .inl ⟨hadm, rfl⟩
    · exact hi h hd' ((Function.update_of_ne hne _ _).symm.trans hh') hc (hsub _ hno)
  | refuse h' req resp hnew hadm =>
    by_cases hne : h = h'
    · subst hne
      obtain rfl := handler_moved s h hh'
      exact .inr (by rw [hadm]; rfl)
    · exact hi h hd' ((Function.update_of_ne hne _ _).symm.trans hh') hc (hsub _ hno)
  | promote =>
    rw [promote_handlers] at hh'
    exact hi h hd' hh' hc (hsub _ hno)
  | act h' hd a s' hh ha =>
    by_cases hne : h = h'
    · subst hne
      obtain ⟨p, hp⟩ := ha.handlers_self
      obtain rfl := Option.some.inj (hp.symm.trans hh')
      have hact : s.act cfg h hd a = some s' := by simpa [step, hh] using hs
      rcases hi h hd hh hc (hsub _ hno) with ⟨hadm, hphase⟩ | hphase
      · obtain ⟨req, q⟩ := hd
        obtain rfl : q = .received := hphase
        cases ha with
        | acquire => exact absurd (by simp [visitors]) hno
        | lockTimeout resp =>
          rw [act_lockTimeout hc] at hact
          have hresp : lockTimedOut = resp := by
            have := congrFun (congrArg Node.handlers (Option.some.inj hact)) h
            simpa [turnDown, moveTo] using this
          subst hresp
          exact .inr (by rw [hadm]; exact congrArg Handler.phase (handler_moved s h hp))
        | _ => simp_all
      · exact absurd hphase ha.not_done
    · exact hi h hd' ((ha.handlers_ne hne).symm.trans hh') hc (hsub _ hno)

theorem unlocked_reach {C : Node → Event → Prop} {backUp : Bool}
    (hr : Reach (step cfg) C (start cfg backUp) s) : Unlocked cfg s :=
  hr.invariant (fun h hd hh => by simp [start] at hh) fun _ _ _ _ hi _ hs => unlocked_step hi hs

/-! ## Two runs -/

theorem checkAvailability_offersOn {msg : Msg} {taken taken' : TableId → Bool}
    (h : taken t = taken' t) :
    (cfg.checkAvailability msg taken).offersOn t =
      (cfg.checkAvailability msg taken').offersOn t := by
  have hoffers :
      (availableTables (msg.getD "party_size" (.int 1)) taken cfg.tables.entries).map (offersOf t) =
        (availableTables (msg.getD "party_size" (.int 1)) taken' cfg.tables.entries).map
          (offersOf t) := offers_table h
  unfold Service.checkAvailability
  revert hoffers
  cases availableTables (msg.getD "party_size" (.int 1)) taken cfg.tables.entries <;>
    cases availableTables (msg.getD "party_size" (.int 1)) taken' cfg.tables.entries <;>
    simp [Except.map, Reply.offersOn, Reply.raised, Reply.message, errorAnswer]

theorem slotKey_mem (msg : Msg) :
    cfg.slotKey msg t ∈ s.reservations.keys ↔ cfg.slotKey msg t ∈ (storedOn t s).keys := by
  simp [storedOn, Dict.mem_keys_restrict, Service.slotKey, Key.table]

variable {es₁ es₂ : List Event} {s₁ s₂ : Node}

/-- Two runs that decide the same requests on a table, in the same order of its lock and with
the same replication outcomes, answer them alike and store the same on that table, whatever
they do on other tables. -/
theorem tables_independent {backUp : Bool} (hc₁ : ∀ e ∈ es₁, ClientsOn t e)
    (hc₂ : ∀ e ∈ es₂, ClientsOn t e)
    (he₁ : exec (step cfg) (start cfg backUp) es₁ = some s₁)
    (he₂ : exec (step cfg) (start cfg backUp) es₂ = some s₂)
    (hsame : visits t es₁ s₁ = visits t es₂ s₂) :
    answers t es₁ s₁ = answers t es₂ s₂ ∧ storedOn t s₁ = storedOn t s₂ ∧
      (∀ cat msg, (s₁.read cfg cat (.checkAvailability msg)).offersOn t =
        (s₂.read cfg cat (.checkAvailability msg)).offersOn t) ∧
      ∀ h₁ h₂ req resp₁ resp₂, req.IsClient → req.table = t →
        h₁ ∉ visitors t s₁.log → h₂ ∉ visitors t s₂.log →
        s₁.handlers h₁ = some ⟨req, .done resp₁⟩ → s₂.handlers h₂ = some ⟨req, .done resp₂⟩ →
        resp₁ = resp₂ := by
  have hserial₁ := (serial_run hc₁ he₁).serial
  have hserial₂ := (serial_run hc₂ he₂).serial
  rw [hsame, hserial₂] at hserial₁
  obtain ⟨hstore, hanswers⟩ := Prod.mk.inj hserial₁
  refine ⟨hanswers.symm, hstore.symm, fun cat msg => checkAvailability_offersOn ?_, ?_⟩
  · simp only [slotKey_mem, hstore]
  · intro h₁ h₂ req resp₁ resp₂ hc ht hno₁ hno₂ hh₁ hh₂
    subst ht
    have hr {es : List Event} {s : Node} (he : exec (step cfg) (start cfg backUp) es = some s) :
        Reach (step cfg) (fun _ _ => True) (start cfg backUp) s :=
      reach_of_exec (meets_of_forall fun _ _ _ => trivial) he
    rcases unlocked_reach (hr he₁) h₁ _ hh₁ hc hno₁ with ⟨-, hp⟩ | hp
    · exact absurd hp nofun
    · rcases unlocked_reach (hr he₂) h₂ _ hh₂ hc hno₂ with ⟨-, hp'⟩ | hp'
      · exact absurd hp' nofun
      · exact (Phase.done.inj hp).trans (Phase.done.inj hp').symm

/-- Alice books T1 while nobody else is there. -/
def aliceAlone : List Event :=
  .receive (.client 0) (.book (dinner "T1" "Alice")) ::
    acts (.client 0) [.acquire, .check, .stamp 5, .send, .returned .acked, .store, .release]

/-- She does so between the steps of a booking of T2 that fails. -/
def aliceAmongOthers : List Event :=
  .receive (.client 1) (.book (dinner "T2" "Bob")) ::
    (acts (.client 1) [.acquire, .check, .stamp 3] ++
      .receive (.client 0) (.book (dinner "T1" "Alice")) ::
      (acts (.client 0) [.acquire, .check, .stamp 7, .send, .returned .acked, .store, .release] ++
        acts (.client 1) [.send, .returned .failed, .release]))

theorem tables_independent_alice : ∃ s₁ s₂,
    exec (step urbanPlates) (start urbanPlates false) aliceAlone = some s₁ ∧
      exec (step urbanPlates) (start urbanPlates false) aliceAmongOthers = some s₂ ∧
      s₁.logicalClock ≠ s₂.logicalClock ∧
      answers "T1" aliceAlone s₁ = answers "T1" aliceAmongOthers s₂ ∧
      storedOn "T1" s₁ = storedOn "T1" s₂ := by
  obtain ⟨s₁, s₂, he₁, he₂, hclock, hsame⟩ : ∃ s₁ s₂,
      exec (step urbanPlates) (start urbanPlates false) aliceAlone = some s₁ ∧
        exec (step urbanPlates) (start urbanPlates false) aliceAmongOthers = some s₂ ∧
        s₁.logicalClock ≠ s₂.logicalClock ∧
        visits "T1" aliceAlone s₁ = visits "T1" aliceAmongOthers s₂ :=
    ⟨_, _, rfl, rfl, by decide, rfl⟩
  have hc₁ : ∀ e ∈ aliceAlone, ClientsOn "T1" e := by
    simp [aliceAlone, acts, ClientsOn, Request.IsClient]
  have hc₂ : ∀ e ∈ aliceAmongOthers, ClientsOn "T1" e := by
    simp [aliceAmongOthers, acts, ClientsOn, Request.IsClient]
  obtain ⟨hanswers, hstored, -⟩ := tables_independent hc₁ hc₂ he₁ he₂ hsame
  exact ⟨s₁, s₂, he₁, he₂, hclock, hanswers, hstored⟩

end Node

end ReservationSystem
