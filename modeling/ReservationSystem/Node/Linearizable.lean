import ReservationSystem.Lib.Atomic
import ReservationSystem.Node.Decisions

/-!
# The store as an atomic object

However the handlers of a node are interleaved, what can be seen of them is what a map of
reservations does that takes one request at a time.
-/

namespace ReservationSystem

open Atomic Machine

/-- The reservations, without their order. -/
abbrev Ledger := Key → Option Reservation

/-- What a handler answers that does not get its lock. -/
def Request.timedOut : Request → Response
  | .applyReplication _ => errorAnswer "Lock timeout"
  | _ => lockTimedOut

/-- One request after the other. A request can miss its lock or its replication, and then it
has changed nothing. -/
inductive Ledger.Applies (cfg : Service) (l : Ledger) (req : Request) : Response → Ledger → Prop
  | refused (resp : Response) (hpre : cfg.precheck req = some resp) : Applies cfg l req resp l
  | timedOut (hpre : cfg.precheck req = none) : Applies cfg l req req.timedOut l
  | conflict (hpre : cfg.precheck req = none) (hc : req.IsClient)
      (hno : ¬ req.op.Expects (l (req.key cfg))) : Applies cfg l req (req.conflict cfg) l
  | unreplicated (o : Outcome) (hpre : cfg.precheck req = none) (hc : req.IsClient)
      (ho : o ≠ .acked) (hyes : req.op.Expects (l (req.key cfg))) : Applies cfg l req o.answer l
  | written (now ts : Nat) (res : Reservation) (hpre : cfg.precheck req = none)
      (hyes : req.IsClient → req.op.Expects (l (req.key cfg)))
      (hres : req.record cfg now ts (l (req.key cfg)) = some res) :
      Applies cfg l req (req.confirmation res)
        (Function.update l (req.key cfg) (req.op.effect res))

def ledger (cfg : Service) : Object Ledger Request Response where
  start _ := none
  Applies := Ledger.Applies cfg

def Entry.mark? : Entry → Option (Mark Thread Request Response)
  | .received h req => some (.invoked h req)
  | .answered h resp => some (.returned h resp)
  | _ => none

/-- A handler that is leaving has made up its mind. -/
def progressOf : Option Handler → Progress Request Response
  | none => .fresh
  | some ⟨req, .leaving resp⟩ => .happened req resp
  | some ⟨req, .done resp⟩ => .over req resp
  | some ⟨req, _⟩ => .pending req

theorem progressOf_pending {req : Request} {p : Phase} (hp : p.resp? = none) :
    progressOf (some ⟨req, p⟩) = .pending req := by
  cases p <;> first | rfl | simp at hp

/-- What can be seen of an operation whose handler gets to this phase. -/
def Phase.marks {ι : Type*} (i : ι) : Phase → List (Mark ι Request Response)
  | .done resp => [.returned i resp]
  | _ => []

/-- How far the handler of a request is when the request has come in. -/
def Service.intake (cfg : Service) (req : Request) : Phase :=
  match cfg.precheck req with
  | some resp => .done resp
  | none => .received

theorem admitted_of_pending {cfg : Service} {req : Request} (hp : (cfg.intake req).resp? = none) :
    cfg.precheck req = none := by
  unfold Service.intake at hp
  split at hp
  · simp at hp
  · assumption

theorem advances_intake {ι : Type*} [DecidableEq ι] {b : State Ledger ι Request Response} {i : ι}
    {cfg : Service} {req : Request} (hb : b.progress i = .fresh) :
    Advances (ledger cfg) b i (progressOf (some ⟨req, cfg.intake req⟩)) b.value
      (.invoked i req :: (cfg.intake req).marks i) := by
  unfold Service.intake
  split
  case h_1 resp hpre => exact advances_refuse hb (Ledger.Applies.refused resp hpre)
  case h_2 => exact advances_invoke hb

/-- A handler goes on from phase `p` to phase `q`, and the map with it. -/
theorem advances_phase {ι : Type*} [DecidableEq ι] {b : State Ledger ι Request Response} {i : ι}
    {cfg : Service} {req : Request} {p q : Phase} {v : Ledger}
    (hb : b.progress i = progressOf (some ⟨req, p⟩))
    (hstay : q.resp? = none ∨ p.resp? ≠ none → v = b.value)
    (hover : ∀ resp, p.resp? = some resp → p = .leaving resp ∧ q = .done resp)
    (happ : ∀ resp, p.resp? = none → q.resp? = some resp →
      Ledger.Applies cfg b.value req resp v) :
    Advances (ledger cfg) b i (progressOf (some ⟨req, q⟩)) v (q.marks i) := by
  cases hp : p.resp? with
  | some resp =>
    obtain ⟨rfl, rfl⟩ := hover resp hp
    obtain rfl := hstay (.inr (by simp))
    exact advances_return hb
  | none =>
    rw [progressOf_pending hp] at hb
    cases hr : q.resp? with
    | none =>
      obtain rfl := hstay (.inl hr)
      have hmarks : q.marks i = [] := by
        cases q <;> first | rfl | simp at hr
      rw [hmarks, progressOf_pending hr]
      exact advances_stay hb
    | some resp =>
      have hcall := happ resp hp hr
      cases q with
      | leaving resp' =>
        obtain rfl := Option.some.inj hr
        exact advances_happen hb hcall
      | done resp' =>
        obtain rfl := Option.some.inj hr
        exact advances_answer hb hcall
      | _ => simp at hr

namespace Node

variable {cfg : Service} {s s' : Node} {h : Thread} {req : Request} {p q : Phase} {a : Action}
  {e : Event} {resp : Response}

/-- The requests and the answers of the node. -/
def history (s : Node) : List (Mark Thread Request Response) := s.log.filterMap Entry.mark?

/-! ## The step that decides -/

theorem Acts.reservations_eq {hd : Handler} (ha : Acts cfg s h hd a s') (hne : a ≠ .store) :
    s'.reservations = s.reservations := by
  cases ha <;> first | rfl | exact absurd rfl hne

theorem get?_store (op : Op) (k : Key) (res : Reservation) (hd : Handler) :
    (s.store h hd op k res resp).reservations.get? =
      Function.update s.reservations.get? k (op.effect res) := by
  funext k'
  rw [Function.update_apply]
  exact get?_write op s.reservations k k' res

/-- A handler that makes up its mind and writes nothing has looked under its own key only. -/
theorem client_refuses (hw : Wf cfg s) (hpre : cfg.precheck req = none)
    (hc : req.IsClient) (hh : s.handlers h = some ⟨req, p⟩)
    (hact : s.act cfg h ⟨req, p⟩ a = some s') (hp : p.resp? = none)
    (hh' : s'.handlers h = some ⟨req, q⟩) (hr : q.resp? = some resp) (hne : a ≠ .store)
    {l : Ledger} (hl : p.HoldsLock → l (req.key cfg) = s.reservations.get? (req.key cfg)) :
    Ledger.Applies cfg l req resp l := by
  have ha := act_spec hact
  cases decides hc hact hp hh' hr with
  | lockTimeout =>
    have htimed : req.timedOut = lockTimedOut := by
      cases req with
      | applyReplication msg => exact hc.elim
      | _ => rfl
    exact htimed ▸ .timedOut hpre
  | conflict hno =>
    obtain rfl : p = .locked := by cases ha <;> assumption
    refine .conflict hpre hc ?_
    rwa [hl trivial]
  | returned o ho =>
    obtain ⟨old, res, rfl⟩ : ∃ old res, p = .replicating old res := by
      cases ha with
      | acked => exact absurd rfl ho
      | refused _ _ old res hphase => exact ⟨old, res, hphase⟩
    refine .unreplicated o hpre hc ho ?_
    rw [hl trivial]
    exact hw.found hh rfl
  | confirmed => exact absurd rfl hne

theorem client_applies (hw : Wf cfg s) (hst : Stamped cfg s) (hpre : cfg.precheck req = none)
    (hc : req.IsClient) (hh : s.handlers h = some ⟨req, p⟩)
    (hact : s.act cfg h ⟨req, p⟩ a = some s') (hp : p.resp? = none)
    (hh' : s'.handlers h = some ⟨req, q⟩) (hr : q.resp? = some resp) :
    Ledger.Applies cfg s.reservations.get? req resp s'.reservations.get? := by
  have ha := act_spec hact
  cases ha with
  | apply msg _ hreq =>
    obtain rfl : req = .applyReplication msg := hreq
    exact hc.elim
  | store old res _ _ hphase =>
    obtain rfl : p = .replicated old res := hphase
    rw [act_store hc] at hact
    have hs' := Option.some.inj hact
    rw [← hs'] at hh'
    obtain rfl : q = .leaving (req.confirmation res) :=
      congrArg Handler.phase (handler_moved s h hh')
    obtain rfl := Option.some.inj hr
    obtain ⟨now, ts, hrecord⟩ := hst h _ old res hh hc rfl rfl
    have hseen : s.reservations.get? (req.key cfg) = old := hw.seen h _ old hh rfl
    rw [← hs', get?_store]
    refine .written now ts res hpre (fun _ => hw.found hh rfl) ?_
    rw [hseen]
    exact hrecord
  | _ => exact client_refuses hw hpre hc hh hact hp hh' hr nofun fun _ => rfl

theorem replica_applies {msg : ReplicationMsg}
    (hpre : cfg.precheck (.applyReplication msg) = none)
    (hact : s.act cfg h ⟨.applyReplication msg, p⟩ a = some s') (hp : p.resp? = none)
    (hh' : s'.handlers h = some ⟨.applyReplication msg, q⟩) (hr : q.resp? = some resp) :
    Ledger.Applies cfg s.reservations.get? (.applyReplication msg) resp s'.reservations.get? := by
  simp only [act, applyReplication] at hact
  split at hact
  case h_1 hphase =>
    obtain ⟨-, hs'⟩ := Option.ite_none_right_eq_some.mp hact
    rw [← Option.some.inj hs'] at hh'
    obtain rfl := congrArg Handler.phase (handler_moved s h hh')
    simp at hr
  case h_2 =>
    rw [← Option.some.inj hact] at hh' ⊢
    obtain rfl := congrArg Handler.phase (handler_moved s h hh')
    obtain rfl := Option.some.inj hr
    exact .timedOut hpre
  case h_3 =>
    rw [← Option.some.inj hact] at hh'
    obtain rfl := congrArg Handler.phase (handler_moved s h hh')
    simp at hr
  case h_4 =>
    rw [← Option.some.inj hact] at hh' ⊢
    obtain rfl := congrArg Handler.phase (handler_moved s h hh')
    obtain rfl := Option.some.inj hr
    rw [get?_store]
    exact .written 0 0 msg.reservation hpre (fun hc => hc.elim) rfl
  case h_5 => simp at hp
  case h_6 => cases hact

theorem act_applies (hw : Wf cfg s) (hst : Stamped cfg s) (hpre : cfg.precheck req = none)
    (hh : s.handlers h = some ⟨req, p⟩) (hact : s.act cfg h ⟨req, p⟩ a = some s')
    (hp : p.resp? = none) (hh' : s'.handlers h = some ⟨req, q⟩) (hr : q.resp? = some resp) :
    Ledger.Applies cfg s.reservations.get? req resp s'.reservations.get? := by
  cases req with
  | applyReplication msg => exact replica_applies hpre hact hp hh' hr
  | _ => exact client_applies hw hst hpre trivial hh hact hp hh' hr

/-! ## Keeping step -/

/-- The node is as far as the map, and no handler with a request that was turned down goes on. -/
structure Follows (cfg : Service) (s : Node) (a : State Ledger Thread Request Response) :
    Prop where
  value : a.value = s.reservations.get?
  progress : ∀ h, a.progress h = progressOf (s.handlers h)
  history : a.history = s.history
  admitted : ∀ h hd, s.handlers h = some hd → hd.phase.resp? = none →
    cfg.precheck hd.request = none

section
variable {hd hd' : Handler} {b : State Ledger Thread Request Response}

theorem follows_start (cfg : Service) (backUp : Bool) :
    Follows cfg (start cfg backUp) (State.start (ledger cfg)) where
  value := rfl
  progress h := rfl
  history := rfl
  admitted h hd hh := by simp [start] at hh

theorem Acts.history (ha : Acts cfg s h hd a s') (hh' : s'.handlers h = some hd') :
    s'.history = s.history ++ hd'.phase.marks h := by
  cases ha <;> obtain rfl := handler_moved s h hh' <;>
    simp [Node.history, moveTo, turnDown, Entry.mark?, Phase.marks]

theorem Steps.receives (hs : Steps cfg s (.receive h req) s') :
    s.handlers h = none ∧
      s'.handlers = Function.update s.handlers h (some ⟨req, cfg.intake req⟩) ∧
      s'.reservations = s.reservations ∧
      s'.history = s.history ++ .invoked h req :: (cfg.intake req).marks h := by
  cases hs with
  | receive _ _ hnew hpre =>
    simp [Service.intake, hpre, hnew, moveTo, Node.history, Entry.mark?, Phase.marks]
  | refuse _ _ resp hnew hpre =>
    simp [Service.intake, hpre, hnew, moveTo, Node.history, Entry.mark?, Phase.marks]

/-- A handler that has made up its mind only releases its lock. -/
theorem Acts.over (ha : Acts cfg s h hd a s') (hh' : s'.handlers h = some hd')
    (hr : hd.phase.resp? = some resp) :
    (hd.phase = .leaving resp ∧ hd'.phase = .done resp) ∧
      s'.reservations = s.reservations := by
  cases ha <;> obtain rfl := handler_moved s h hh' <;> simp_all [Node.release, moveTo]

theorem Acts.reservations_pending (ha : Acts cfg s h hd a s') (hh' : s'.handlers h = some hd')
    (hr : hd'.phase.resp? = none) : s'.reservations = s.reservations := by
  refine ha.reservations_eq ?_
  rintro rfl
  cases ha <;> obtain rfl := handler_moved s h hh' <;> simp at hr

theorem Acts.reservations_stay (ha : Acts cfg s h hd a s') (hh' : s'.handlers h = some hd')
    (hr : hd'.phase.resp? = none ∨ hd.phase.resp? ≠ none) :
    s'.reservations = s.reservations := by
  rcases hr with hr | hr
  · exact ha.reservations_pending hh' hr
  · obtain ⟨resp, hresp⟩ := Option.ne_none_iff_exists'.mp hr
    exact (ha.over hh' hresp).2

/-- Only thread `h` has got on. -/
theorem Follows.next {x : Progress Request Response} {marks : List (Mark Thread Request Response)}
    (hf : Follows cfg s b) (hadv : Advances (ledger cfg) b h x s'.reservations.get? marks)
    (hne : ∀ h', h' ≠ h → s'.handlers h' = s.handlers h') (hx : x = progressOf (s'.handlers h))
    (hhist : s'.history = s.history ++ marks)
    (hadm : ∀ h hd, s'.handlers h = some hd → hd.phase.resp? = none →
      cfg.precheck hd.request = none) :
    ∃ b', Atomic.Steps (ledger cfg) b b' ∧ Follows cfg s' b' := by
  obtain ⟨b', hs, hv, hp, hm⟩ := hadv.exists_steps hf.progress
    (fun h' heq => congrArg progressOf (hne h' heq)) hx.symm
  exact ⟨b', hs, hv, hp, by rw [hm, hf.history, hhist], hadm⟩

theorem Follows.admitted_act (hf : Follows cfg s b) (hh : s.handlers h = some hd)
    (ha : Acts cfg s h hd a s') (h' : Thread) (hd' : Handler) (hh' : s'.handlers h' = some hd')
    (hr : hd'.phase.resp? = none) : cfg.precheck hd'.request = none := by
  by_cases heq : h' = h
  · subst heq
    obtain ⟨q, hq⟩ := ha.handlers_self
    obtain rfl := Option.some.inj (hq.symm.trans hh')
    refine hf.admitted h' hd hh ?_
    cases hp : hd.phase.resp? with
    | none => rfl
    | some resp => exact absurd ((ha.resp?_after hq hp).symm.trans hr) nofun
  · rw [ha.handlers_ne heq] at hh'
    exact hf.admitted h' hd' hh' hr

theorem follows_act (hw : Wf cfg s) (hst : Stamped cfg s) (hf : Follows cfg s b)
    (hh : s.handlers h = some ⟨req, p⟩) (hact : s.act cfg h ⟨req, p⟩ a = some s') :
    ∃ b', Atomic.Steps (ledger cfg) b b' ∧ Follows cfg s' b' := by
  have ha := act_spec hact
  obtain ⟨q, hh'⟩ := ha.handlers_self
  replace hh' : s'.handlers h = some ⟨req, q⟩ := hh'
  have hadv : Advances (ledger cfg) b h (progressOf (some ⟨req, q⟩)) s'.reservations.get?
      (q.marks h) := by
    refine advances_phase (by rw [hf.progress, hh]) (fun hr => ?_)
      (fun resp hp => (ha.over hh' hp).1) fun resp hp hr => ?_
    · rw [hf.value, ha.reservations_stay hh' hr]
    · rw [hf.value]
      exact act_applies hw hst (hf.admitted h _ hh hp) hh hact hp hh' hr
  exact hf.next hadv (fun h' hne => ha.handlers_ne hne) (by rw [hh']) (ha.history hh')
    (hf.admitted_act hh ha)

theorem follows_receive (hf : Follows cfg s b) (hs : Steps cfg s (.receive h req) s') :
    ∃ b', Atomic.Steps (ledger cfg) b b' ∧ Follows cfg s' b' := by
  obtain ⟨hnew, hh, hres, hhist⟩ := hs.receives
  have hb : b.progress h = .fresh := by rw [hf.progress, hnew]; rfl
  have hadv : Advances (ledger cfg) b h (progressOf (some ⟨req, cfg.intake req⟩)) b.value
      (.invoked h req :: (cfg.intake req).marks h) := advances_intake hb
  rw [hf.value, ← hres] at hadv
  refine hf.next hadv (fun h' hne => ?_) (by rw [hh, Function.update_self]) hhist ?_
  · rw [hh, Function.update_of_ne hne]
  · intro h' hd' hh' hr
    rw [hh, Function.update_apply] at hh'
    split_ifs at hh'
    · obtain rfl := Option.some.inj hh'
      exact admitted_of_pending hr
    · exact hf.admitted h' hd' hh' hr

theorem follows_step (hw : Wf cfg s) (hst : Stamped cfg s) (hf : Follows cfg s b)
    (hs : s.step cfg e = some s') : ∃ b', Atomic.Steps (ledger cfg) b b' ∧ Follows cfg s' b' := by
  cases e with
  | act h a =>
    obtain ⟨⟨req, p⟩, hh, hact⟩ := Option.bind_eq_some_iff.mp hs
    exact follows_act hw hst hf hh hact
  | promote =>
    obtain rfl := Option.some.inj hs
    refine ⟨b, .refl, ?_, ?_, ?_, ?_⟩
    · rw [promote_reservations]
      exact hf.value
    · rw [promote_handlers]
      exact hf.progress
    · rw [Node.history, promote_log]
      exact hf.history
    · rw [promote_handlers]
      exact hf.admitted
  | receive h req => exact follows_receive hf (step_spec hs)

section
variable {C : Node → Event → Prop} {backUp : Bool} (hr : Reach (step cfg) C (start cfg backUp) s)
include hr

theorem follows_reach :
    ∃ b, Follows cfg s b ∧ Linearization (ledger cfg) b.history b.calls b.value :=
  linearizable_of_simulation (Follows cfg) (follows_start cfg backUp) (fun _ _ _ _ hr hf _ hs =>
    follows_step (wf_reach (wf_start cfg backUp) hr) (stamped_reach hr) hf hs) hr

theorem admitted_reach (hh : s.handlers h = some hd) (hp : hd.phase.resp? = none) :
    cfg.precheck hd.request = none := by
  obtain ⟨b, hf, -⟩ := follows_reach hr
  exact hf.admitted h hd hh hp

end

/-- The answers of a node are those of a map that takes one request at a time, in an order that
no request and no answer contradicts. -/
theorem linearizable {C : Node → Event → Prop} {backUp : Bool}
    (hr : Reach (step cfg) C (start cfg backUp) s) :
    ∃ calls, Linearization (ledger cfg) s.history calls s.reservations.get? := by
  obtain ⟨b, hf, hlin⟩ := follows_reach hr
  exact ⟨b.calls, hf.history ▸ hf.value ▸ hlin⟩

end

/-- Alice and Bob ask for T1 at the same time, and Bob gets the lock first. -/
def overlapping : List Event :=
  .receive (.client 0) (.book (dinner "T1" "Alice")) ::
    .receive (.client 1) (.book (dinner "T1" "Bob")) ::
      (acts (.client 1) [.acquire, .check, .stamp 3, .send, .returned .acked, .store, .release] ++
        acts (.client 0) [.acquire, .check, .release])

theorem linearizable_overlapping : ∃ s calls,
    exec (step urbanPlates) (start urbanPlates false) overlapping = some s ∧
      s.history.length = 4 ∧
      Linearization (ledger urbanPlates) s.history calls s.reservations.get? := by
  obtain ⟨s, hs, hlen⟩ : ∃ s, exec (step urbanPlates) (start urbanPlates false) overlapping =
      some s ∧ s.history.length = 4 := ⟨_, rfl, rfl⟩
  have hm : Meets (step urbanPlates) (fun _ _ => True) (start urbanPlates false) overlapping :=
    meets_of_forall fun _ _ _ => trivial
  obtain ⟨calls, hlin⟩ := linearizable (reach_of_exec hm hs)
  exact ⟨s, calls, hs, hlen, hlin⟩

end Node

end ReservationSystem
