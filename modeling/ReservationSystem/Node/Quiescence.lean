import Mathlib.Algebra.Order.BigOperators.Group.Finset
import ReservationSystem.Node.Decisions
import ReservationSystem.Node.History
import ReservationSystem.Node.Serve

/-!
# Every handler comes to its end

A handler takes a handful of steps, and no handler waits for one that cannot go on: there is no
deadlock, and no lock is left behind.
-/

namespace ReservationSystem

open Machine

/-- The steps that a handler has before it, at most. -/
def Phase.left : Phase → Nat
  | .received => 7
  | .locked => 6
  | .checked _ => 5
  | .stamped _ _ => 4
  | .replicating _ _ => 3
  | .replicated _ _ | .advanced => 2
  | .leaving _ => 1
  | .done _ => 0

namespace Node

variable {cfg : Service} {s s' : Node} {h h' : Thread} {hd hd' : Handler} {a : Action} {e : Event}
  {es : List Event}

/-- The steps of thread `h`. -/
def Event.isOf (h : Thread) : Event → Bool
  | .act h' _ => h' = h
  | _ => false

/-- All handlers have answered, and all locks are free. -/
def Quiet (s : Node) : Prop :=
  (∀ h hd, s.handlers h = some hd → ∃ resp, hd.phase = .done resp) ∧ ∀ t, s.tableLocks t = none

def left (s : Node) (h : Thread) : Nat := ((s.handlers h).map fun hd => hd.phase.left).getD 0

theorem left_eq (hh : s.handlers h = some hd) : s.left h = hd.phase.left := by
  simp [left, hh]

theorem Acts.left_lt (ha : Acts cfg s h hd a s') (hh' : s'.handlers h = some hd') :
    hd'.phase.left < hd.phase.left := by
  cases ha <;> obtain rfl := handler_moved s h hh' <;> simp_all [Phase.left]

theorem Acts.left_self (hh : s.handlers h = some hd) (ha : Acts cfg s h hd a s') :
    s'.left h < s.left h := by
  obtain ⟨p, hh'⟩ := ha.handlers_self
  rw [left_eq hh, left_eq hh']
  exact ha.left_lt hh'

theorem Acts.left_ne (ha : Acts cfg s h hd a s') (hne : h' ≠ h) : s'.left h' = s.left h' := by
  unfold left
  rw [ha.handlers_ne hne]

/-! ## How many steps a handler takes -/

/-- The steps that thread `h` can still take, also before its request has come. -/
def budget (s : Node) (h : Thread) : Nat := ((s.handlers h).map fun hd => hd.phase.left).getD 7

theorem budget_of_handler (hh : s.handlers h = some hd) : s.budget h = hd.phase.left := by
  simp [budget, hh]

theorem budget_step (hs : Steps cfg s e s') (h : Thread) :
    s'.budget h + (if e.isOf h then 1 else 0) ≤ s.budget h := by
  cases hs with
  | receive h₀ req hnew | refuse h₀ req resp hnew =>
    by_cases heq : h = h₀
    · subst heq
      rw [budget_of_handler (Function.update_self ..)]
      simp [budget, hnew, Phase.left, Event.isOf]
    · have hsame (p : Phase) (es : List Entry) :
          (s.moveTo h₀ ⟨req, .received⟩ p es).budget h = s.budget h := by
        simp [budget, moveTo, Function.update_of_ne heq]
      simp [hsame, Event.isOf]
  | act h₀ hd a s' hh ha =>
    by_cases heq : h = h₀
    · subst heq
      obtain ⟨p, hh'⟩ := ha.handlers_self
      rw [budget_of_handler hh, budget_of_handler hh']
      simp only [Event.isOf, decide_true, if_true]
      exact ha.left_lt hh'
    · have hother : Event.isOf h (.act h₀ a) = false := by simp [Event.isOf, Ne.symm heq]
      simp [hother, budget, ha.handlers_ne heq]
  | promote => simp [budget, promote_handlers, Event.isOf]

theorem budget_run (he : exec (step cfg) s es = some s') (h : Thread) :
    s'.budget h + es.countP (Event.isOf h) ≤ s.budget h := by
  induction es generalizing s with
  | nil =>
    obtain rfl := Option.some.inj he
    simp
  | cons e es ih =>
    obtain ⟨t, ht, he⟩ := Option.bind_eq_some_iff.mp he
    have hstep := budget_step (step_spec ht) h
    have hrun := ih he
    rw [List.countP_cons]
    omega

/-! ## Who holds the locks -/

/-- A lock is held by a handler that works at its table, and only replicas advance the clock. -/
structure Steady (s : Node) : Prop where
  owned : ∀ t h, s.tableLocks t = some h →
    ∃ hd, s.handlers h = some hd ∧ hd.phase.HoldsLock ∧ hd.request.table = t
  replicas : ∀ h hd, s.handlers h = some hd → hd.phase = .advanced → ¬ hd.request.IsClient

theorem steady_start (cfg : Service) (backUp : Bool) : Steady (start cfg backUp) where
  owned t h ht := by simp [start] at ht
  replicas h hd hh := by simp [start] at hh

theorem Acts.owner {t : TableId} (ha : Acts cfg s h hd a s') (hh' : s'.handlers h = some hd')
    (ht : s'.tableLocks t = some h') :
    h' = h ∧ hd'.phase.HoldsLock ∧ hd.request.table = t ∨
      s.tableLocks t = some h' ∧
        (hd.phase.HoldsLock → hd'.phase.HoldsLock ∨ hd.request.table ≠ t) := by
  cases ha with
  | acquire hp hfree =>
    obtain rfl := handler_moved s h hh'
    replace ht : Function.update s.tableLocks hd.request.table (some h) t = some h' := ht
    by_cases heq : t = hd.request.table
    · subst heq
      rw [Function.update_self] at ht
      exact .inl ⟨(Option.some.inj ht).symm, trivial, rfl⟩
    · rw [Function.update_of_ne heq] at ht
      exact .inr ⟨ht, fun _ => .inr (Ne.symm heq)⟩
  | release resp hp =>
    replace ht : Function.update s.tableLocks hd.request.table none t = some h' := ht
    by_cases heq : t = hd.request.table
    · subst heq
      rw [Function.update_self] at ht
      cases ht
    · rw [Function.update_of_ne heq] at ht
      exact .inr ⟨ht, fun _ => .inr (Ne.symm heq)⟩
  | lockTimeout resp hp => exact .inr ⟨ht, fun hl => absurd hl (by rw [hp]; exact id)⟩
  | _ =>
    obtain rfl := handler_moved s h hh'
    exact .inr ⟨ht, fun _ => .inl trivial⟩

theorem owned_act {t : TableId} (hi : Steady s) (hh : s.handlers h = some hd)
    (ha : Acts cfg s h hd a s') (ht : s'.tableLocks t = some h') :
    ∃ hd', s'.handlers h' = some hd' ∧ hd'.phase.HoldsLock ∧ hd'.request.table = t := by
  obtain ⟨p, hp⟩ := ha.handlers_self
  rcases ha.owner hp ht with ⟨rfl, hl, htable⟩ | ⟨hold, hkeeps⟩
  · exact ⟨_, hp, hl, htable⟩
  · obtain ⟨hd₀, hh₀, hl, htable⟩ := hi.owned t h' hold
    by_cases heq : h' = h
    · subst heq
      obtain rfl := Option.some.inj (hh.symm.trans hh₀)
      exact ⟨_, hp, (hkeeps hl).resolve_right fun hne => hne htable, htable⟩
    · exact ⟨hd₀, (ha.handlers_ne heq).trans hh₀, hl, htable⟩

theorem owned_moveTo_new {t : TableId} {req : Request} {p : Phase} {entries : List Entry}
    (hi : Steady s) (hnew : s.handlers h = none) (ht : s.tableLocks t = some h') :
    ∃ hd', (s.moveTo h ⟨req, .received⟩ p entries).handlers h' = some hd' ∧
      hd'.phase.HoldsLock ∧ hd'.request.table = t := by
  obtain ⟨hd₀, hh₀, hl, htable⟩ := hi.owned t h' ht
  have hne : h' ≠ h := by
    rintro rfl
    cases hnew.symm.trans hh₀
  exact ⟨hd₀, (Function.update_of_ne hne ..).trans hh₀, hl, htable⟩

theorem steady_step (hi : Steady s) (hs : Steps cfg s e s') : Steady s' := by
  constructor
  · intro t h₀ ht
    cases hs with
    | receive h req hnew => exact owned_moveTo_new hi hnew ht
    | refuse h req resp hnew => exact owned_moveTo_new hi hnew ht
    | act h hd a s' hh ha => exact owned_act hi hh ha ht
    | promote =>
      rw [promote_tableLocks] at ht
      rw [promote_handlers]
      exact hi.owned t h₀ ht
  · intro h₀ hd₀ hh₀ hp
    rcases hs.handler hh₀ with hold | ⟨-, -, ⟨-, hp'⟩ | ⟨resp, hp', -⟩⟩ | ⟨hd, a, p, -, hh, ha, rfl⟩
    · exact hi.replicas h₀ hd₀ hold hp
    · cases hp.symm.trans hp'
    · cases hp.symm.trans hp'
    · cases ha with
      | advance msg hreq => exact fun hc => by simp [hreq, Request.IsClient] at hc
      | _ =>
        obtain rfl := congrArg Handler.phase (handler_moved s h₀ hh₀)
        cases hp

theorem steady_reach {C : Node → Event → Prop} {backUp : Bool}
    (hr : Reach (step cfg) C (start cfg backUp) s) : Steady s :=
  hr.invariant (steady_start cfg backUp) fun _ _ _ _ hi _ hs => steady_step hi (step_spec hs)

/-! ## No handler waits for ever -/

/-- A step that thread `h` takes on its own: no timeout, and a replication that ends as `outcome`
says. -/
def Event.Goes (outcome : Thread → Outcome) : Event → Prop
  | .act h (.returned o) => o = outcome h
  | .act _ a => a ≠ .lockTimeout
  | _ => False

section
variable {outcome : Thread → Outcome}

theorem goes_act {p : Phase} {req : Request} (hs : s.handlers h = some ⟨req, p⟩)
    (ha : s.act cfg h ⟨req, p⟩ a = some s') (hg : (Event.act h a).Goes outcome) :
    ∃ a s', s.step cfg (.act h a) = some s' ∧ (Event.act h a).Goes outcome :=
  ⟨a, s', by simp only [step, hs, Option.bind_some, ha], hg⟩

theorem goes_client {req : Request} {p : Phase} (hw : Wf cfg s) (hc : req.IsClient)
    (hh : s.handlers h = some ⟨req, p⟩) (hl : p.HoldsLock) (hp : p ≠ .advanced) (now : Nat) :
    ∃ a s', s.step cfg (.act h a) = some s' ∧ (Event.act h a).Goes outcome := by
  cases p with
  | received => exact hl.elim
  | locked => exact goes_act hh (act_check hc) nofun
  | checked old =>
    obtain ⟨res, hres⟩ : ∃ res, req.record cfg now (nextLamport s.logicalClock) old = some res :=
      record_of_expects hc (hw.expects h _ old hh rfl).2 ..
    have hact : s.act cfg h ⟨req, .checked old⟩ (.stamp now) =
        some (s.stamp h ⟨req, .checked old⟩ (req.key cfg) old res) := by
      rw [act_stamp hc old now, hres, Option.map_some]
    exact goes_act hh hact nofun
  | stamped old res =>
    have hact (a : Action) : s.act cfg h ⟨req, .stamped old res⟩ a =
        s.replicate h ⟨req, .stamped old res⟩ req.op (req.key cfg) (.stamped old res) a :=
      act_replicate hc (.inl rfl)
    cases hr : s.replicates with
    | true => exact goes_act hh ((hact .send).trans (if_pos hr)) nofun
    | false => exact goes_act hh ((hact .skipReplication).trans (if_neg (by simp [hr]))) nofun
  | replicating old res =>
    obtain ⟨s', hs'⟩ : ∃ s', s.replicate h ⟨req, .replicating old res⟩ req.op (req.key cfg)
        (.replicating old res) (.returned (outcome h)) = some s' := by
      cases outcome h <;> exact ⟨_, rfl⟩
    exact goes_act hh ((act_replicate hc (.inr rfl)).trans hs') rfl
  | replicated old res => exact goes_act hh (act_store hc old res) nofun
  | advanced => exact absurd rfl hp
  | leaving resp => exact goes_act hh (act_release resp) nofun
  | done resp => exact hl.elim

theorem goes_replica {msg : ReplicationMsg} {p : Phase} (hw : Wf cfg s)
    (hh : s.handlers h = some ⟨.applyReplication msg, p⟩) (hl : p.HoldsLock) :
    ∃ a s', s.step cfg (.act h a) = some s' ∧ (Event.act h a).Goes outcome := by
  cases p with
  | received => exact hl.elim
  | locked => exact goes_act (a := .advance) hh rfl nofun
  | advanced => exact goes_act (a := .store) hh rfl nofun
  | leaving resp => exact goes_act hh (act_release resp) nofun
  | done resp => exact hl.elim
  | _ => exact (hw.expects h _ _ hh rfl).1.elim

/-- A handler that has its lock can go on, whatever the other threads do. -/
theorem goes_holder (hw : Wf cfg s) (hi : Steady s) (hh : s.handlers h = some hd)
    (hl : hd.phase.HoldsLock) :
    ∃ a s', s.step cfg (.act h a) = some s' ∧ (Event.act h a).Goes outcome := by
  obtain ⟨req, p⟩ := hd
  by_cases hc : req.IsClient
  · exact goes_client hw hc hh hl (fun hp => hi.replicas h _ hh hp hc) 0
  · cases req with
    | applyReplication msg => exact goes_replica hw hh hl
    | _ => exact absurd trivial hc

theorem goes_waiting (hh : s.handlers h = some hd) (hp : hd.phase = .received)
    (hfree : s.tableLocks hd.request.table = none) :
    ∃ a s', s.step cfg (.act h a) = some s' ∧ (Event.act h a).Goes outcome := by
  obtain ⟨req, p⟩ := hd
  subst hp
  exact goes_act hh (act_acquire.trans (if_pos hfree)) nofun

/-- No deadlock: as long as a handler is not done or a lock is held, some handler can go on. -/
theorem goes_of_not_quiet (hw : Wf cfg s) (hi : Steady s) (hq : ¬ s.Quiet) :
    ∃ h a s', s.step cfg (.act h a) = some s' ∧ (Event.act h a).Goes outcome := by
  have hholder (t : TableId) (h : Thread) (ht : s.tableLocks t = some h) :
      ∃ h a s', s.step cfg (.act h a) = some s' ∧ (Event.act h a).Goes outcome := by
    obtain ⟨hd, hh, hl, -⟩ := hi.owned t h ht
    exact ⟨h, goes_holder hw hi hh hl⟩
  by_contra hno
  refine hq ⟨fun h hd hh => ?_, fun t => ?_⟩
  · by_contra hdone
    by_cases hp : hd.phase = .received
    · cases ht : s.tableLocks hd.request.table with
      | none => exact hno ⟨h, goes_waiting hh hp ht⟩
      | some h' => exact hno (hholder _ h' ht)
    · have hl : hd.phase.HoldsLock := by
        obtain ⟨req, p⟩ := hd
        cases p with
        | received => exact hp rfl
        | done resp => exact hdone ⟨resp, rfl⟩
        | _ => trivial
      exact hno ⟨h, goes_holder hw hi hh hl⟩
  · by_contra ht
    obtain ⟨h, ht⟩ := Option.ne_none_iff_exists'.mp ht
    exact hno (hholder t h ht)

/-! ## From any state to a quiet one -/

theorem goes_ends (hs : Finset Thread) (hmem : ∀ h hd, s.handlers h = some hd → h ∈ hs)
    (hw : Wf cfg s) (hi : Steady s) : ∃ es s', exec (step cfg) s es = some s' ∧
      (∀ e ∈ es, e.Goes outcome) ∧ s'.Quiet := by
  -- Every step of a handler brings the handlers closer to their ends, and starts no other one.
  induction hn : hs.sum s.left using Nat.strong_induction_on generalizing s with
  | _ n ih =>
    by_cases hq : s.Quiet
    · exact ⟨[], s, rfl, nofun, hq⟩
    obtain ⟨h, a, t, hstep, hgoes⟩ : ∃ h a t, s.step cfg (.act h a) = some t ∧
        (Event.act h a).Goes outcome := goes_of_not_quiet hw hi hq
    obtain ⟨hd, hh, hact⟩ := Option.bind_eq_some_iff.mp hstep
    have ha := act_spec hact
    have hlt : hs.sum t.left < n := by
      rw [← hn]
      refine Finset.sum_lt_sum (fun h' _ => ?_) ⟨h, hmem h hd hh, ha.left_self hh⟩
      by_cases heq : h' = h
      · rw [heq]
        exact (ha.left_self hh).le
      · exact (ha.left_ne heq).le
    have hmem' (h' : Thread) (hd' : Handler) (hh' : t.handlers h' = some hd') : h' ∈ hs := by
      by_cases heq : h' = h
      · rw [heq]
        exact hmem h hd hh
      · exact hmem h' hd' ((ha.handlers_ne heq).symm.trans hh')
    obtain ⟨es, s', hes, hall, hquiet⟩ := ih _ hlt hmem' (wf_step hw (step_spec hstep))
      (steady_step hi (step_spec hstep)) rfl
    exact ⟨.act h a :: es, s', by rw [exec, hstep, Option.bind_some, hes],
      List.forall_mem_cons.mpr ⟨hgoes, hall⟩, hquiet⟩

end

theorem budget_le (s : Node) (h : Thread) : s.budget h ≤ 7 := by
  unfold budget
  cases s.handlers h with
  | none => exact Nat.le_refl 7
  | some hd =>
    obtain ⟨req, p⟩ := hd
    cases p <;> simp [Phase.left]

/-- No thread takes more than seven steps, in any run. However the replications are going to end,
some handler can go on without a timeout until all have answered and all locks are free, and there
is a way to get there. -/
theorem handlers_end {C : Node → Event → Prop} {backUp : Bool}
    (hr : Reach (step cfg) C (start cfg backUp) s) (outcome : Thread → Outcome) :
    (∀ es s', exec (step cfg) s es = some s' → ∀ h, es.countP (Event.isOf h) ≤ 7) ∧
      (s.Quiet ∨ ∃ h a s', s.step cfg (.act h a) = some s' ∧ (Event.act h a).Goes outcome) ∧
      ∃ es s', exec (step cfg) s es = some s' ∧ (∀ e ∈ es, e.Goes outcome) ∧ s'.Quiet := by
  have hw : Wf cfg s := wf_reach (wf_start cfg backUp) hr
  have hi : Steady s := steady_reach hr
  refine ⟨fun es s' he h => ?_, ?_, ?_⟩
  · have hrun := budget_run he h
    have hle := budget_le s h
    omega
  · exact or_iff_not_imp_left.mpr (goes_of_not_quiet hw hi)
  · refine goes_ends (s.log.map Entry.thread).toFinset (fun h hd hh => ?_) hw hi
    have hpast := (history_reach (history_start cfg backUp) hr).past h hd hh
    exact List.mem_toFinset.mpr (List.mem_map.mpr ⟨_, hpast.received, rfl⟩)

/-- Bob is at work at T1, and Alice waits for its lock. -/
def waiting : List Event :=
  .receive (.client 0) (.book (dinner "T1" "Alice")) ::
    .receive (.client 1) (.book (dinner "T1" "Bob")) ::
      acts (.client 1) [.acquire, .check, .stamp 3, .send]

theorem handlers_end_waiting : ∃ s, exec (step urbanPlates) (start urbanPlates false) waiting =
    some s ∧ s.tableLocks (Request.table (.book (dinner "T1" "Alice"))) = some (.client 1) ∧
      ∃ es s', exec (step urbanPlates) s es = some s' ∧
        (∀ e ∈ es, e.Goes fun _ => .failed) ∧ s'.Quiet := by
  obtain ⟨s, hs, hlock⟩ : ∃ s, exec (step urbanPlates) (start urbanPlates false) waiting = some s ∧
      s.tableLocks (Request.table (.book (dinner "T1" "Alice"))) = some (.client 1) := ⟨_, rfl, rfl⟩
  have hm : Meets (step urbanPlates) (fun _ _ => True) (start urbanPlates false) waiting :=
    meets_of_forall fun _ _ _ => trivial
  exact ⟨s, hs, hlock, (handlers_end (reach_of_exec hm hs) fun _ => .failed).2.2⟩

end Node

end ReservationSystem
