import ReservationSystem.Lib.Machine
import ReservationSystem.Node.Invariants

/-!
# One request from start to end

What a handler does when it runs without a break: its answer, and all that it changes.
-/

namespace ReservationSystem

open Machine

/-! ## What the answers say -/

/-- `self.reservations` and `self.logical_clock`. -/
structure Data where
  reservations : Dict Key Reservation
  logicalClock : Nat

def Node.data (s : Node) : Data := ⟨s.reservations, s.logicalClock⟩

def lockTimedOut : Response := errorAnswer "Could not acquire table lock (timed out)"

/-- The answer when the key is taken for `_bookTable`, or free for `_cancelReservation`. -/
def Request.conflict (cfg : Service) : Request → Response
  | .book msg => errorAnswer ("Table " ++ cfg.fstr (msg.get "table_id") ++
      " at " ++ cfg.fstr (msg.get "timeslot") ++ " is already booked")
  | _ => errorAnswer "No reservation found to cancel"

/-- The record that the handler stamps, when it finds `old` under its key. -/
def Request.record (cfg : Service) (now ts : Nat) (old : Option Reservation) :
    Request → Option Reservation
  | .book msg => some (newReservation cfg msg now ts)
  | .cancel _ => old.map fun res => { res with lamportTs := ts }
  | .applyReplication msg => some msg.reservation

def Request.confirmation (res : Reservation) : Request → Response
  | .book _ => ⟨.ok, "Reservation confirmed!", some res⟩
  | .cancel _ => ⟨.ok, "Reservation cancelled", some res⟩
  | .applyReplication _ => ⟨.ok, "", none⟩

/-- The answer when `replicate` has not returned `True`. -/
def Outcome.answer : Outcome → Response
  | .raised text => errorAnswer text
  | _ => errorAnswer "Backup replication failed"

instance {ρ : Type*} (op : Op) (old : Option ρ) : Decidable (op.Expects old) :=
  match op, old with
  | .book, none | .cancel, some _ => isTrue (by simp [Op.Expects])
  | .book, some _ | .cancel, none => isFalse (by simp [Op.Expects])

namespace Node

variable {cfg : Service} {s s' : Node} {h : Thread} {req : Request} {as : List Action}
  {resp : Response}

/-- The node takes the request, and its handler runs to its end. -/
def Serves (cfg : Service) (s : Node) (h : Thread) (req : Request) (as : List Action) (s' : Node)
    (resp : Response) : Prop :=
  exec (step cfg) s (.receive h req :: acts h as) = some s' ∧
    s'.handlers h = some ⟨req, .done resp⟩

/-- The state that such a handler leaves. -/
def after (s : Node) (h : Thread) (req : Request) (resp : Response) (d : Data)
    (es : List Entry) : Node :=
  { s with
    reservations := d.reservations
    logicalClock := d.logicalClock
    handlers := Function.update s.handlers h (some ⟨req, .done resp⟩)
    log := s.log ++ es }

/-- The ways through `_bookTable` and `_cancelReservation`: the steps, what can be seen of
them, the data that are left and the answer. -/
inductive Course (cfg : Service) (s : Node) (h : Thread) (req : Request) :
    List Action → List Entry → Data → Response → Prop
  | refused (resp : Response) (hpre : cfg.precheck req = some resp) :
      Course cfg s h req [] [.received h req, .answered h resp] s.data resp
  | timedOut (hpre : cfg.precheck req = none) :
      Course cfg s h req [.lockTimeout] [.received h req, .answered h lockTimedOut] s.data
        lockTimedOut
  | conflict (hpre : cfg.precheck req = none) (hfree : s.tableLocks req.table = none)
      (hno : ¬ req.op.Expects (s.reservations.get? (req.key cfg))) :
      Course cfg s h req [.acquire, .check, .release]
        [.received h req, .acquired h req.table, .answered h (req.conflict cfg)] s.data
        (req.conflict cfg)
  | unreplicated (now : Nat) (old : Option Reservation) (res : Reservation)
      (hpre : cfg.precheck req = none) (hfree : s.tableLocks req.table = none)
      (hold : s.reservations.get? (req.key cfg) = old) (hyes : req.op.Expects old)
      (hres : req.record cfg now (nextLamport s.logicalClock) old = some res)
      (hrep : s.replicates = false) :
      Course cfg s h req [.acquire, .check, .stamp now, .skipReplication, .store, .release]
        [.received h req, .acquired h req.table, .stamped h (req.key cfg) old res,
          .changed h req.op (req.key cfg) old res, .answered h (req.confirmation res)]
        ⟨req.op.write s.reservations (req.key cfg) res, nextLamport s.logicalClock⟩
        (req.confirmation res)
  | replicated (now : Nat) (old : Option Reservation) (res : Reservation)
      (hpre : cfg.precheck req = none) (hfree : s.tableLocks req.table = none)
      (hold : s.reservations.get? (req.key cfg) = old) (hyes : req.op.Expects old)
      (hres : req.record cfg now (nextLamport s.logicalClock) old = some res)
      (hrep : s.replicates = true) :
      Course cfg s h req [.acquire, .check, .stamp now, .send, .returned .acked, .store, .release]
        [.received h req, .acquired h req.table, .stamped h (req.key cfg) old res,
          .sent h ⟨req.op, keyToList (req.key cfg), res⟩, .acked h,
          .changed h req.op (req.key cfg) old res, .answered h (req.confirmation res)]
        ⟨req.op.write s.reservations (req.key cfg) res, nextLamport s.logicalClock⟩
        (req.confirmation res)
  | failed (now : Nat) (o : Outcome) (old : Option Reservation) (res : Reservation)
      (hpre : cfg.precheck req = none) (hfree : s.tableLocks req.table = none)
      (hold : s.reservations.get? (req.key cfg) = old) (hyes : req.op.Expects old)
      (hres : req.record cfg now (nextLamport s.logicalClock) old = some res)
      (hrep : s.replicates = true) (ho : o ≠ .acked) :
      Course cfg s h req [.acquire, .check, .stamp now, .send, .returned o, .release]
        [.received h req, .acquired h req.table, .stamped h (req.key cfg) old res,
          .sent h ⟨req.op, keyToList (req.key cfg), res⟩, .answered h o.answer]
        ⟨s.reservations, nextLamport s.logicalClock⟩ o.answer

/-! ## The steps of a handler -/

theorem act_acquire : s.act cfg h ⟨req, .received⟩ .acquire = s.acquire h ⟨req, .received⟩ := by
  cases req <;> rfl

theorem act_release (resp : Response) : s.act cfg h ⟨req, .leaving resp⟩ .release =
    some (s.release h ⟨req, .leaving resp⟩ resp) := by
  cases req <;> rfl

section
variable {p : Phase} (hc : req.IsClient)
include hc

theorem act_lockTimeout : s.act cfg h ⟨req, .received⟩ .lockTimeout =
    some (s.turnDown h ⟨req, .received⟩ lockTimedOut) := by
  cases req with
  | applyReplication msg => exact hc.elim
  | _ => rfl

theorem act_check : s.act cfg h ⟨req, .locked⟩ .check =
    some (s.moveTo h ⟨req, .locked⟩
      (if req.op.Expects (s.reservations.get? (req.key cfg)) then
        .checked (s.reservations.get? (req.key cfg))
      else .leaving (req.conflict cfg)) []) := by
  cases req with
  | applyReplication msg => exact hc.elim
  | book msg =>
    simp only [act, bookTable, Request.op, Op.Expects, Request.conflict]
    cases s.reservations.get? ((Request.book msg).key cfg) <;> rfl
  | cancel msg =>
    simp only [act, cancelReservation, Request.op, Op.Expects, Request.conflict]
    cases s.reservations.get? ((Request.cancel msg).key cfg) <;> simp

theorem act_stamp (old : Option Reservation) (now : Nat) :
    s.act cfg h ⟨req, .checked old⟩ (.stamp now) =
      (req.record cfg now (nextLamport s.logicalClock) old).map fun res =>
        s.stamp h ⟨req, .checked old⟩ (req.key cfg) old res := by
  cases req with
  | applyReplication msg => exact hc.elim
  | book msg => rfl
  | cancel msg => cases old <;> rfl

theorem act_replicate {old : Option Reservation} {res : Reservation} {a : Action}
    (hp : p = .stamped old res ∨ p = .replicating old res) :
    s.act cfg h ⟨req, p⟩ a = s.replicate h ⟨req, p⟩ req.op (req.key cfg) p a := by
  cases req with
  | applyReplication msg => exact hc.elim
  | _ => rcases hp with rfl | rfl <;> rfl

theorem act_store (old : Option Reservation) (res : Reservation) :
    s.act cfg h ⟨req, .replicated old res⟩ .store =
      some (s.store h ⟨req, .replicated old res⟩ req.op (req.key cfg) res
        (req.confirmation res)) := by
  cases req with
  | applyReplication msg => exact hc.elim
  | _ => rfl

end

/-! ## The steps that lead to an answer -/

theorem exec_acts (hd : Handler) (hh : s.handlers h = some hd) (a : Action) :
    exec (step cfg) s (acts h (a :: as)) =
      (s.act cfg h hd a).bind fun s₁ => exec (step cfg) s₁ (acts h as) := by
  simp [acts, exec, step, hh]

theorem exec_done (hh : s.handlers h = some ⟨req, .done resp⟩)
    (he : exec (step cfg) s (acts h as) = some s') : as = [] := by
  cases as with
  | nil => rfl
  | cons a as =>
    rw [exec_acts _ hh, Option.bind_eq_some_iff] at he
    obtain ⟨s₁, hs, -⟩ := he
    cases act_spec hs <;> simp_all

/-- What is left to do for a handler that has not answered. -/
def Ends (cfg : Service) (s : Node) (h : Thread) (req : Request) (p : Phase)
    (as : List Action) : Prop :=
  s.handlers h = some ⟨req, p⟩ ∧
    ∃ s' resp, exec (step cfg) s (acts h as) = some s' ∧ s'.handlers h = some ⟨req, .done resp⟩

theorem Ends.next {p : Phase} (he : Ends cfg s h req p as) (hp : ∀ resp, p ≠ .done resp) :
    ∃ a as' s₁, as = a :: as' ∧ s.act cfg h ⟨req, p⟩ a = some s₁ ∧
      ∀ q, s₁.handlers h = some ⟨req, q⟩ → Ends cfg s₁ h req q as' := by
  obtain ⟨hh, s', resp, he, hd⟩ := he
  cases as with
  | nil =>
    obtain rfl := Option.some.inj he
    exact absurd (congrArg Handler.phase (Option.some.inj (hh.symm.trans hd))) (hp resp)
  | cons a as =>
    rw [exec_acts _ hh, Option.bind_eq_some_iff] at he
    obtain ⟨s₁, hs, he⟩ := he
    exact ⟨a, as, s₁, rfl, hs, fun q hq => ⟨hq, s', resp, he, hd⟩⟩

theorem Ends.done (he : Ends cfg s h req (.done resp) as) : as = [] := by
  obtain ⟨hh, s', resp, he, -⟩ := he
  exact exec_done hh he

theorem Ends.leaving (he : Ends cfg s h req (.leaving resp) as) : as = [.release] := by
  obtain ⟨a, as, s₁, rfl, hs, he⟩ := he.next nofun
  cases act_spec hs with
  | release resp' hp => rw [(he _ (Function.update_self ..)).done]
  | _ => simp_all

variable {old : Option Reservation} {res : Reservation}

theorem Ends.replicated (he : Ends cfg s h req (.replicated old res) as) :
    as = [.store, .release] := by
  obtain ⟨a, as, s₁, rfl, hs, he⟩ := he.next nofun
  cases act_spec hs with
  | store => rw [(he _ (Function.update_self ..)).leaving]
  | _ => simp_all

theorem Ends.replicating (he : Ends cfg s h req (.replicating old res) as) :
    as = [.returned .acked, .store, .release] ∨ ∃ o, o ≠ .acked ∧ as = [.returned o, .release] := by
  obtain ⟨a, as, s₁, rfl, hs, he⟩ := he.next nofun
  cases act_spec hs with
  | acked => exact .inl (by rw [(he _ (Function.update_self ..)).replicated])
  | refused o resp old res hp ho =>
    exact .inr ⟨o, ho, by rw [(he _ (Function.update_self ..)).leaving]⟩
  | _ => simp_all

theorem Ends.stamped (he : Ends cfg s h req (.stamped old res) as) :
    s.replicates = false ∧ as = [.skipReplication, .store, .release] ∨
      s.replicates = true ∧ (as = [.send, .returned .acked, .store, .release] ∨
        ∃ o, o ≠ .acked ∧ as = [.send, .returned o, .release]) := by
  obtain ⟨a, as, s₁, rfl, hs, he⟩ := he.next nofun
  cases act_spec hs with
  | skip old res hp hr => exact .inl ⟨hr, by rw [(he _ (Function.update_self ..)).replicated]⟩
  | send old res hp hr =>
    refine .inr ⟨hr, ?_⟩
    rcases (he _ (Function.update_self ..)).replicating with rfl | ⟨o, ho, rfl⟩
    · exact .inl rfl
    · exact .inr ⟨o, ho, rfl⟩
  | _ => simp_all

section
variable (hc : req.IsClient)
include hc

theorem Ends.checked (he : Ends cfg s h req (.checked old) as) : ∃ now res as',
    req.record cfg now (nextLamport s.logicalClock) old = some res ∧ as = .stamp now :: as' ∧
      (s.replicates = false ∧ as' = [.skipReplication, .store, .release] ∨
        s.replicates = true ∧ (as' = [.send, .returned .acked, .store, .release] ∨
          ∃ o, o ≠ .acked ∧ as' = [.send, .returned o, .release])) := by
  obtain ⟨a, as, s₁, rfl, hs, he⟩ := he.next nofun
  have hstamp : ∃ now, a = .stamp now := by
    cases act_spec hs with
    | stamp now => exact ⟨now, rfl⟩
    | _ => simp_all
  obtain ⟨now, rfl⟩ := hstamp
  rw [act_stamp hc, Option.map_eq_some_iff] at hs
  obtain ⟨res, hres, rfl⟩ := hs
  exact ⟨now, res, as, hres, rfl, (he _ (Function.update_self ..)).stamped⟩

theorem Ends.locked (he : Ends cfg s h req .locked as) :
    ¬ req.op.Expects (s.reservations.get? (req.key cfg)) ∧ as = [.check, .release] ∨
      req.op.Expects (s.reservations.get? (req.key cfg)) ∧ ∃ now res as',
        req.record cfg now (nextLamport s.logicalClock) (s.reservations.get? (req.key cfg)) =
            some res ∧ as = .check :: .stamp now :: as' ∧
          (s.replicates = false ∧ as' = [.skipReplication, .store, .release] ∨
            s.replicates = true ∧ (as' = [.send, .returned .acked, .store, .release] ∨
              ∃ o, o ≠ .acked ∧ as' = [.send, .returned o, .release])) := by
  obtain ⟨a, as, s₁, rfl, hs, he⟩ := he.next nofun
  have hcheck : a = .check := by
    cases act_spec hs with
    | checkFails => rfl
    | checkPasses => rfl
    | advance msg hreq =>
      subst hreq
      exact hc.elim
    | _ => simp_all
  subst hcheck
  rw [act_check hc] at hs
  split_ifs at hs with hyes <;> obtain rfl := Option.some.inj hs
  · obtain ⟨now, res, as, hres, rfl, hrest⟩ := (he _ (Function.update_self ..)).checked hc
    exact .inr ⟨hyes, now, res, as, hres, rfl, hrest⟩
  · exact .inl ⟨hyes, by rw [(he _ (Function.update_self ..)).leaving]⟩

/-- The steps of a handler from start to end are those of one of the courses. -/
theorem Serves.course (hs : Serves cfg s h req as s' resp) :
    s.handlers h = none ∧ ∃ es d resp', Course cfg s h req as es d resp' := by
  obtain ⟨he, hd⟩ := hs
  simp only [exec, Option.bind_eq_some_iff] at he
  obtain ⟨s₀, hs₀, he⟩ := he
  cases step_spec hs₀ with
  | refuse h req resp hnew hpre =>
    obtain rfl := exec_done (Function.update_self ..) he
    exact ⟨hnew, _, _, _, .refused resp hpre⟩
  | receive h req hnew hpre =>
    refine ⟨hnew, ?_⟩
    have hends : Ends cfg _ h req .received as := ⟨Function.update_self .., s', resp, he, hd⟩
    obtain ⟨a, as, s₁, rfl, hs, hnext⟩ := hends.next (by simp)
    cases act_spec hs with
    | lockTimeout resp =>
      rw [(hnext _ (Function.update_self ..)).done]
      exact ⟨_, _, _, .timedOut hpre⟩
    | acquire hp hfree =>
      rcases (hnext _ (Function.update_self ..)).locked hc with
        ⟨hno, rfl⟩ | ⟨hyes, now, res, as, hres, rfl, hrest⟩
      · exact ⟨_, _, _, .conflict hpre hfree hno⟩
      · rcases hrest with ⟨hrep, rfl⟩ | ⟨hrep, rfl | ⟨o, ho, rfl⟩⟩
        · exact ⟨_, _, _, .unreplicated now _ res hpre hfree rfl hyes hres hrep⟩
        · exact ⟨_, _, _, .replicated now _ res hpre hfree rfl hyes hres hrep⟩
        · exact ⟨_, _, _, .failed now o _ res hpre hfree rfl hyes hres hrep ho⟩
    | _ => simp_all

end

/-! ## What is left at the end -/

/-- The state while the handler, in phase `p`, holds its lock. -/
def during (s : Node) (h : Thread) (req : Request) (p : Phase) (d : Data)
    (es : List Entry) : Node :=
  { s with
    reservations := d.reservations
    logicalClock := d.logicalClock
    tableLocks := Function.update s.tableLocks req.table (some h)
    handlers := Function.update s.handlers h (some ⟨req, p⟩)
    log := s.log ++ es }

section
variable {p q : Phase} {es es' : List Entry} {d : Data}

@[simp]
theorem during_reservations : (s.during h req p d es).reservations = d.reservations := rfl
@[simp]
theorem during_logicalClock : (s.during h req p d es).logicalClock = d.logicalClock := rfl
@[simp]
theorem during_replicates : (s.during h req p d es).replicates = s.replicates := rfl

theorem during_handlers : (s.during h req p d es).handlers h = some ⟨req, p⟩ :=
  Function.update_self ..

theorem during_moveTo : (s.during h req p d es).moveTo h ⟨req, p⟩ q es' =
    s.during h req q d (es ++ es') := by
  simp [during, moveTo]

theorem during_stamp (k : Key) : (s.during h req p d es).stamp h ⟨req, p⟩ k old res =
    s.during h req (.stamped old res) ⟨d.reservations, nextLamport d.logicalClock⟩
      (es ++ [.stamped h k old res]) := by
  simp [during, stamp, moveTo]

theorem during_store (op : Op) (k : Key) : (s.during h req p d es).store h ⟨req, p⟩ op k res resp =
    s.during h req (.leaving resp) ⟨op.write d.reservations k res, d.logicalClock⟩
      (es ++ [.changed h op k (d.reservations.get? k) res]) := by
  simp [during, store, moveTo]

theorem during_release (hfree : s.tableLocks req.table = none) :
    (s.during h req p d es).release h ⟨req, p⟩ resp =
      s.after h req resp d (es ++ [.answered h resp]) := by
  simp [during, release, moveTo, after, ← hfree]

theorem exec_receive (hnew : s.handlers h = none) (hpre : cfg.precheck req = none) :
    exec (step cfg) s (.receive h req :: acts h as) =
      exec (step cfg) (s.moveTo h ⟨req, .received⟩ .received [.received h req]) (acts h as) := by
  simp [exec, step, receive, hnew, hpre]

theorem exec_leaving (hfree : s.tableLocks req.table = none) :
    exec (step cfg) (s.during h req (.leaving resp) d es) (acts h [.release]) =
      some (s.after h req resp d (es ++ [.answered h resp])) := by
  rw [exec_acts _ during_handlers, act_release, Option.bind_some, during_release hfree]
  rfl

theorem exec_locked (hnew : s.handlers h = none) (hpre : cfg.precheck req = none)
    (hfree : s.tableLocks req.table = none) :
    exec (step cfg) s (.receive h req :: acts h (.acquire :: as)) =
      exec (step cfg)
        (s.during h req .locked s.data [.received h req, .acquired h req.table]) (acts h as) := by
  have hacquire : (s.moveTo h ⟨req, .received⟩ .received [.received h req]).acquire h
      ⟨req, .received⟩ =
        some (s.during h req .locked s.data [.received h req, .acquired h req.table]) := by
    simp [acquire, during, moveTo, data, hfree]
  rw [exec_receive hnew hpre, exec_acts _ (Function.update_self ..), act_acquire, hacquire,
    Option.bind_some]

variable (hc : req.IsClient)
include hc

theorem exec_store (hfree : s.tableLocks req.table = none) :
    exec (step cfg) (s.during h req (.replicated old res) d es) (acts h [.store, .release]) =
      some (s.after h req (req.confirmation res)
        ⟨req.op.write d.reservations (req.key cfg) res, d.logicalClock⟩
        (es ++ [.changed h req.op (req.key cfg) (d.reservations.get? (req.key cfg)) res,
          .answered h (req.confirmation res)])) := by
  rw [exec_acts _ during_handlers, act_store hc, Option.bind_some, during_store,
    exec_leaving hfree, List.append_assoc]
  rfl

theorem exec_stamped (hnew : s.handlers h = none) (hpre : cfg.precheck req = none)
    (hfree : s.tableLocks req.table = none)
    (hyes : req.op.Expects (s.reservations.get? (req.key cfg))) {now : Nat}
    (hres : req.record cfg now (nextLamport s.logicalClock) (s.reservations.get? (req.key cfg)) =
      some res) :
    exec (step cfg) s (.receive h req :: acts h (.acquire :: .check :: .stamp now :: as)) =
      exec (step cfg)
        (s.during h req (.stamped (s.reservations.get? (req.key cfg)) res)
          ⟨s.reservations, nextLamport s.logicalClock⟩
          [.received h req, .acquired h req.table,
            .stamped h (req.key cfg) (s.reservations.get? (req.key cfg)) res]) (acts h as) := by
  rw [exec_locked hnew hpre hfree, exec_acts _ during_handlers, act_check hc, Option.bind_some,
    during_moveTo, during_reservations, data, if_pos hyes, exec_acts _ during_handlers,
    act_stamp hc, during_logicalClock, hres, Option.map_some, Option.bind_some, during_stamp]
  rfl

theorem exec_send (hrep : s.replicates = true) :
    exec (step cfg) (s.during h req (.stamped old res) d es) (acts h (.send :: as)) =
      exec (step cfg) (s.during h req (.replicating old res) d
        (es ++ [.sent h ⟨req.op, keyToList (req.key cfg), res⟩])) (acts h as) := by
  rw [exec_acts _ during_handlers, act_replicate hc (.inl rfl), replicate,
    if_pos (by simp [hrep]), Option.bind_some, during_moveTo]

theorem Course.exec_eq (hnew : s.handlers h = none) (hcourse : Course cfg s h req as es d resp) :
    exec (step cfg) s (.receive h req :: acts h as) = some (s.after h req resp d es) := by
  cases hcourse with
  | refused resp hpre => simp [exec, step, receive, hnew, hpre, acts, after, moveTo, data]
  | timedOut hpre =>
    rw [exec_receive hnew hpre, exec_acts _ (Function.update_self ..), act_lockTimeout hc]
    simp [acts, exec, turnDown, moveTo, after, data]
  | conflict hpre hfree hno =>
    rw [exec_locked hnew hpre hfree, exec_acts _ during_handlers, act_check hc,
      Option.bind_some, during_moveTo, during_reservations, data, if_neg hno,
      exec_leaving hfree]
    rfl
  | unreplicated now old res hpre hfree hold hyes hres hrep =>
    subst hold
    rw [exec_stamped hc hnew hpre hfree hyes hres, exec_acts _ during_handlers,
      act_replicate hc (.inl rfl), replicate, if_neg (by simp [hrep]), Option.bind_some,
      during_moveTo, exec_store hc hfree]
    rfl
  | replicated now old res hpre hfree hold hyes hres hrep =>
    subst hold
    rw [exec_stamped hc hnew hpre hfree hyes hres, exec_send hc hrep, exec_acts _ during_handlers,
      act_replicate hc (.inr rfl), replicate, Option.bind_some, during_moveTo, exec_store hc hfree]
    rfl
  | failed now o old res hpre hfree hold hyes hres hrep ho =>
    subst hold
    rw [exec_stamped hc hnew hpre hfree hyes hres, exec_send hc hrep, exec_acts _ during_handlers,
      act_replicate hc (.inr rfl)]
    cases o with
    | acked => exact absurd rfl ho
    | _ =>
      rw [replicate, Option.bind_some, during_moveTo, exec_leaving hfree]
      rfl

/-- A handler that runs without a break goes through one of the courses. -/
theorem serves_iff : Serves cfg s h req as s' resp ↔
    s.handlers h = none ∧ ∃ es d, Course cfg s h req as es d resp ∧
      s' = s.after h req resp d es := by
  constructor
  · rintro hs
    obtain ⟨hnew, es, d, resp', hcourse⟩ := hs.course hc
    obtain ⟨he, hd⟩ := hs
    obtain rfl := Option.some.inj (he.symm.trans (hcourse.exec_eq hc hnew))
    have hresp : resp' = resp := by
      simpa using (Function.update_self h _ s.handlers).symm.trans hd
    subst hresp
    exact ⟨hnew, es, d, hcourse, rfl⟩
  · rintro ⟨hnew, es, d, hcourse, rfl⟩
    exact ⟨hcourse.exec_eq hc hnew, Function.update_self ..⟩

end

/-! ## Attempts and answers -/

/-- The handler has called `replicate`. -/
def attempts (as : List Action) : Bool :=
  as.any fun
    | .send => true
    | _ => false

theorem conflict_status (cfg : Service) (req : Request) : (req.conflict cfg).status = .error := by
  cases req <;> rfl

theorem confirmation_status (req : Request) (res : Reservation) :
    (req.confirmation res).status = .ok := by
  cases req <;> rfl

/-! ## A handler that gets its lock at once -/

/-- Its steps, when `replicate` ends with `o`. -/
def script (cfg : Service) (s : Node) (req : Request) (now : Nat) (o : Outcome) : List Action :=
  if (cfg.precheck req).isSome then []
  else if req.op.Expects (s.reservations.get? (req.key cfg)) then
    .acquire :: .check :: .stamp now ::
      if s.replicates then
        match o with
        | .acked => [.send, .returned .acked, .store, .release]
        | o => [.send, .returned o, .release]
      else [.skipReplication, .store, .release]
  else [.acquire, .check, .release]

theorem record_of_expects (hc : req.IsClient) (hyes : req.op.Expects old) (now ts : Nat) :
    ∃ res, req.record cfg now ts old = some res := by
  cases req with
  | book msg => exact ⟨_, rfl⟩
  | cancel msg =>
    obtain ⟨r, rfl⟩ := Option.ne_none_iff_exists'.mp hyes
    exact ⟨_, rfl⟩
  | applyReplication msg => exact hc.elim

/-- What a request leaves of the data, and its answer, when its handler gets its lock at once
and nothing goes wrong with the replication. -/
def settle (cfg : Service) (req : Request) (now : Nat) (d : Data) : Data × Response :=
  let old := d.reservations.get? (req.key cfg)
  let ts := nextLamport d.logicalClock
  match cfg.precheck req, (if req.op.Expects old then req.record cfg now ts old else none) with
  | some resp, _ => (d, resp)
  | none, none => (d, req.conflict cfg)
  | none, some res => (⟨req.op.write d.reservations (req.key cfg) res, ts⟩, req.confirmation res)

section
variable {d : Data} {now : Nat}

theorem settle_refused (hpre : cfg.precheck req = some resp) :
    settle cfg req now d = (d, resp) := by
  simp only [settle, hpre]

theorem settle_conflict (hpre : cfg.precheck req = none)
    (hno : ¬ req.op.Expects (d.reservations.get? (req.key cfg))) :
    settle cfg req now d = (d, req.conflict cfg) := by
  simp only [settle, hpre, if_neg hno]

theorem settle_written (hpre : cfg.precheck req = none)
    (hyes : req.op.Expects (d.reservations.get? (req.key cfg)))
    (hres : req.record cfg now (nextLamport d.logicalClock) (d.reservations.get? (req.key cfg)) =
      some res) :
    settle cfg req now d =
      (⟨req.op.write d.reservations (req.key cfg) res, nextLamport d.logicalClock⟩,
        req.confirmation res) := by
  simp only [settle, hpre, if_pos hyes, hres]

end

theorem course_settle (hc : req.IsClient) (hfree : s.tableLocks req.table = none) (now : Nat) :
    ∃ es, Course cfg s h req (s.script cfg req now .acked) es (settle cfg req now s.data).1
      (settle cfg req now s.data).2 := by
  unfold script
  cases hpre : cfg.precheck req with
  | some resp =>
    rw [settle_refused hpre]
    exact ⟨_, .refused resp hpre⟩
  | none =>
    rw [if_neg (by simp)]
    by_cases hyes : req.op.Expects (s.reservations.get? (req.key cfg))
    · obtain ⟨res, hres⟩ : ∃ res, req.record cfg now (nextLamport s.logicalClock)
          (s.reservations.get? (req.key cfg)) = some res := record_of_expects hc hyes ..
      rw [settle_written (d := s.data) hpre hyes hres, if_pos hyes]
      split_ifs with hrep
      · exact ⟨_, .replicated now _ res hpre hfree rfl hyes hres hrep⟩
      · exact ⟨_, .unreplicated now _ res hpre hfree rfl hyes hres (by simpa using hrep)⟩
    · rw [settle_conflict (d := s.data) hpre hyes, if_neg hyes]
      exact ⟨_, .conflict hpre hfree hyes⟩

theorem Course.serves (hc : req.IsClient) (hnew : s.handlers h = none) {es : List Entry} {d : Data}
    (hcourse : Course cfg s h req as es d resp) :
    Serves cfg s h req as (s.after h req resp d es) resp :=
  (serves_iff hc).mpr ⟨hnew, es, d, hcourse, rfl⟩

theorem Serves.eq_after (hc : req.IsClient) (hs : Serves cfg s h req as s' resp)
    {es : List Entry} {d : Data} {resp' : Response} (hcourse : Course cfg s h req as es d resp') :
    resp = resp' ∧ s' = s.after h req resp' d es := by
  obtain ⟨hnew, -⟩ := (serves_iff hc).mp hs
  have hs' := hcourse.serves hc hnew
  obtain rfl := Option.some.inj (hs.1.symm.trans hs'.1)
  have hhd := Option.some.inj (hs.2.symm.trans hs'.2)
  exact ⟨Phase.done.inj (congrArg Handler.phase hhd), rfl⟩

end Node

end ReservationSystem
