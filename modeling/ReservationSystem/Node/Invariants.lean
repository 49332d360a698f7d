import Mathlib.Order.MinMax
import ReservationSystem.Lib.Machine
import ReservationSystem.Node.Steps

/-!
# What holds of a node in every run

Locks, the entries that handlers rely on, and the clock.
-/

namespace ReservationSystem.Node

variable {cfg : Service} {s s' : Node} {h h' : Thread} {hd hd' : Handler} {a : Action}
  {e : Event}

/-! ## What a step leaves alone -/

theorem handler_moved (s : Node) (h : Thread) {x y : Handler}
    (hh : Function.update s.handlers h (some x) h = some y) : y = x := by
  rw [Function.update_self] at hh
  exact (Option.some.inj hh).symm

theorem Acts.handlers_ne (ha : Acts cfg s h hd a s') (hne : h' ≠ h) :
    s'.handlers h' = s.handlers h' := by
  cases ha <;> exact Function.update_of_ne hne _ _

theorem Acts.handlers_self (ha : Acts cfg s h hd a s') :
    ∃ p, s'.handlers h = some { hd with phase := p } := by
  cases ha <;> exact ⟨_, Function.update_self ..⟩

theorem Acts.written_after (ha : Acts cfg s h hd a s') (hh' : s'.handlers h = some hd')
    (hp : hd.phase.Written) : hd'.phase.Written := by
  cases ha <;> obtain rfl := handler_moved s h hh' <;> simp_all

theorem Acts.logicalClock_le (ha : Acts cfg s h hd a s') : s.logicalClock ≤ s'.logicalClock := by
  cases ha with
  | stamp => exact Nat.le_succ _
  | advance => simp [advanceLamportFromPeer]; omega
  | _ => exact Nat.le_refl _

/-- A step writes at most the entry of the handler's own key, and only under its lock. -/
theorem Acts.reservations_ne (ha : Acts cfg s h hd a s') {k : Key}
    (hk : k = hd.request.key cfg → ¬ hd.phase.HoldsLock) :
    s'.reservations.get? k = s.reservations.get? k := by
  have hne (hl : hd.phase.HoldsLock) : k ≠ hd.request.key cfg := fun heq => hk heq hl
  cases ha with
  | store old res resp hc hp => exact (get?_write ..).trans (if_neg (hne (by rw [hp]; trivial)))
  | apply msg resp hreq hp => exact (get?_write ..).trans (if_neg (hne (by rw [hp]; trivial)))
  | _ => rfl

theorem Acts.tableLocks_other (ha : Acts cfg s h hd a s') {t : TableId}
    (hown : hd.phase.HoldsLock → s.tableLocks hd.request.table = some h)
    (hne : h' ≠ h) (ht : s.tableLocks t = some h') : s'.tableLocks t = some h' := by
  cases ha with
  | acquire hp hfree =>
    have htt : t ≠ hd.request.table := by
      rintro rfl
      rw [ht] at hfree
      simp at hfree
    exact (Function.update_of_ne htt _ _).trans ht
  | release resp hp =>
    have htt : t ≠ hd.request.table := by
      rintro rfl
      have := hown (by rw [hp]; trivial)
      rw [ht] at this
      exact hne (Option.some.inj this)
    exact (Function.update_of_ne htt _ _).trans ht
  | _ => exact ht

theorem Steps.logicalClock_le (hs : Steps cfg s e s') : s.logicalClock ≤ s'.logicalClock := by
  cases hs with
  | act h hd a s' hh ha => exact ha.logicalClock_le
  | promote => unfold promoteToPrimary; split <;> exact Nat.le_refl _
  | _ => exact Nat.le_refl _

theorem promote_handlers (cfg : Service) (s : Node) :
    (s.promoteToPrimary cfg).handlers = s.handlers := by
  unfold promoteToPrimary; split <;> rfl

theorem promote_tableLocks (cfg : Service) (s : Node) :
    (s.promoteToPrimary cfg).tableLocks = s.tableLocks := by
  unfold promoteToPrimary; split <;> rfl

theorem promote_reservations (cfg : Service) (s : Node) :
    (s.promoteToPrimary cfg).reservations = s.reservations := by
  unfold promoteToPrimary; split <;> rfl

theorem promote_logicalClock (cfg : Service) (s : Node) :
    (s.promoteToPrimary cfg).logicalClock = s.logicalClock := by
  unfold promoteToPrimary; split <;> rfl

theorem promote_log (cfg : Service) (s : Node) : (s.promoteToPrimary cfg).log = s.log := by
  unfold promoteToPrimary; split <;> rfl

/-- Where a handler comes from. -/
theorem Steps.handler (hs : Steps cfg s e s') (hh' : s'.handlers h = some hd') :
    s.handlers h = some hd' ∨
      (s.handlers h = none ∧ e = .receive h hd'.request ∧
        (cfg.precheck hd'.request = none ∧ hd'.phase = .received ∨
          ∃ resp, hd'.phase = .done resp ∧ resp.status = .error)) ∨
      ∃ hd a p, e = .act h a ∧ s.handlers h = some hd ∧ Acts cfg s h hd a s' ∧
        hd' = { hd with phase := p } := by
  cases hs with
  | receive h' req hnew hadm =>
    by_cases hne : h = h'
    · subst hne
      obtain rfl := handler_moved s h hh'
      exact .inr (.inl ⟨hnew, rfl, .inl ⟨hadm, rfl⟩⟩)
    · exact .inl ((Function.update_of_ne hne _ _).symm.trans hh')
  | refuse h' req resp hnew hadm herr =>
    by_cases hne : h = h'
    · subst hne
      obtain rfl := handler_moved s h hh'
      exact .inr (.inl ⟨hnew, rfl, .inr ⟨resp, rfl, herr⟩⟩)
    · exact .inl ((Function.update_of_ne hne _ _).symm.trans hh')
  | act h' hd a s' hh ha =>
    by_cases hne : h = h'
    · subst hne
      obtain ⟨p, hp⟩ := ha.handlers_self
      exact .inr (.inr ⟨hd, a, p, rfl, hh, ha, Option.some.inj (hh'.symm.trans hp)⟩)
    · exact .inl ((ha.handlers_ne hne).symm.trans hh')
  | promote => exact .inl (by rwa [promote_handlers] at hh')

/-- Where a handler comes from that is not new. -/
theorem Steps.handler_earned {P : Phase → Prop} (hP : Phase.Earned P) (hs : Steps cfg s e s')
    (hh' : s'.handlers h = some hd') (hp : P hd'.phase) :
    s.handlers h = some hd' ∨
      ∃ hd a p, e = .act h a ∧ s.handlers h = some hd ∧ Acts cfg s h hd a s' ∧
        hd' = { hd with phase := p } := by
  rcases hs.handler hh' with hh | ⟨-, -, ⟨-, hnew⟩ | ⟨resp, hnew, herr⟩⟩ | hact
  · exact .inl hh
  · exact absurd (hnew ▸ hp) hP.received
  · exact absurd (hnew ▸ hp) (hP.turnedDown resp herr)
  · exact .inr hact

/-- Where a handler goes to. -/
theorem Steps.handler_next (hs : Steps cfg s e s') (hh : s.handlers h = some hd) :
    s'.handlers h = some hd ∨
      ∃ a p, e = .act h a ∧ Acts cfg s h hd a s' ∧ s'.handlers h = some { hd with phase := p } := by
  cases hs with
  | receive h' req hnew | refuse h' req resp hnew =>
    have hne : h ≠ h' := by
      rintro rfl
      simp [hh] at hnew
    exact .inl ((Function.update_of_ne hne _ _).trans hh)
  | act h' hd' a s' hh' ha =>
    by_cases hne : h = h'
    · subst hne
      obtain rfl := Option.some.inj (hh.symm.trans hh')
      obtain ⟨p, hp⟩ := ha.handlers_self
      exact .inr ⟨a, p, rfl, ha, hp⟩
    · exact .inl ((ha.handlers_ne hne).trans hh)
  | promote => exact .inl (by rwa [promote_handlers])

/-! ## The invariant -/

structure Wf (cfg : Service) (s : Node) : Prop where
  /-- A handler past `lock.acquire` owns the lock of its table. -/
  holds : ∀ h hd, s.handlers h = some hd → hd.phase.HoldsLock →
    s.tableLocks hd.request.table = some h
  /-- What a handler found under its key is still there. -/
  seen : ∀ h hd old, s.handlers h = some hd → hd.phase.old? = some old →
    s.reservations.get? (hd.request.key cfg) = old
  /-- Only clients' requests look before they write, and they found what they wanted. -/
  expects : ∀ h hd old, s.handlers h = some hd → hd.phase.old? = some old →
    hd.request.IsClient ∧ hd.request.op.Expects old
  /-- No time that was given out is ahead of the clock. -/
  stored : ∀ k res, s.reservations.get? k = some res → res.lamportTs ≤ s.logicalClock
  fresh : ∀ h hd res, s.handlers h = some hd → hd.phase.res? = some res →
    res.lamportTs ≤ s.logicalClock
  /-- The clock is past the time of a replicated record before the record is stored. -/
  ahead : ∀ h hd msg, s.handlers h = some hd → hd.request = .applyReplication msg →
    hd.phase = .advanced → msg.reservation.lamportTs < s.logicalClock

theorem wf_start (cfg : Service) (backUp : Bool) : Wf cfg (start cfg backUp) where
  holds _ _ hh := by simp [start] at hh
  seen _ _ _ hh := by simp [start] at hh
  expects _ _ _ hh := by simp [start] at hh
  stored _ _ hk := by simp [start] at hk
  fresh _ _ _ hh := by simp [start] at hh
  ahead _ _ _ hh := by simp [start] at hh

theorem Wf.thread_eq (hw : Wf cfg s) (hh : s.handlers h = some hd)
    (hh' : s.handlers h' = some hd') (hl : hd.phase.HoldsLock) (hl' : hd'.phase.HoldsLock)
    (ht : hd.request.table = hd'.request.table) : h = h' := by
  have h1 := hw.holds h hd hh hl
  have h2 := hw.holds h' hd' hh' hl'
  rw [ht, h2] at h1
  exact (Option.some.inj h1).symm

/-- A handler's key is not touched by another thread while the handler holds its lock. -/
theorem Wf.reservations_other (hw : Wf cfg s) (hh : s.handlers h = some hd)
    (ha : Acts cfg s h hd a s') (hh' : s.handlers h' = some hd') (hne : h' ≠ h)
    (hl' : hd'.phase.HoldsLock) :
    s'.reservations.get? (hd'.request.key cfg) = s.reservations.get? (hd'.request.key cfg) := by
  refine ha.reservations_ne fun hk hl => hne (hw.thread_eq hh' hh hl' hl ?_)
  rw [← key_table cfg, ← key_table cfg, hk]

end ReservationSystem.Node

namespace ReservationSystem

theorem Phase.holdsLock_of_old? {p : Phase} {old : Option Reservation} (hp : p.old? = some old) :
    p.HoldsLock := by
  cases p <;> simp at hp ⊢

end ReservationSystem

namespace ReservationSystem.Node

variable {cfg : Service} {s s' : Node} {h h' : Thread} {hd hd' : Handler} {a : Action}
  {e : Event}

/-! ## One step of a handler keeps it -/

theorem Acts.holds (hw : Wf cfg s) (hh : s.handlers h = some hd) (ha : Acts cfg s h hd a s')
    (hh' : s'.handlers h' = some hd') (hl : hd'.phase.HoldsLock) :
    s'.tableLocks hd'.request.table = some h' := by
  by_cases hne : h' = h
  · subst hne
    have hown := hw.holds h' hd hh
    cases ha with
    | acquire =>
      obtain rfl := handler_moved s h' hh'
      exact Function.update_self ..
    | lockTimeout | release =>
      obtain rfl := handler_moved s h' hh'
      exact absurd hl id
    | _ =>
      obtain rfl := handler_moved s h' hh'
      exact hown (by simp [*])
  · rw [ha.handlers_ne hne] at hh'
    exact ha.tableLocks_other (hw.holds h hd hh) hne (hw.holds h' hd' hh' hl)

theorem Acts.seen (hw : Wf cfg s) (hh : s.handlers h = some hd) (ha : Acts cfg s h hd a s')
    {old : Option Reservation} (hh' : s'.handlers h' = some hd')
    (hold : hd'.phase.old? = some old) :
    s'.reservations.get? (hd'.request.key cfg) = old := by
  by_cases hne : h' = h
  · subst hne
    have hseen := hw.seen h' hd old hh
    cases ha with
    | checkPasses _ _ hp hk =>
      obtain rfl := handler_moved s h' hh'
      obtain rfl := Option.some.inj hold
      exact hk
    | stamp _ _ _ hp | skip _ _ hp | send _ _ hp | acked _ _ hp =>
      obtain rfl := handler_moved s h' hh'
      exact hseen (by rw [hp]; exact hold)
    | _ =>
      obtain rfl := handler_moved s h' hh'
      exact absurd hold nofun
  · rw [ha.handlers_ne hne] at hh'
    rw [hw.reservations_other hh ha hh' hne (Phase.holdsLock_of_old? hold)]
    exact hw.seen h' hd' old hh' hold

theorem Acts.expects (hw : Wf cfg s) (hh : s.handlers h = some hd) (ha : Acts cfg s h hd a s')
    {old : Option Reservation} (hh' : s'.handlers h' = some hd')
    (hold : hd'.phase.old? = some old) :
    hd'.request.IsClient ∧ hd'.request.op.Expects old := by
  by_cases hne : h' = h
  · subst hne
    have hexp := hw.expects h' hd old hh
    cases ha with
    | checkPasses _ hc hp hk ho =>
      obtain rfl := handler_moved s h' hh'
      obtain rfl := Option.some.inj hold
      exact ⟨hc, ho⟩
    | stamp _ _ _ hp | skip _ _ hp | send _ _ hp | acked _ _ hp =>
      obtain rfl := handler_moved s h' hh'
      exact hexp (by rw [hp]; exact hold)
    | _ =>
      obtain rfl := handler_moved s h' hh'
      exact absurd hold nofun
  · rw [ha.handlers_ne hne] at hh'
    exact hw.expects h' hd' old hh' hold

theorem Acts.fresh (hw : Wf cfg s) (hh : s.handlers h = some hd) (ha : Acts cfg s h hd a s')
    {res : Reservation} (hh' : s'.handlers h' = some hd') (hres : hd'.phase.res? = some res) :
    res.lamportTs ≤ s'.logicalClock := by
  by_cases hne : h' = h
  · subst hne
    have hfresh := hw.fresh h' hd res hh
    cases ha with
    | stamp _ _ _ hp hts =>
      obtain rfl := handler_moved s h' hh'
      obtain rfl := Option.some.inj hres
      exact hts.le
    | skip _ _ hp | send _ _ hp | acked _ _ hp =>
      obtain rfl := handler_moved s h' hh'
      exact hfresh (by rw [hp]; exact hres)
    | _ =>
      obtain rfl := handler_moved s h' hh'
      exact absurd hres nofun
  · rw [ha.handlers_ne hne] at hh'
    exact (hw.fresh h' hd' res hh' hres).trans ha.logicalClock_le

theorem Acts.ahead (hw : Wf cfg s) (ha : Acts cfg s h hd a s')
    {msg : ReplicationMsg} (hh' : s'.handlers h' = some hd')
    (hreq : hd'.request = .applyReplication msg) (hp' : hd'.phase = .advanced) :
    msg.reservation.lamportTs < s'.logicalClock := by
  by_cases hne : h' = h
  · subst hne
    cases ha with
    | advance msg' hreq' =>
      obtain rfl := handler_moved s h' hh'
      obtain rfl : msg' = msg := by simpa [hreq'] using hreq
      exact Nat.lt_succ_of_le (le_max_right _ _)
    | _ =>
      obtain rfl := handler_moved s h' hh'
      exact absurd hp' nofun
  · rw [ha.handlers_ne hne] at hh'
    exact (hw.ahead h' hd' msg hh' hreq hp').trans_le ha.logicalClock_le

theorem Acts.stored (hw : Wf cfg s) (hh : s.handlers h = some hd) (ha : Acts cfg s h hd a s')
    {k : Key} {res : Reservation} (hk : s'.reservations.get? k = some res) :
    res.lamportTs ≤ s'.logicalClock := by
  -- Only a write can bring in a record, and the record it brings in has passed the clock.
  have hwrite {op : Op} {new : Reservation} (hle : new.lamportTs ≤ s.logicalClock)
      (hget : (op.write s.reservations (hd.request.key cfg) new).get? k = some res) :
      res.lamportTs ≤ s.logicalClock := by
    rw [get?_write] at hget
    split_ifs at hget
    · cases op with
      | book =>
        obtain rfl := Option.some.inj hget
        exact hle
      | cancel => simp [Op.effect] at hget
    · exact hw.stored k res hget
  cases ha with
  | store old new resp hc hp => exact hwrite (hw.fresh h hd new hh (by rw [hp]; rfl)) hk
  | apply msg resp hreq hp => exact hwrite (hw.ahead h hd msg hh hreq hp).le hk
  | advance msg hreq hp =>
    exact (hw.stored k res hk).trans (Nat.le_succ_of_le (le_max_left _ _))
  | stamp => exact (hw.stored k res hk).trans (Nat.le_succ _)
  | _ => exact hw.stored k res hk

/-! ## One step of the node keeps it -/

/-- A thread that starts has taken nothing yet. -/
theorem wf_moveTo_new (hw : Wf cfg s) (req : Request) {p : Phase} (es : List Entry)
    (hl : ¬ p.HoldsLock) (hres : p.res? = none) : Wf cfg (s.moveTo h ⟨req, .received⟩ p es) := by
  have hold (old) : p.old? ≠ some old := fun ho => hl (Phase.holdsLock_of_old? ho)
  have hadv : p ≠ .advanced := by rintro rfl; exact hl trivial
  -- Every other thread is as it was.
  have hcases {h' hd'} (hh' : (s.moveTo h ⟨req, .received⟩ p es).handlers h' = some hd') :
      s.handlers h' = some hd' ∨ hd' = ⟨req, p⟩ := by
    by_cases hne : h' = h
    · subst hne
      exact .inr (handler_moved s h' hh')
    · exact .inl ((Function.update_of_ne hne _ _).symm.trans hh')
  constructor
  · intro h' hd' hh' hl'
    rcases hcases hh' with hh' | rfl
    · exact hw.holds h' hd' hh' hl'
    · exact absurd hl' hl
  · intro h' hd' old hh' ho
    rcases hcases hh' with hh' | rfl
    · exact hw.seen h' hd' old hh' ho
    · exact absurd ho (hold old)
  · intro h' hd' old hh' ho
    rcases hcases hh' with hh' | rfl
    · exact hw.expects h' hd' old hh' ho
    · exact absurd ho (hold old)
  · exact hw.stored
  · intro h' hd' res hh' hr
    rcases hcases hh' with hh' | rfl
    · exact hw.fresh h' hd' res hh' hr
    · rw [hres] at hr
      simp at hr
  · intro h' hd' msg hh' hreq hp'
    rcases hcases hh' with hh' | rfl
    · exact hw.ahead h' hd' msg hh' hreq hp'
    · exact absurd hp' hadv

theorem wf_step (hw : Wf cfg s) (hs : Steps cfg s e s') : Wf cfg s' := by
  cases hs with
  | receive h req => exact wf_moveTo_new hw req _ id rfl
  | refuse h req resp => exact wf_moveTo_new hw req _ id rfl
  | act h hd a s' hh ha =>
    exact
      { holds := fun _ _ hh' => ha.holds hw hh hh'
        seen := fun _ _ _ hh' => ha.seen hw hh hh'
        expects := fun _ _ _ hh' => ha.expects hw hh hh'
        stored := fun _ _ => ha.stored hw hh
        fresh := fun _ _ _ hh' => ha.fresh hw hh hh'
        ahead := fun _ _ _ hh' => ha.ahead hw hh' }
  | promote =>
    constructor
    · simpa only [promote_handlers, promote_tableLocks] using hw.holds
    · simpa only [promote_handlers, promote_reservations] using hw.seen
    · simpa only [promote_handlers] using hw.expects
    · simpa only [promote_reservations, promote_logicalClock] using hw.stored
    · simpa only [promote_handlers, promote_logicalClock] using hw.fresh
    · simpa only [promote_handlers, promote_logicalClock] using hw.ahead

/-- What a handler wanted to find under its key is still there. -/
theorem Wf.found (hw : Wf cfg s) {old : Option Reservation} (hh : s.handlers h = some hd)
    (hold : hd.phase.old? = some old) :
    hd.request.op.Expects (s.reservations.get? (hd.request.key cfg)) := by
  rw [hw.seen h hd old hh hold]
  exact (hw.expects h hd old hh hold).2

open Machine in
theorem wf_reach {C : Node → Event → Prop} {start : Node} (h0 : Wf cfg start)
    (hr : Reach (step cfg) C start s) : Wf cfg s :=
  hr.invariant h0 fun _ _ _ _ hw _ hs => wf_step hw (step_spec hs)

end ReservationSystem.Node
