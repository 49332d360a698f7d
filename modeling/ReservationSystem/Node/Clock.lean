import ReservationSystem.Node.Confirmed

/-!
# The clock of a node and the times that it sees

The clock is at least every time that the node has given out, and past every time that it
has received.
-/

namespace ReservationSystem

/-- The handler of a message has set the clock. -/
@[simp]
def Phase.Taken : Phase → Prop
  | .advanced => True
  | p => p.Written

/-- The handler of a client has stamped `res`, and has not failed since. -/
@[simp]
def Phase.Carries (res : Reservation) : Phase → Prop
  | .stamped _ res' | .replicating _ res' | .replicated _ res' => res' = res
  | .leaving resp | .done resp => resp.status = .ok ∧ resp.record = some res
  | _ => False

theorem Phase.Written.taken {p : Phase} (hp : p.Written) : p.Taken := by
  cases p <;> simp_all

theorem Phase.taken_earned : Earned Taken := by constructor <;> simp +contextual

theorem Phase.carries_earned (res : Reservation) : Earned (Carries res) := by
  constructor <;> simp +contextual

namespace Node

open Machine

variable {cfg : Service} {s s' : Node} {h : Thread} {hd : Handler} {a : Action} {e : Event}

/-! ## Later stamps -/

/-- What a step adds to the log is stamped later than the clock was. -/
theorem Steps.stamped_after (hs : Steps cfg s e s') {l : List Entry} (hlog : s'.log = s.log ++ l)
    {k : Key} {old : Option Reservation} {res : Reservation} (hx : .stamped h k old res ∈ l) :
    s.logicalClock < res.lamportTs := by
  cases hs with
  | receive | refuse =>
    obtain rfl := List.append_cancel_left hlog
    simp at hx
  | act h' hd a s' hh ha =>
    cases ha with
    | stamp now old res hp hts =>
      obtain rfl := List.append_cancel_left hlog
      obtain ⟨-, -, -, rfl⟩ := Entry.stamped.inj (List.mem_singleton.mp hx)
      exact hts.symm ▸ Nat.lt_succ_self _
    | _ =>
      obtain rfl := List.append_cancel_left hlog
      simp at hx
  | promote =>
    rw [promote_log, List.self_eq_append_right] at hlog
    simp [hlog] at hx

theorem stamped_after_reach {C : Node → Event → Prop} (hr : Reach (step cfg) C s s') :
    s.logicalClock ≤ s'.logicalClock ∧ ∃ l, s'.log = s.log ++ l ∧
      ∀ h k old res, .stamped h k old res ∈ l → s.logicalClock < res.lamportTs := by
  induction hr with
  | refl => exact ⟨le_rfl, [], (List.append_nil _).symm, by simp⟩
  | tail _ _ hs ih =>
    obtain ⟨hle, l, hl, hlt⟩ := ih
    obtain ⟨m, hm⟩ := (step_spec hs).log_append
    refine ⟨hle.trans (step_spec hs).logicalClock_le, l ++ m, by rw [hm, hl, List.append_assoc], ?_⟩
    intro h k old res hx
    rcases List.mem_append.mp hx with hx | hx
    · exact hlt h k old res hx
    · exact hle.trans_lt ((step_spec hs).stamped_after hm hx)

/-! ## Cancels -/

/-- What is stamped over a stored record gets a later time than the record has. -/
theorem stamped_over_reach {C : Node → Event → Prop} {backUp : Bool}
    (hr : Reach (step cfg) C (start cfg backUp) s) {k : Key} {old res : Reservation}
    (hx : .stamped h k (some old) res ∈ s.log) : old.lamportTs < res.lamportTs := by
  refine hr.invariant (P := fun s => ∀ h k old res, .stamped h k (some old) res ∈ s.log →
    old.lamportTs < res.lamportTs) ?_ (fun s e s' hr ih _ hs => ?_) h k old res hx
  · simp [start]
  · have hw := wf_reach (wf_start cfg backUp) hr
    cases step_spec hs with
    | act h' hd a s' hh ha =>
      cases ha with
      | stamp now old' res' hp hts =>
        intro h k old res hx
        rw [stamp_log, List.mem_append, List.mem_singleton] at hx
        rcases hx with hx | hx
        · exact ih h k old res hx
        · obtain ⟨-, -, rfl, rfl⟩ := Entry.stamped.inj hx
          have hseen := hw.seen h' hd _ hh (by rw [hp]; rfl)
          exact hts.symm ▸ Nat.lt_succ_of_le (hw.stored _ _ hseen)
      | _ => simpa using ih
    | promote => rwa [promote_log]
    | _ => simpa using ih

/-! ## The times of records -/

theorem Acts.carries_before (ha : Acts cfg s h hd a s') {hd' : Handler}
    (hh' : s'.handlers h = some hd') (hc : hd.request.IsClient) {res : Reservation}
    (hp : hd'.phase.Carries res) :
    hd.phase.Carries res ∨
      (∃ now, a = .stamp now) ∧ res.lamportTs = nextLamport s.logicalClock := by
  cases ha with
  | stamp now old res' hphase hts =>
    obtain rfl := handler_moved s h hh'
    obtain rfl : res' = res := hp
    exact .inr ⟨⟨now, rfl⟩, hts⟩
  | _ => obtain rfl := handler_moved s h hh'; simp_all [Request.IsClient]

theorem carries_le {C : Node → Event → Prop} {backUp : Bool}
    (hr : Reach (step cfg) C (start cfg backUp) s) (hh : s.handlers h = some hd)
    (hc : hd.request.IsClient) {res : Reservation} (hp : hd.phase.Carries res) :
    res.lamportTs ≤ s.logicalClock := by
  refine hr.invariant (P := fun s => ∀ hd, s.handlers h = some hd → hd.request.IsClient →
    hd.phase.Carries res → res.lamportTs ≤ s.logicalClock) ?_ (fun s e s' _ ih _ hs => ?_)
    hd hh hc hp
  · simp [start]
  · intro hd' hh' hc hp
    have hle := (step_spec hs).logicalClock_le
    rcases (step_spec hs).handler_earned (Phase.carries_earned res) hh' hp with
      hh | ⟨hd, a, p, rfl, hh, ha, rfl⟩
    · exact (ih hd' hh hc hp).trans hle
    · rcases ha.carries_before hh' hc hp with hp | ⟨⟨now, rfl⟩, hts⟩
      · exact (ih hd hh hc hp).trans hle
      · cases ha
        exact hts.le

/-! ## Messages -/

theorem Acts.taken_before (ha : Acts cfg s h hd a s') {hd' : Handler}
    (hh' : s'.handlers h = some hd') {msg : ReplicationMsg}
    (hreq : hd.request = .applyReplication msg) (hp : hd'.phase.Taken) :
    hd.phase.Taken ∨ msg.reservation.lamportTs < s'.logicalClock := by
  cases ha with
  | advance msg' hreq' =>
    obtain rfl := Request.applyReplication.inj (hreq'.symm.trans hreq)
    exact .inr (Nat.lt_succ_of_le (le_max_right _ _))
  | _ => obtain rfl := handler_moved s h hh'; simp_all [Request.IsClient]

/-- The clock is past the messages that were taken in and the records that they brought. -/
structure Behind (s : Node) : Prop where
  taken : ∀ h hd msg, s.handlers h = some hd → hd.request = .applyReplication msg →
    hd.phase.Taken → msg.reservation.lamportTs < s.logicalClock
  brought : ∀ n op k old res, .changed (.replica n) op k old res ∈ s.log →
    res.lamportTs < s.logicalClock

theorem behind_step (hb : Behind s) (hk : Keeping cfg s) (hs : Steps cfg s e s') : Behind s' where
  taken h hd' msg hh' hreq hp := by
    rcases hs.handler_earned Phase.taken_earned hh' hp with hh | ⟨hd, a, p, rfl, hh, ha, rfl⟩
    · exact (hb.taken h hd' msg hh hreq hp).trans_le hs.logicalClock_le
    · rcases ha.taken_before hh' hreq hp with hp | hlt
      · exact (hb.taken h hd msg hh hreq hp).trans_le hs.logicalClock_le
      · exact hlt
  brought n op k old res hx := by
    have hgrow (hx : .changed (.replica n) op k old res ∈ s.log) :=
      (hb.brought n op k old res hx).trans_le hs.logicalClock_le
    cases hs with
    | act h hd a s' hh ha =>
      cases ha with
      | store old' new resp hc hp =>
        rw [store_log, List.mem_append, List.mem_singleton] at hx
        rcases hx with hx | hx
        · exact hgrow hx
        · obtain ⟨rfl, -⟩ := Entry.changed.inj hx
          obtain ⟨m, hm⟩ := (hk.addressed _ hd hh).mp hc
          simp at hm
      | apply msg resp hreq hp =>
        rw [store_log, List.mem_append, List.mem_singleton] at hx
        rcases hx with hx | hx
        · exact hgrow hx
        · obtain ⟨-, -, -, -, rfl⟩ := Entry.changed.inj hx
          exact hb.taken h hd msg hh hreq (by rw [hp]; trivial)
      | _ => exact hgrow (by simpa using hx)
    | promote => exact hgrow (by rwa [promote_log] at hx)
    | _ => exact hgrow (by simpa using hx)

section
variable {backUp : Bool} (hr : Reach (step cfg) (fun _ e => Addressed e) (start cfg backUp) s)
include hr

theorem keeping_reach : Keeping cfg s :=
  hr.invariant (keeping_start cfg backUp) fun _ _ _ _ hk he hs => keeping_step hk he (step_spec hs)

theorem behind_reach : Behind s := by
  refine hr.invariant ⟨?_, ?_⟩ fun _ _ _ hr hb _ hs =>
    behind_step hb (keeping_reach hr) (step_spec hs)
  · simp [start]
  · simp [start]

end

end Node

end ReservationSystem
