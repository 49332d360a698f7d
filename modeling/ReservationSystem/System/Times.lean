import ReservationSystem.Cluster.Clocks
import ReservationSystem.System.Invariants

/-!
# The order of the confirmed writes

The primary never hears of the times that the backup gives to the writes that it serves
itself. So the primary can give one of them once more, or an earlier one for the same key.
-/

namespace ReservationSystem

/-- A write that the gateway has confirmed to its client. -/
structure Confirmation where
  call : Call
  res : Reservation

def Mark.confirmation? : Mark → Option Confirmation
  | .answered call ⟨.ok, _, some res⟩ => some ⟨call, res⟩
  | _ => none

namespace System

open Machine

variable {d : Deployment} {s s' : System} {e : Event}

/-- The confirmed writes, in the order of their confirmations. -/
def confirmations (log : List Mark) : List Confirmation := log.filterMap Mark.confirmation?

theorem mem_confirmations {log : List Mark} {x : Confirmation} :
    x ∈ confirmations log ↔
      ∃ resp, .answered x.call resp ∈ log ∧ resp.status = .ok ∧ resp.record = some x.res := by
  simp only [confirmations, List.mem_filterMap]
  constructor
  · rintro ⟨m, hm, hx⟩
    unfold Mark.confirmation? at hx
    split at hx
    · obtain rfl := Option.some.inj hx
      exact ⟨_, hm, rfl, rfl⟩
    · simp at hx
  · rintro ⟨⟨status, message, record⟩, hm, rfl, rfl⟩
    exact ⟨_, hm, rfl⟩

/-- The write `y` has a time of its own, and a later one than `x` if they share a key. -/
def Follows (d : Deployment) (x y : Confirmation) : Prop :=
  x.res.lamportTs ≠ y.res.lamportTs ∧
    (x.call.request.key d.restaurant = y.call.request.key d.restaurant →
      x.res.lamportTs < y.res.lamportTs)

/-- No two confirmed writes carry one time, and those of one key are confirmed in the order
of their times. -/
def TotallyOrdered (d : Deployment) (s : System) : Prop :=
  (confirmations s.log).Pairwise (Follows d)

/-- When the primary stamps a write that the gateway waits for, the next tick of its clock is
no time of a write that the backup has confirmed, and is past those with the same key. -/
def fresh (d : Deployment) (s : System) : Event → Bool
  | .cluster (.act .primary (.client n) (.stamp _)) =>
    match s.call with
    | some ⟨m, req, .primary⟩ =>
      m ≠ n ∨ (confirmations s.log).all fun x =>
        let now := Node.nextLamport s.cluster.primary.logicalClock
        x.call.side = .primary ∨ x.res.lamportTs ≠ now ∧
          (x.call.request.key d.restaurant = req.key d.restaurant → x.res.lamportTs < now)
    | _ => true
  | _ => true

theorem fresh_stamp {call : Call} {now : Nat} (hcall : s.call = some call)
    (hside : call.side = .primary)
    (he : fresh d s (.cluster (.act .primary (.client call.number) (.stamp now))) = true)
    {x : Confirmation} (hx : x ∈ confirmations s.log) (hxs : x.call.side = .backup) :
    x.res.lamportTs ≠ Node.nextLamport s.cluster.primary.logicalClock ∧
      (x.call.request.key d.restaurant = call.request.key d.restaurant →
        x.res.lamportTs < Node.nextLamport s.cluster.primary.logicalClock) := by
  obtain ⟨n, req, side⟩ := call
  obtain rfl : side = .primary := hside
  simp only [fresh, hcall, ne_eq, not_true_eq_false, false_or, List.all_eq_true,
    decide_eq_true_eq] at he
  exact (he x hx).resolve_left (by simp [hxs])

/-- The write that the gateway waits for follows all those that it has confirmed. -/
structure Timed (d : Deployment) (s : System) : Prop where
  ordered : TotallyOrdered d s
  awaited : ∀ call hd res, s.call = some call →
    (s.cluster.node call.side).handlers (.client call.number) = some hd → hd.phase.Carries res →
      ∀ x ∈ confirmations s.log, Follows d x ⟨call, res⟩

section
variable {C : System → Event → Prop} (hr : Reach (step d) C (start d) s)
include hr

/-- The clock of a node is not behind a write that it has confirmed, and the backup's is not
behind one that the primary has confirmed. -/
theorem confirmed_le {x : Confirmation} (hx : x ∈ confirmations s.log) :
    x.res.lamportTs ≤ s.cluster.backup.logicalClock ∧
      (x.call.side = .primary → x.res.lamportTs ≤ s.cluster.primary.logicalClock) := by
  obtain ⟨resp, hans, hok, hrec⟩ := mem_confirmations.mp hx
  have hh := (wf_reach hr).served _ _ hans hok
  have hk := node_keeping hr x.call.side
  have hle := Node.carries_le (Cluster.node_reach (cluster_reach hr) x.call.side) hh
    ((hk.addressed _ _ hh).mpr ⟨_, rfl⟩) ⟨hok, hrec⟩
  obtain ⟨⟨n, req, side⟩, res⟩ := x
  cases side with
  | primary =>
    have hdone := (hk.history.past _ _ hh).answered resp rfl
    exact ⟨(Cluster.confirmed_behind (cluster_reach hr) hdone hok hrec).le, fun _ => hle⟩
  | backup => exact ⟨hle, by simp⟩

theorem follows_of_stamp {call : Call} {res : Reservation} {now : Nat} (hcall : s.call = some call)
    (he : fresh d s (.cluster (.act call.side (.client call.number) (.stamp now))) = true)
    (hts : res.lamportTs = Node.nextLamport (s.cluster.node call.side).logicalClock)
    {x : Confirmation} (hx : x ∈ confirmations s.log) : Follows d x ⟨call, res⟩ := by
  obtain ⟨hB, hP⟩ := confirmed_le hr hx
  have hlt {clock : Nat} (hle : x.res.lamportTs ≤ clock)
      (hclock : res.lamportTs = Node.nextLamport clock) : Follows d x ⟨call, res⟩ := by
    have : x.res.lamportTs < res.lamportTs := hclock ▸ Nat.lt_succ_of_le hle
    exact ⟨this.ne, fun _ => this⟩
  cases hside : call.side with
  | backup =>
    rw [hside] at hts
    exact hlt hB hts
  | primary =>
    rw [hside] at he
    replace hts : res.lamportTs = Node.nextLamport s.cluster.primary.logicalClock := by
      rwa [hside] at hts
    cases hxs : x.call.side with
    | primary => exact hlt (hP hxs) hts
    | backup =>
      have := fresh_stamp hcall hside he hx hxs
      rwa [← hts] at this

/-- One step of the cluster: the awaited write keeps its time, or gets it now. -/
theorem awaited_move (ht : Timed d s) {ev : Cluster.Event} {c : Cluster} (hm : Moves s e ev)
    (hs : s.cluster.step d ev = some c) (he : fresh d s e = true) {call : Call} {hd' : Handler}
    {res : Reservation} (hcall : s.call = some call)
    (hh' : (c.node call.side).handlers (.client call.number) = some hd')
    (hp : hd'.phase.Carries res) {x : Confirmation} (hx : x ∈ confirmations s.log) :
    Follows d x ⟨call, res⟩ := by
  rcases (Cluster.step_spec hs).onNode call.side with heq | ⟨nev, -, hn, hact, -⟩
  · exact ht.awaited call hd' res hcall (heq ▸ hh') hp x hx
  · rcases (Node.step_spec hn).handler_earned (Phase.carries_earned res) hh' hp with
      hh | ⟨hd, a, p, rfl, hh, ha, rfl⟩
    · exact ht.awaited call hd' res hcall hh hp x hx
    · have hc := ((node_keeping hr call.side).addressed _ _ hh).mpr ⟨_, rfl⟩
      rcases ha.carries_before hh' hc hp with hp | ⟨⟨now, rfl⟩, hts⟩
      · exact ht.awaited call hd res hcall hh hp x hx
      · obtain rfl := hact _ _ rfl
        cases hm with
        | cluster => exact follows_of_stamp hr hcall he hts hx

theorem timed_step (ht : Timed d s) (he : fresh d s e = true) (hs : Steps d s e s') :
    Timed d s' := by
  have hw := wf_reach hr
  cases hs with
  | issue req =>
    have hconf : confirmations (s.issue req).log = confirmations s.log := by
      simp [issue, confirmations, Mark.confirmation?]
    refine ⟨?_, ?_⟩
    · rw [TotallyOrdered, hconf]
      exact ht.ordered
    · -- No node has heard of the request yet.
      intro call hd res hcall hh
      obtain rfl := Option.some.inj hcall
      exact absurd (hw.numbered _ _ (hw.tried _ (hw.arrived _ _ _ hh))) (by simp)
  | move e ev c hm hs =>
    exact ⟨ht.ordered, fun call hd res hcall hh hp x hx =>
      awaited_move hr ht hm hs he hcall hh hp hx⟩
  | redirect => exact ⟨ht.ordered, ht.awaited⟩
  | retry e call resp hcall _ _ hside =>
    have hconf : confirmations (s.retry call).log = confirmations s.log := by
      simp [retry, confirmations, Mark.confirmation?]
    refine ⟨?_, ?_⟩
    · rw [TotallyOrdered, hconf]
      exact ht.ordered
    · -- The backup has not heard of it yet.
      intro call' hd res hcall' hh
      obtain rfl := Option.some.inj hcall'
      have := hw.unretried call _ hcall hside (hw.arrived _ _ _ hh) rfl
      simp at this
  | answer e call resp hcall hr' =>
    refine ⟨?_, fun call' hd res hcall' => by simp [answer] at hcall'⟩
    rw [TotallyOrdered, answer, confirmations, List.filterMap_append, List.pairwise_append]
    refine ⟨ht.ordered, by cases h : Mark.confirmation? (.answered call resp) <;> simp [h],
      fun x hx y hy => ?_⟩
    obtain ⟨resp', hans, hok, hrec⟩ := mem_confirmations.mp hy
    obtain ⟨rfl, rfl⟩ := Mark.answered.inj (List.mem_singleton.mp hans)
    cases hr' with
    | fail text => simp [unavailable] at hok
    | reply req _ hh =>
      have := ht.awaited _ _ y.res hcall hh ⟨hok, hrec⟩ x hx
      exact this

end

theorem timed_reach (hr : Reach (step d) (fun s e => fresh d s e) (start d) s) : Timed d s := by
  refine hr.invariant ⟨?_, ?_⟩ fun s e s' hr ht he hs => timed_step hr ht he (step_spec hs)
  · exact List.Pairwise.nil
  · intro call hd res hcall
    simp [start] at hcall

/-- The confirmed writes of the restaurant are totally ordered by their times, as long as the
primary gives no time that the backup has used before it. -/
theorem totally_ordered (hr : Reach (step d) (fun s e => fresh d s e) (start d) s) :
    TotallyOrdered d s := (timed_reach hr).ordered

/-- The primary books a table, fails to answer in time, and the backup books another one. -/
def failedOver : List Event :=
  .issue (.book (dinner "T1" "Alice")) :: serves 0 ++
    .issue (.book (dinner "T2" "Bob")) :: .fail "timed out" :: servesOnBackup 1

theorem totally_ordered_failedOver :
    ∃ s, exec (step urban) (start urban) failedOver = some s ∧ TotallyOrdered urban s ∧
      (confirmations s.log).map (·.res.lamportTs) = [1, 3] := by
  have hm : Meets (step urban) (fun s e => fresh urban s e) (start urban) failedOver := by decide
  exact ⟨_, rfl, totally_ordered (reach_of_exec hm rfl), rfl⟩

/-- The backup books a table because the primary fails to answer in time. Then the primary
books another one, and both bookings have the time 1. -/
def unheard : List Event :=
  .issue (.book (dinner "T1" "Alice")) :: .fail "timed out" :: servesOnBackup 0 ++
    .issue (.book (dinner "T2" "Bob")) :: serves 1

theorem not_totally_ordered : ¬ ∀ (d : Deployment) (s : System),
    Reach (step d) (fun _ _ => True) (start d) s → TotallyOrdered d s := by
  intro h
  obtain ⟨s, hs, hts⟩ : ∃ s, exec (step urban) (start urban) unheard = some s ∧
      (confirmations s.log).map (·.res.lamportTs) = [1, 1] := ⟨_, rfl, rfl⟩
  have hm : Meets (step urban) (fun _ _ => True) (start urban) unheard :=
    meets_of_forall fun _ _ _ => trivial
  have hdistinct : ((confirmations s.log).map (·.res.lamportTs)).Pairwise (· ≠ ·) :=
    List.pairwise_map.mpr ((h urban s (reach_of_exec hm hs)).imp And.left)
  simp [hts] at hdistinct

end System

end ReservationSystem
