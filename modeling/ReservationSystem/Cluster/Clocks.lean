import ReservationSystem.Cluster.Invariants
import ReservationSystem.Node.Clock

/-!
# Lamport order survives failover

The backup's clock is past every message that it has stored, and the primary confirms
nothing before that. So what the backup stamps later has the later time.
-/

namespace ReservationSystem.Cluster

open Machine

variable {d : Deployment} {c : Cluster} {n : Nat}

/-- How the times of the two nodes relate. -/
structure LamportSurvives (d : Deployment) (c : Cluster) : Prop where
  /-- Whatever the backup stamps after the primary has confirmed a write has a later time. -/
  later : ∀ n resp res, .answered (.client n) resp ∈ c.primary.log → resp.status = .ok →
    resp.record = some res → ∀ c', Reach (step d) (fun _ _ => True) c c' →
      ∃ l, c'.backup.log = c.backup.log ++ l ∧
        ∀ h k old res', .stamped h k old res' ∈ l → res.lamportTs < res'.lamportTs
  /-- No stored time is ahead of the node's clock. -/
  primary : ∀ k res, c.primary.reservations.get? k = some res →
    res.lamportTs ≤ c.primary.logicalClock
  backup : ∀ k res, c.backup.reservations.get? k = some res →
    res.lamportTs ≤ c.backup.logicalClock
  /-- The clock of the backup is past every record that a message brought. -/
  brought : ∀ n op k old res, .changed (.replica n) op k old res ∈ c.backup.log →
    res.lamportTs < c.backup.logicalClock
  /-- A cancel of a stored record, on either node, has a later time than the record. -/
  cancelled : ∀ h k old res,
    .stamped h k (some old) res ∈ c.primary.log ∨ .stamped h k (some old) res ∈ c.backup.log →
      old.lamportTs < res.lamportTs

section
variable {C : Cluster → Event → Prop} (hr : Reach (step d) C (start d) c)
include hr

/-- What the primary has confirmed, the backup has stored and its clock is past it. -/
theorem confirmed_behind {resp : Response} {res : Reservation}
    (hans : .answered (.client n) resp ∈ c.primary.log) (hok : resp.status = .ok)
    (hrec : resp.record = some res) : res.lamportTs < c.backup.logicalClock := by
  have hp := primary_run hr
  have hi := Node.history_reach (Node.history_start _ _) hp
  have hl := linked_reach hr
  obtain ⟨hd, hh, hdone⟩ := hi.fits _ hans
  replace hdone : hd.phase = .done resp := hdone
  -- The handler has written the record that it answers with, and has sent it before.
  obtain ⟨old, new, hch⟩ := (hi.past _ _ hh).changed resp (by rw [hdone]; rfl) hok
  obtain ⟨hd', hh', -, -, resp', hresp', -, hrec'⟩ := hi.fits _ hch
  obtain rfl := Option.some.inj (hh.symm.trans hh')
  obtain rfl : resp = resp' := by simpa [hdone] using hresp'
  obtain rfl : res = new :=
    Option.some.inj (hrec.symm.trans (hrec' (Node.clients_reach hp _ _ hh)))
  obtain ⟨hd', hh', hw⟩ := hl.acked n hd hh (by simpa [hdone] using hok)
  obtain ⟨msg, hreq, hsent⟩ := hl.messages n hd' hh'
  obtain rfl := Node.changed_of_sent hp hsent hch
  exact (Node.behind_reach (backup_reach hr)).taken _ hd' _ hh' hreq hw.taken

theorem lamport_survives : LamportSurvives d c where
  later n resp res hans hok hrec c' hr' := by
    obtain ⟨-, l, hl, hlt⟩ := Node.stamped_after_reach (backup_reach hr')
    exact ⟨l, hl, fun h k old res' hx =>
      (confirmed_behind hr hans hok hrec).trans (hlt h k old res' hx)⟩
  primary := (Node.wf_reach (Node.wf_start _ _) (primary_reach hr)).stored
  backup := (Node.wf_reach (Node.wf_start _ _) (backup_reach hr)).stored
  brought := (Node.behind_reach (backup_reach hr)).brought
  cancelled h k old res hx := by
    rcases hx with hx | hx
    · exact Node.stamped_over_reach (primary_reach hr) hx
    · exact Node.stamped_over_reach (backup_reach hr) hx

end

/-- The primary confirms a booking and crashes, and the backup takes over. -/
def failover : List Event :=
  sends 0 (.book (dinner "T1" "Alice")) ++ applies 0 ++ confirms 0 ++ [.crash, .promote] ++
    booksOnBackup 1 (.book (dinner "T2" "Bob"))

theorem lamport_survives_failover :
    ∃ c, exec (step urban) (start urban) failover = some c ∧ LamportSurvives urban c := by
  have hm : Meets (step urban) (fun _ _ => True) (start urban) failover :=
    meets_of_forall fun _ _ _ => trivial
  exact ⟨_, rfl, lamport_survives (reach_of_exec hm rfl)⟩

end ReservationSystem.Cluster
