import ReservationSystem.Cluster.Copies
import ReservationSystem.Node.Listing

/-!
# The backup is ahead

A write takes effect when the backup stores it. While the primary lives, the backup stores
what the primary stores and, besides, the messages that the primary has not acted on yet.
-/

namespace ReservationSystem.Cluster

open Machine

variable {d : Deployment} {c c' : Cluster} {e : Event} {n : Nat} {k : Key}

/-- The nodes store the same under the key of the primary's `client n`. -/
def sameUnder (d : Deployment) (c : Cluster) (n : Nat) : Bool :=
  match c.primary.handlers (.client n) with
  | some hd =>
    c.backup.reservations.get? (hd.request.key d.primary) =
      c.primary.reservations.get? (hd.request.key d.primary)
  | none => false

/-- Clients go to the backup once the primary has crashed. The backup stores no message that
`replicate` has given up, and after the crash none for a key that it has written since.
`replicate` does not fail once the backup has stored the message. -/
def orderly (d : Deployment) (c : Cluster) : Event → Bool
  | .request .backup _ _ => !c.primaryAlive
  | .act .backup (.replica n) .store => c.pending n && (c.primaryAlive || c.sameUnder d n)
  | .act .primary _ (.returned .acked) => true
  | .act .primary (.client n) (.returned _) => !c.backup.wrote (.replica n)
  | _ => true

/-- The backup has stored the message of `client n`, which is for `k`, and the primary has not
written it. -/
def Ahead (d : Deployment) (c : Cluster) (n : Nat) (k : Key) : Prop :=
  ∃ hd, c.primary.handlers (.client n) = some hd ∧ hd.phase.Sending ∧
    hd.request.key d.primary = k ∧ c.Applied n

structure Mirrored (d : Deployment) (c : Cluster) : Prop where
  clients : ∀ n, c.backup.handlers (.client n) = none
  ahead : ∀ n k msg, c.Ahead d n k → .sent (.client n) msg ∈ c.primary.log →
    c.backup.reservations.get? k = msg.effect
  same : ∀ k, (∀ n, ¬ c.Ahead d n k) →
    c.backup.reservations.get? k = c.primary.reservations.get? k

theorem mirrored_start (d : Deployment) : Mirrored d (start d) where
  clients _ := rfl
  ahead n k msg ha := by
    obtain ⟨hd, hh, -⟩ := ha
    simp [start, Node.start] at hh
  same _ _ := rfl

theorem Steps.alive (hs : Steps d c e c') (ha : c'.primaryAlive = true) :
    c.primaryAlive = true := by
  cases hs with
  | crash => simp at ha
  | _ => exact ha

theorem sameUnder_spec {hd : Handler} (h : c.sameUnder d n = true)
    (hh : c.primary.handlers (.client n) = some hd) :
    c.backup.reservations.get? (hd.request.key d.primary) =
      c.primary.reservations.get? (hd.request.key d.primary) := by
  simpa only [sameUnder, hh, decide_eq_true_eq] using h

theorem orderly_clients (he : orderly d c e = true) (halive : c.primaryAlive = true) :
    clientsOnPrimary e = true := by
  unfold clientsOnPrimary
  split
  · simp [orderly, halive] at he
  · rfl

theorem orderly_store (he : orderly d c (.act .backup (.replica n) .store) = true) :
    c.pending n = true ∧ (c.primaryAlive = true ∨ c.sameUnder d n = true) := by
  simpa only [orderly, Bool.and_eq_true, Bool.or_eq_true] using he

theorem orderly_returned {o : Outcome}
    (he : orderly d c (.act .primary (.client n) (.returned o)) = true) (ho : o ≠ .acked) :
    ¬ c.Applied n := by
  intro ha
  have hw : c.backup.wrote (.replica n) = true := Node.wrote_iff.mpr ha
  cases o with
  | acked => exact ho rfl
  | failed | raised => simp [orderly, hw] at he

/-! ## What the backup stores -/

section
variable {C : Cluster → Event → Prop} (hr : Reach (step d) C (start d) c)
include hr

theorem primary_wf : Node.Wf d.primary c.primary :=
  Node.wf_reach (Node.wf_start _ _) (primary_reach hr)

/-- One handler of the primary sends for a key at a time. -/
theorem sender_alone {m : Nat} {hd : Handler} (hh : c.primary.handlers (.client n) = some hd)
    (hl : hd.phase.HoldsLock) (ha : c.Ahead d m (hd.request.key d.primary)) : n = m := by
  obtain ⟨hd', hh', hp, hk, -⟩ := ha
  exact ((primary_wf hr).sender_eq hh hh' hl hp.sent.holdsLock hk.symm).1

/-- Where no message is ahead, a handler of the primary finds what the backup stores. -/
theorem Mirrored.found (hm : Mirrored d c) {hd : Handler}
    (hh : c.primary.handlers (.client n) = some hd) (hl : hd.phase.HoldsLock)
    (hno : ¬ c.Applied n) :
    c.backup.reservations.get? (hd.request.key d.primary) =
      c.primary.reservations.get? (hd.request.key d.primary) := by
  apply hm.same
  intro m ha
  obtain rfl := sender_alone hr hh hl ha
  obtain ⟨-, -, -, -, happ⟩ := ha
  exact hno happ

/-- The message that the backup is about to store is that of a handler that waits for it. -/
theorem stored_message {hdb : Handler} (hpend : c.pending n = true)
    (hhb : c.backup.handlers (.replica n) = some hdb) :
    ∃ hd msg old, c.primary.handlers (.client n) = some hd ∧
      hd.phase = .replicating old msg.reservation ∧ hdb.request = .applyReplication msg ∧
      .sent (.client n) msg ∈ c.primary.log ∧ msg.operation = hd.request.op ∧
      hdb.request.key d.backup = hd.request.key d.primary := by
  obtain ⟨hd, old, res, hh, hphase⟩ := pending_spec hpend
  obtain ⟨msg, hreq, hsent⟩ := (linked_reach hr).messages n hdb hhb
  obtain ⟨hd', hh', hop, hkey, hfit⟩ := (primary_history hr).fits _ hsent
  obtain rfl := Option.some.inj (hh.symm.trans hh')
  obtain rfl : res = msg.reservation := by simpa [hphase] using hfit
  refine ⟨hd, msg, old, hh, hphase, hreq, hsent, hop, ?_⟩
  rw [hreq]
  exact key_of_msg d.backup hkey

theorem stores (hs : Steps d c (.act .backup (.replica n) .store) c') (hpend : c.pending n = true) :
    ∃ hd msg old, c.primary.handlers (.client n) = some hd ∧
      hd.phase = .replicating old msg.reservation ∧ .sent (.client n) msg ∈ c.primary.log ∧
      msg.operation = hd.request.op ∧ ¬ c.Applied n ∧
      c'.backup.reservations.get? =
        Function.update c.backup.reservations.get? (hd.request.key d.primary) msg.effect := by
  rcases hs.backup_write with ⟨hne, -⟩ | ⟨h, hdb, res, heq, hhb, hw, hstore⟩
  · exact absurd rfl (hne _)
  obtain ⟨-, rfl, -⟩ := Event.act.inj heq
  obtain ⟨hd, msg, old, hh, hphase, hreq, hsent, hop, hkey⟩ := stored_message hr hpend hhb
  obtain rfl : res = msg.reservation := by
    cases hw with
    | client _ _ hc => simp [hreq, Request.IsClient] at hc
    | replica msg' hreq' =>
      obtain rfl := Request.applyReplication.inj (hreq.symm.trans hreq')
      rfl
  refine ⟨hd, msg, old, hh, hphase, hsent, hop, ?_, ?_⟩
  · rintro ⟨hdb', hhb', hwritten⟩
    obtain rfl := Option.some.inj (hhb.symm.trans hhb')
    exact hw.not_written hwritten
  funext k
  rw [hstore, get?_write, Function.update_apply, hkey, hreq]
  rfl

end

/-- Without clients the backup stores messages only. -/
theorem Steps.backup_stores (hs : Steps d c e c')
    (hclients : ∀ n, c.backup.handlers (.client n) = none) :
    ((∀ n, e ≠ .act .backup (.replica n) .store) ∧
        c'.backup.reservations = c.backup.reservations) ∨
      ∃ n, e = .act .backup (.replica n) .store := by
  rcases hs.backup_write with ⟨hne, hstore⟩ | ⟨h, hd, res, rfl, hh, -⟩
  · exact .inl ⟨fun n => hne _, hstore⟩
  · cases h with
    | client m => simp [hclients] at hh
    | replica m => exact .inr ⟨m, rfl⟩

theorem Steps.ahead_next (hs : Steps d c e c') (he : orderly d c e = true)
    (hB : c'.backup = c.backup) (ha : c.Ahead d n k) :
    c'.Ahead d n k ∨ e = .act .primary (.client n) .store := by
  obtain ⟨hd, hh, hp, hk, happ⟩ := ha
  have happ' : c'.Applied n := by rwa [Applied, hB]
  rcases hs.sending_next hh hp with ⟨hd', hh', hreq, hp'⟩ | hstore | ⟨o, ho, rfl⟩
  · exact .inl ⟨hd', hh', hp', hreq ▸ hk, happ'⟩
  · exact .inr hstore
  · exact absurd happ (orderly_returned he ho)

/-! ## The invariant -/

section
variable {C : Cluster → Event → Prop} (hr : Reach (step d) C (start d) c)
include hr

theorem mirrored_backup (hm : Mirrored d c) (hs : Steps d c e c') (he : orderly d c e = true)
    (halive : c.primaryAlive = true) (hP : c'.primary = c.primary) : Mirrored d c' := by
  have hclients := clients_step hm.clients hs (orderly_clients he halive)
  have hnext {m k} (ha : c.Ahead d m k) : c'.Ahead d m k := by
    obtain ⟨hd, hh, hp, hk, happ⟩ := ha
    exact ⟨hd, hP ▸ hh, hp, hk, applied_step hs happ⟩
  have hback {m k} (ha : c'.Ahead d m k) :
      c.Ahead d m k ∨ e = .act .backup (.replica m) .store := by
    obtain ⟨hd, hh, hp, hk, happ⟩ := ha
    rw [hP] at hh
    exact (applied_before (linked_reach hr) hs happ).imp_left fun happ => ⟨hd, hh, hp, hk, happ⟩
  rcases hs.backup_stores hm.clients with ⟨hne, hstore⟩ | ⟨n, rfl⟩
  · refine ⟨hclients, fun m k msg ha hsent => ?_, fun k hno => ?_⟩
    · rw [hstore]
      rw [hP] at hsent
      exact hm.ahead m k msg ((hback ha).resolve_right (hne m)) hsent
    · rw [hstore, hP]
      exact hm.same k fun m ha => hno m (hnext ha)
  · obtain ⟨hd, msg, old, hh, hphase, hsent, -, -, hget⟩ := stores hr hs (orderly_store he).1
    have hnew : c'.Ahead d n (hd.request.key d.primary) :=
      ⟨hd, hP ▸ hh, by simp [hphase], rfl, applied_after hs⟩
    refine ⟨hclients, fun m k msg' ha hsent' => ?_, fun k hno => ?_⟩
    · rw [hP] at hsent'
      rw [hget, Function.update_apply]
      split_ifs with hk
      · subst hk
        obtain ⟨hd', hh', hp', hk', -⟩ := ha
        rw [hP] at hh'
        obtain ⟨rfl, rfl⟩ := (primary_wf hr).sender_eq hh hh' (by simp [hphase])
          hp'.sent.holdsLock hk'.symm
        obtain rfl := Node.sent_once (primary_run hr) hsent hsent'
        rfl
      · refine hm.ahead m k msg' ((hback ha).resolve_right fun heq => hk ?_) hsent'
        obtain ⟨-, hnm, -⟩ := Event.act.inj heq
        obtain rfl := Thread.replica.inj hnm
        obtain ⟨hd', hh', -, hk', -⟩ := ha
        rw [hP] at hh'
        obtain rfl := Option.some.inj (hh.symm.trans hh')
        exact hk'.symm
    · rw [hget, hP, Function.update_of_ne]
      · exact hm.same k fun m ha => hno m (hnext ha)
      · rintro rfl
        exact hno n hnew

theorem ahead_back (hs : Steps d c e c') (hB : c'.backup = c.backup) (ha : c'.Ahead d n k) :
    c.Ahead d n k := by
  obtain ⟨hd', hh', hp', hk, happ⟩ := ha
  rw [Applied, hB] at happ
  rcases hs.onPrimary with hP | ⟨ev, -, hp, -⟩
  · exact ⟨hd', hP ▸ hh', hp', hk, happ⟩
  · obtain ⟨hd, hh, hreq, -, hback⟩ := sending_before hr hp hh' (.inl hp') happ
    exact ⟨hd, hh, hback hp', hreq ▸ hk, happ⟩

theorem Ahead.message (ha : c.Ahead d n k) : ∃ msg, .sent (.client n) msg ∈ c.primary.log := by
  obtain ⟨hd, hh, -, -, happ⟩ := ha
  obtain ⟨msg, hsent, -⟩ := applied_sent hr happ hh
  exact ⟨msg, hsent⟩

theorem mirrored_primary (hm : Mirrored d c) (hs : Steps d c e c') (he : orderly d c e = true)
    (hB : c'.backup = c.backup) (hr' : Reach (step d) C (start d) c') : Mirrored d c' := by
  refine ⟨hB ▸ hm.clients, fun m k msg ha hsent => ?_, fun k hno => ?_⟩
  · have ha' := ahead_back hr hs hB ha
    obtain ⟨msg', hsent'⟩ := ha'.message hr
    obtain rfl := Node.sent_once (primary_run hr') hsent (hs.primary_log hsent')
    rw [hB]
    exact hm.ahead m k msg ha' hsent'
  · rw [hB]
    rcases hs.onPrimary with hP | ⟨ev, -, hp, hev⟩
    · rw [hP]
      refine hm.same k fun m ha => hno m ?_
      obtain ⟨hd, hh, hphase, hk, happ⟩ := ha
      exact ⟨hd, hP ▸ hh, hphase, hk, by rwa [Applied, hB]⟩
    rcases (Node.step_spec hp).write k with ⟨hne, hstore, -⟩ | ⟨h, hd, new, hh, rfl, hw, hstore, -⟩
    · rw [hstore]
      refine hm.same k fun m ha => ?_
      rcases hs.ahead_next he hB ha with ha' | rfl
      · exact hno m ha'
      · exact hne _ (hev _ _ rfl)
    · -- The write catches up with the backup under its key.
      obtain ⟨m, msg, rfl, hphase, hsent, hacked, heff⟩ := acked_write hr hh hw
      rw [hstore, get?_write]
      split_ifs with hk
      · subst hk
        rw [← heff]
        exact hm.ahead m _ msg ⟨hd, hh, hphase, rfl, hacked⟩ hsent
      · refine hm.same k fun m' ha => ?_
        rcases hs.ahead_next he hB ha with ha' | rfl
        · exact hno m' ha'
        · obtain ⟨hnm, -⟩ := Node.Event.act.inj (hev _ _ rfl)
          obtain rfl := Thread.client.inj hnm
          obtain ⟨hd', hh', -, hk', -⟩ := ha
          obtain rfl := Option.some.inj (hh.symm.trans hh')
          exact hk hk'.symm

end

theorem mirrored_reach (hr : Reach (step d) (fun c e => orderly d c e) (start d) c)
    (halive : c.primaryAlive = true) : Mirrored d c := by
  refine hr.invariant (P := fun c => c.primaryAlive = true → Mirrored d c)
    (fun _ => mirrored_start d) (fun c e c' hr hm he hs halive => ?_) halive
  have hc := (step_spec hs).alive halive
  rcases (step_spec hs).sides with hP | hB
  · exact mirrored_backup hr (hm hc) (step_spec hs) he hc hP
  · exact mirrored_primary hr (hm hc) (step_spec hs) he hB (.tail hr he hs)

end ReservationSystem.Cluster
