import ReservationSystem.Cluster.Invariants

/-!
# The nodes disagree only after a failed write

Clients talk to the primary, and the backup stores a message only while `replicate` still
waits for its answer. Then the last handler that sent a message for a key decides what the
backup stores there.
-/

namespace ReservationSystem.Cluster

open Machine

variable {d : Deployment} {c c' : Cluster} {e : Event} {n : Nat} {k : Key}

/-- The `replicate` call of `client n` has not returned. -/
def pending (c : Cluster) (n : Nat) : Bool :=
  match c.primary.handlers (.client n) with
  | some ⟨_, .replicating _ _⟩ => true
  | _ => false

/-- Clients talk to the primary only. -/
def clientsOnPrimary : Event → Bool
  | .request .backup _ _ => false
  | _ => true

/-- Clients talk to the primary only, and the backup stores nothing that is late. -/
def inTime (c : Cluster) (e : Event) : Bool :=
  clientsOnPrimary e &&
    match e with
    | .act .backup (.replica n) .store => c.pending n
    | _ => true

theorem inTime_clients (h : c.inTime e = true) : clientsOnPrimary e = true := by
  simp only [inTime, Bool.and_eq_true] at h
  exact h.1

theorem inTime_pending (h : c.inTime (.act .backup (.replica n) .store) = true) :
    c.pending n = true := by
  simpa [inTime, clientsOnPrimary] using h

theorem pending_spec (h : c.pending n = true) :
    ∃ hd old res, c.primary.handlers (.client n) = some hd ∧ hd.phase = .replicating old res := by
  unfold pending at h
  split at h
  case h_1 req old res hh => exact ⟨_, old, res, hh, rfl⟩
  case h_2 => simp at h

theorem key_of_msg (cfg : Service) {msg : ReplicationMsg} (hk : msg.key = keyToList k) :
    (Request.applyReplication msg).key cfg = k := by
  obtain ⟨op, key, res⟩ := msg
  obtain rfl : key = keyToList k := hk
  exact key_of_keyToList cfg op k res

/-! ## The backup without clients -/

theorem clients_step (ha : ∀ n, c.backup.handlers (.client n) = none) (hs : Steps d c e c')
    (he : clientsOnPrimary e = true) (n : Nat) : c'.backup.handlers (.client n) = none := by
  rw [Option.eq_none_iff_forall_ne_some]
  intro hd hh
  have hnew {ev b} (hs : c.backup.step d.backup ev = some b)
      (hh : b.handlers (.client n) = some hd) :
      ev = .receive (.client n) hd.request := by
    rcases (Node.step_spec hs).handler hh with hh | ⟨-, he, -⟩ | ⟨hd', a, p, -, hh', -⟩
    · simp [ha] at hh
    · exact he
    · simp [ha] at hh'
  cases hs with
  | requestBackup => simp [clientsOnPrimary] at he
  | actBackup h a b hs => simpa using hnew hs hh
  | deliver m msg b _ hs => simpa using hnew hs hh
  | promote => simp [Node.promote_handlers, ha] at hh
  | _ => simp [ha] at hh

/-- A handler of the backup writes the message of its namesake. -/
theorem replica_writes (hl : Linked c) (ha : ∀ n, c.backup.handlers (.client n) = none)
    {h : Thread} {hd : Handler} {res : Reservation} (hh : c.backup.handlers h = some hd)
    (hw : hd.Writes res) :
    ∃ n msg, h = .replica n ∧ .sent (.client n) msg ∈ c.primary.log ∧
      hd.request = .applyReplication msg ∧ res = msg.reservation := by
  cases h with
  | client n => simp [ha] at hh
  | replica n =>
    obtain ⟨msg, hreq, hsent⟩ := hl.messages n hd hh
    refine ⟨n, msg, rfl, hsent, hreq, ?_⟩
    cases hw with
    | client old res hc => simp [hreq, Request.IsClient] at hc
    | replica msg' hreq' =>
      obtain rfl := Request.applyReplication.inj (hreq.symm.trans hreq')
      rfl

/-! ## The invariant -/

structure Agreeing (c : Cluster) : Prop where
  clients : ∀ n, c.backup.handlers (.client n) = none
  /-- The backup stores what the last sender sent, once that is stored. -/
  applied : ∀ k n msg, (sendersOf k c.primary.log).getLast? = some n →
    .sent (.client n) msg ∈ c.primary.log → c.Applied n → c.backup.reservations.get? k = msg.effect
  absent : ∀ k, sendersOf k c.primary.log = [] → c.backup.reservations.get? k = none

theorem agreeing_start (d : Deployment) : Agreeing (start d) where
  clients _ := rfl
  applied k n msg hlast := by simp [start, Node.start, sendersOf] at hlast
  absent _ _ := rfl

section
variable {C : Cluster → Event → Prop} (hr : Reach (step d) C (start d) c)
include hr

theorem primary_history : Node.History d.primary c.primary :=
  Node.history_reach (Node.history_start _ _) (primary_run hr)

theorem pending_last {msg : ReplicationMsg} (hp : c.pending n = true)
    (hsent : .sent (.client n) msg ∈ c.primary.log) (hk : msg.key = keyToList k) :
    (sendersOf k c.primary.log).getLast? = some n := by
  obtain ⟨hd, old, res, hh, hphase⟩ := pending_spec hp
  obtain ⟨hd', hh', -, hkey, -⟩ := (primary_history hr).fits _ hsent
  obtain rfl := Option.some.inj (hh.symm.trans hh')
  obtain rfl : k = hd.request.key d.primary := keyToList_inj (hk.symm.trans hkey)
  exact Node.last_sender rfl (primary_reach hr) hh (by simp [hphase])

theorem sent_key (cfg : Service) {h : Thread} {msg : ReplicationMsg}
    (hsent : .sent h msg ∈ c.primary.log) :
    msg.key = keyToList ((Request.applyReplication msg).key cfg) := by
  obtain ⟨hd, -, -, hkey, -⟩ := (primary_history hr).fits _ hsent
  rw [key_of_msg cfg hkey, hkey]

/-- One step of the backup: what it stores is the message of the last sender. -/
theorem agreeing_backup (ha : Agreeing c) (hs : Steps d c e c') (he : c.inTime e = true)
    (hP : c'.primary = c.primary) : Agreeing c' := by
  have hl := linked_reach hr
  refine ⟨clients_step ha.clients hs (inTime_clients he), ?_, ?_⟩ <;> rw [hP]
  · intro k n msg hlast hsent happ
    rcases hs.backup_write with ⟨hne, hstore⟩ | ⟨h, hd, res, rfl, hh, hw, hstore⟩
    · rw [hstore]
      rcases applied_before hl hs happ with happ | rfl
      · exact ha.applied k n msg hlast hsent happ
      · exact absurd rfl (hne _)
    · obtain ⟨m, msg', rfl, hsent', hreq, rfl⟩ := replica_writes hl ha.clients hh hw
      rw [hstore, get?_write, hreq]
      split_ifs with hk
      · have hlast' := pending_last hr (inTime_pending he) hsent' (hk ▸ sent_key hr d.backup hsent')
        obtain rfl := Option.some.inj (hlast.symm.trans hlast')
        obtain rfl := Node.sent_once (primary_run hr) hsent hsent'
        rfl
      · rcases applied_before hl hs happ with happ | heq
        · exact ha.applied k n msg hlast hsent happ
        · -- The message of the last sender for `k` is for `k`.
          obtain ⟨-, hnm, -⟩ := Event.act.inj heq
          obtain rfl := Thread.replica.inj hnm
          obtain rfl := Node.sent_once (primary_run hr) hsent hsent'
          obtain ⟨msg', hsent'', hk'⟩ := mem_sendersOf.mp (List.mem_of_getLast? hlast)
          obtain rfl := Node.sent_once (primary_run hr) hsent hsent''
          exact absurd (key_of_msg d.backup hk').symm hk
  · intro k hnone
    rcases hs.backup_write with ⟨-, hstore⟩ | ⟨h, hd, res, rfl, hh, hw, hstore⟩
    · rw [hstore]
      exact ha.absent k hnone
    · obtain ⟨m, msg', rfl, hsent', hreq, rfl⟩ := replica_writes hl ha.clients hh hw
      rw [hstore, get?_write, hreq, if_neg]
      · exact ha.absent k hnone
      · intro hk
        have hlast' := pending_last hr (inTime_pending he) hsent' (hk ▸ sent_key hr d.backup hsent')
        simp [hnone] at hlast'

/-- One step of the primary: a message that is sent now is not stored yet. -/
theorem agreeing_primary (ha : Agreeing c) (hs : Steps d c e c') (he : c.inTime e = true)
    (hB : c'.backup = c.backup) (hr' : Reach (step d) C (start d) c') : Agreeing c' := by
  have hl := linked_reach hr
  refine ⟨clients_step ha.clients hs (inTime_clients he), ?_, ?_⟩ <;> rw [hB]
  all_goals
    rcases hs.onPrimary with hP | ⟨ev, -, hp, -⟩
  · rw [hP]
    intro k n msg hlast hsent happ
    exact ha.applied k n msg hlast hsent (by rwa [Applied, hB] at happ)
  · intro k n msg hlast hsent happ
    obtain ⟨es, hes⟩ := (Node.step_spec hp).log_append
    rcases (Node.step_spec hp).sends k with heq | ⟨m, hd, old, res, -, hh, hphase, -, -, heq⟩
    · rw [heq] at hlast
      obtain ⟨msg', hsent', -⟩ := mem_sendersOf.mp (List.mem_of_getLast? hlast)
      obtain rfl := Node.sent_once (primary_run hr') hsent (hes ▸ List.mem_append_left es hsent')
      exact ha.applied k n msg hlast hsent' (by rwa [Applied, hB] at happ)
    · obtain rfl : m = n := by simpa [heq] using hlast
      obtain ⟨hdb, hhb, -⟩ := happ
      obtain ⟨msg', -, hsent'⟩ := hl.messages m hdb (hB ▸ hhb)
      obtain ⟨hd', hh', -, -, hfit⟩ := (primary_history hr).fits _ hsent'
      obtain rfl := Option.some.inj (hh.symm.trans hh')
      simp [hphase] at hfit
  · rw [hP]
    exact ha.absent
  · intro k hnone
    rcases (Node.step_spec hp).sends k with heq | ⟨m, hd, old, res, -, -, -, -, -, heq⟩
    · exact ha.absent k (heq ▸ hnone)
    · simp [heq] at hnone

end

theorem agreeing_reach (hr : Reach (step d) (fun c e => c.inTime e) (start d) c) : Agreeing c := by
  refine hr.invariant (agreeing_start d) fun c e c' hr ha he hs => ?_
  rcases (step_spec hs).sides with hP | hB
  · exact agreeing_backup hr ha (step_spec hs) he hP
  · exact agreeing_primary hr ha (step_spec hs) he hB (.tail hr he hs)

/-! ## Agreement -/

/-- How far the two nodes agree. -/
structure Agreement (d : Deployment) (c : Cluster) : Prop where
  /-- Under a free lock they agree, unless the last message for the key was not acknowledged. -/
  free : ∀ k, c.primary.tableLocks k.table = none →
    (∀ n, (sendersOf k c.primary.log).getLast? = some n → .acked (.client n) ∈ c.primary.log) →
      c.primary.reservations.get? k = c.backup.reservations.get? k
  /-- A confirmed write makes them agree on its key until another message is sent for it. -/
  again : ∀ n req resp, .received (.client n) req ∈ c.primary.log →
    .answered (.client n) resp ∈ c.primary.log → resp.status = .ok →
      (sendersOf (req.key d.primary) c.primary.log).getLast? = some n →
        c.primary.reservations.get? (req.key d.primary) =
          c.backup.reservations.get? (req.key d.primary)
  /-- Both store a confirmed booking while no cancel for it has been sent. -/
  booking : ∀ n msg resp res, .received (.client n) (.book msg) ∈ c.primary.log →
    .answered (.client n) resp ∈ c.primary.log → resp.status = .ok → resp.record = some res →
      ¬ CancelSentSince c.primary.log (.client n) resp ((Request.book msg).key d.primary) →
        c.primary.reservations.get? ((Request.book msg).key d.primary) = some res ∧
          c.backup.reservations.get? ((Request.book msg).key d.primary) = some res

section
variable (hr : Reach (step d) (fun c e => c.inTime e) (start d) c)
include hr

theorem agree_of_written {hd : Handler} (hh : c.primary.handlers (.client n) = some hd)
    (hp : hd.phase.Written) (hlast : (sendersOf k c.primary.log).getLast? = some n) :
    c.primary.reservations.get? k = c.backup.reservations.get? k := by
  obtain ⟨msg, hsent, hget⟩ := Node.last_written rfl (primary_reach hr) hh hp hlast
  have happ : c.Applied n := (linked_reach hr).acked n hd hh hp.acked
  rw [hget, (agreeing_reach hr).applied k n msg hlast hsent happ]

/-- The nodes disagree about a key only after a write of it that was not acknowledged. -/
theorem agreement : Agreement d c where
  free k hfree hacked := by
    cases hlast : (sendersOf k c.primary.log).getLast? with
    | none =>
      have hnone : sendersOf k c.primary.log = [] := by simpa using hlast
      rw [Node.unsent_absent rfl (primary_reach hr) hnone, (agreeing_reach hr).absent k hnone]
    | some n =>
      obtain ⟨hd, hh, hphase⟩ := (primary_history hr).fits _ (hacked n hlast)
      rcases hphase with ⟨old, res, hphase⟩ | ⟨resp, hresp, hok⟩
      · -- A handler that has not written yet has the lock.
        obtain ⟨msg, hsent, hk⟩ := mem_sendersOf.mp (List.mem_of_getLast? hlast)
        obtain ⟨hd', hh', -, hkey, -⟩ := (primary_history hr).fits _ hsent
        obtain rfl := Option.some.inj (hh.symm.trans hh')
        obtain rfl : k = hd.request.key d.primary := keyToList_inj (hk.symm.trans hkey)
        have hholds := (Node.wf_reach (Node.wf_start _ _) (primary_reach hr)).holds _ hd hh
          (by simp [hphase])
        rw [key_table] at hfree
        simp [hfree] at hholds
      · exact agree_of_written hr hh (Phase.written_of_resp? hresp hok) hlast
  again n req resp hrec hans hok hlast := by
    obtain ⟨hd, hh, hdone⟩ := (primary_history hr).fits _ hans
    replace hdone : hd.phase = .done resp := hdone
    exact agree_of_written hr hh (by simpa [hdone] using hok) hlast
  booking n msg resp res hrec hans hok hres hno := by
    obtain ⟨hget, hlast⟩ := Node.booked_reach rfl (primary_reach hr) hrec hans hok hres hno
    obtain ⟨hd, hh, hdone⟩ := (primary_history hr).fits _ hans
    replace hdone : hd.phase = .done resp := hdone
    refine ⟨hget, ?_⟩
    rw [← agree_of_written hr hh (by simpa [hdone] using hok) hlast, hget]

end

/-- An acknowledgement is lost, and the client tries once more before the primary crashes. -/
def lostAck : List Event :=
  sends 0 (.book (dinner "T1" "Alice")) ++ applies 0 ++ givesUp 0 ++
    sends 1 (.book (dinner "T1" "Alice")) ++ applies 1 ++ confirms 1 ++ [.crash]

theorem agreement_lostAck :
    ∃ c, exec (step urban) (start urban) lostAck = some c ∧ Agreement urban c := by
  have hm : Meets (step urban) (fun c e => c.inTime e) (start urban) lostAck := by decide
  exact ⟨_, rfl, agreement (reach_of_exec hm rfl)⟩

end ReservationSystem.Cluster
