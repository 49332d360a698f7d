import ReservationSystem.Cluster.Agreement

/-!
# When every confirmed booking has two copies

A cancel leaves the backup before it leaves the primary, and `replicate` may fail although
the backup has stored the message. So a confirmed booking can be missing on the backup.
-/

namespace ReservationSystem

open Log

/-- A cancel of `k` was confirmed after that answer. -/
def CancelConfirmedSince (cfg : Service) (log : List Entry) (h : Thread) (resp : Response)
    (k : Key) : Prop :=
  ∃ m msg resp', .received (.client m) (.cancel msg) ∈ log ∧ (Request.cancel msg).key cfg = k ∧
    resp'.status = .ok ∧ Before log (.answered h resp) (.answered (.client m) resp')

/-- The booking `res` of `k` was confirmed, and no cancel of `k` since. -/
def Booked (cfg : Service) (log : List Entry) (k : Key) (res : Reservation) : Prop :=
  ∃ n msg resp, .received (.client n) (.book msg) ∈ log ∧ .answered (.client n) resp ∈ log ∧
    resp.status = .ok ∧ resp.record = some res ∧ (Request.book msg).key cfg = k ∧
      ¬ CancelConfirmedSince cfg log (.client n) resp k

/-- The client whose cancel comes in. -/
def Entry.cancels? : Entry → Option Nat
  | .received (.client n) (.cancel _) => some n
  | _ => none

def Entry.answer? (h : Thread) : Entry → Option Response
  | .answered h' resp => if h' = h then some resp else none
  | _ => none

namespace Cluster

open Machine

variable {d : Deployment} {c c' : Cluster} {e : Event} {n : Nat} {k : Key}

/-- Every booking that the primary has confirmed is stored on both nodes. -/
def Copied (d : Deployment) (c : Cluster) : Prop :=
  ∀ k res, Booked d.primary c.primary.log k res →
    c.primary.reservations.get? k = some res ∧ c.backup.reservations.get? k = some res

/-- The handler that holds the lock of `k` is sending a message for `k`, or has sent it. -/
def sending (d : Deployment) (c : Cluster) (k : Key) : Option Nat :=
  match c.primary.tableLocks k.table with
  | some (.client m) =>
    match c.primary.handlers (.client m) with
    | some ⟨req, .replicating _ _⟩ | some ⟨req, .replicated _ _⟩ =>
      if req.key d.primary = k then some m else none
    | _ => none
  | _ => none

/-- Clients talk to the primary only. The backup stores a message only under a key under
which the primary stores nothing, and while no other message for it is on its way. -/
def harmless (d : Deployment) (c : Cluster) (e : Event) : Bool :=
  clientsOnPrimary e &&
    match e with
    | .act .backup (.replica n) .store =>
      match c.backup.handlers (.replica n) with
      | some hd =>
        (c.primary.reservations.get? (hd.request.key d.backup)).isNone &&
          (sending d c (hd.request.key d.backup)).all (· = n)
      | none => true
    | _ => true

/-- Clients talk to the primary only, the backup stores nothing that is late, and the
`replicate` of a cancel does not fail once the backup has stored the message. -/
def prompt (c : Cluster) (e : Event) : Bool :=
  c.inTime e &&
    match e with
    | .act .primary _ (.returned .acked) => true
    | .act .primary (.client n) (.returned _) =>
      match c.primary.handlers (.client n), c.backup.handlers (.replica n) with
      | some hd, some hd' => hd.request.op ≠ .cancel ∨ ¬ hd'.phase.Written
      | _, _ => true
    | _ => true

/-! ## The messages of the primary -/

section
variable {C : Cluster → Event → Prop} (hr : Reach (step d) C (start d) c)
include hr

theorem applied_sent {hd : Handler} (ha : c.Applied n)
    (hh : c.primary.handlers (.client n) = some hd) :
    ∃ msg, .sent (.client n) msg ∈ c.primary.log ∧ msg.operation = hd.request.op ∧
      msg.key = keyToList (hd.request.key d.primary) ∧
      ((∃ old, hd.phase = .replicating old msg.reservation ∨
        hd.phase = .replicated old msg.reservation) ∨ ∃ resp, hd.phase.resp? = some resp) := by
  obtain ⟨hdb, hhb, -⟩ := ha
  obtain ⟨msg, -, hsent⟩ := (linked_reach hr).messages n hdb hhb
  obtain ⟨hd', hh', hop, hkey, hphase⟩ := (primary_history hr).fits _ hsent
  obtain rfl := Option.some.inj (hh.symm.trans hh')
  exact ⟨msg, hsent, hop, hkey, hphase⟩

/-- What the primary writes, the backup has acknowledged. -/
theorem acked_write {h : Thread} {hd : Handler} {res : Reservation}
    (hh : c.primary.handlers h = some hd) (hw : hd.Writes res) :
    ∃ m msg, h = .client m ∧ hd.phase.Sending ∧ .sent (.client m) msg ∈ c.primary.log ∧
      c.Applied m ∧ msg.effect = hd.request.op.effect res := by
  obtain ⟨m, old, rfl, hphase⟩ := Node.writer_reach (primary_reach hr) hh hw
  have hacked := (linked_reach hr).acked m hd hh (by simp [hphase])
  obtain ⟨msg, hsent, hop, -, hfit⟩ := applied_sent hr hacked hh
  obtain rfl : res = msg.reservation := by simpa [hphase] using hfit
  exact ⟨m, msg, rfl, by simp [hphase], hsent, hacked, by rw [ReplicationMsg.effect, hop]⟩

theorem sending_eq {m : Nat} {hd : Handler} (hh : c.primary.handlers (.client m) = some hd)
    (hp : hd.phase.Sending) : sending d c (hd.request.key d.primary) = some m := by
  have hholds := (Node.wf_reach (Node.wf_start _ _) (primary_reach hr)).holds _ hd hh
    hp.sent.holdsLock
  obtain ⟨req, phase⟩ := hd
  rw [← key_table d.primary] at hholds
  simp only [sending, hholds, hh]
  cases phase <;> simp_all

theorem harmless_store {hd : Handler} (he : harmless d c (.act .backup (.replica n) .store) = true)
    (hh : c.backup.handlers (.replica n) = some hd) :
    c.primary.reservations.get? (hd.request.key d.backup) = none ∧
      ∀ m hdm, c.primary.handlers (.client m) = some hdm → hdm.phase.Sending →
        hdm.request.key d.primary = hd.request.key d.backup → m = n := by
  simp only [harmless, hh, Bool.and_eq_true, Option.isNone_iff_eq_none] at he
  obtain ⟨-, hnone, hsole⟩ := he
  refine ⟨hnone, fun m hdm hhm hp hk => ?_⟩
  rw [← hk, sending_eq hr hhm hp] at hsole
  simpa using hsole

/-- No message of a cancel is stored, since the primary still stores what it cancels. -/
theorem harmless_cancel {hdb hd : Handler}
    (he : harmless d c (.act .backup (.replica n) .store) = true)
    (hhb : c.backup.handlers (.replica n) = some hdb)
    (hh : c.primary.handlers (.client n) = some hd) (hop : hd.request.op = .cancel) :
    ¬ hd.phase.Sending := by
  intro hp
  obtain ⟨msg, hreq, hsent⟩ := (linked_reach hr).messages n hdb hhb
  obtain ⟨hd', hh', -, hkey, -⟩ := (primary_history hr).fits _ hsent
  obtain rfl := Option.some.inj (hh.symm.trans hh')
  have hnone := (harmless_store hr he hhb).1
  rw [hreq, key_of_msg d.backup hkey] at hnone
  obtain ⟨old, hold⟩ := hp.old?
  have hexp := (Node.wf_reach (Node.wf_start _ _) (primary_reach hr)).found hh hold
  rw [hop] at hexp
  exact hexp hnone

end

/-! ## Harmless runs -/

structure Copying (d : Deployment) (c : Cluster) : Prop where
  clients : ∀ n, c.backup.handlers (.client n) = none
  both : ∀ k res, c.primary.reservations.get? k = some res →
    c.backup.reservations.get? k = some res
  /-- Once the message of a handler is stored, it stays so until the handler writes. -/
  sent : ∀ n hd msg, c.primary.handlers (.client n) = some hd → hd.phase.Sending →
    .sent (.client n) msg ∈ c.primary.log → c.Applied n →
      c.backup.reservations.get? (hd.request.key d.primary) = msg.effect
  cancels : ∀ n hd, c.primary.handlers (.client n) = some hd → hd.request.op = .cancel →
    hd.phase.Sending ∨ hd.phase.Written → ¬ c.Applied n

theorem copying_start (d : Deployment) : Copying d (start d) where
  clients _ := rfl
  both k res hget := by simp [start, Node.start] at hget
  sent n hd msg hh := by simp [start, Node.start] at hh
  cancels n hd hh := by simp [start, Node.start] at hh

section
variable {C : Cluster → Event → Prop} (hr : Reach (step d) C (start d) c)
include hr

theorem copying_backup (hc : Copying d c) (hs : Steps d c e c') (he : harmless d c e = true)
    (hP : c'.primary = c.primary) : Copying d c' := by
  have hl := linked_reach hr
  have hclients : clientsOnPrimary e = true := by
    simp only [harmless, Bool.and_eq_true] at he
    exact he.1
  refine ⟨clients_step hc.clients hs hclients, ?_, ?_, ?_⟩ <;> rw [hP]
  · intro k res hget
    rcases hs.backup_write with ⟨-, hstore⟩ | ⟨h, hd, new, rfl, hh, hw, hstore⟩
    · rw [hstore]
      exact hc.both k res hget
    · obtain ⟨m, msg, rfl, -⟩ := replica_writes hl hc.clients hh hw
      rw [hstore, get?_write, if_neg]
      · exact hc.both k res hget
      · rintro rfl
        simp [(harmless_store hr he hh).1] at hget
  · intro m hd msg hh hp hsent happ
    rcases hs.backup_write with ⟨hne, hstore⟩ | ⟨h, hdb, new, rfl, hhb, hw, hstore⟩
    · rw [hstore]
      rcases applied_before hl hs happ with happ | rfl
      · exact hc.sent m hd msg hh hp hsent happ
      · exact absurd rfl (hne _)
    · obtain ⟨n, msg', rfl, hsent', hreq, rfl⟩ := replica_writes hl hc.clients hhb hw
      rw [hstore, get?_write]
      split_ifs with hk
      · obtain rfl := (harmless_store hr he hhb).2 m hd hh hp hk
        obtain rfl := Node.sent_once (primary_run hr) hsent hsent'
        rw [hreq]
        rfl
      · rcases applied_before hl hs happ with happ | heq
        · exact hc.sent m hd msg hh hp hsent happ
        · obtain ⟨-, hnm, -⟩ := Event.act.inj heq
          obtain rfl := Thread.replica.inj hnm
          obtain ⟨hd', hh', -, hkey, -⟩ := (primary_history hr).fits _ hsent'
          obtain rfl := Option.some.inj (hh.symm.trans hh')
          rw [hreq, key_of_msg d.backup hkey] at hk
          exact absurd rfl hk
  · intro m hd hh hop hp happ
    rcases applied_before hl hs happ with happ | rfl
    · exact hc.cancels m hd hh hop hp happ
    · rcases hp with hp | hp
      · rcases hs.backup_write with ⟨hne, -⟩ | ⟨h, hdb, new, heq, hhb, -⟩
        · exact absurd rfl (hne _)
        · obtain ⟨-, rfl, -⟩ := Event.act.inj heq
          exact (harmless_cancel hr he hhb hh hop hp).elim
      · exact hc.cancels m hd hh hop (.inr hp) (hl.acked m hd hh hp.acked)

/-- A handler that sends or has written was already there when its message was stored. -/
theorem sending_before {ev : Node.Event} {p : Node} (hp : c.primary.step d.primary ev = some p)
    {hd' : Handler} (hh' : p.handlers (.client n) = some hd')
    (hphase : hd'.phase.Sending ∨ hd'.phase.Written) (ha : c.Applied n) :
    ∃ hd, c.primary.handlers (.client n) = some hd ∧ hd.request = hd'.request ∧
      (hd.phase.Sending ∨ hd.phase.Written) ∧ (hd'.phase.Sending → hd.phase.Sending) := by
  rcases (Node.step_spec hp).handler hh' with hh | ⟨-, -, hnew⟩ | ⟨hd, a, q, rfl, hh, hact, rfl⟩
  · exact ⟨hd', hh, rfl, hphase, id⟩
  · rcases hnew with ⟨-, hnew⟩ | ⟨resp, hnew, herr⟩ <;> simp_all
  · obtain ⟨msg, -, -, -, hfit⟩ := applied_sent hr ha hh
    refine ⟨hd, hh, rfl, hact.sending_before hh' ?_ hphase⟩
    rcases hfit with ⟨old, hfit | hfit⟩ | hfit
    · exact .inl (by simp [hfit])
    · exact .inl (by simp [hfit])
    · exact .inr hfit

theorem copying_primary (hc : Copying d c) (hs : Steps d c e c') (he : harmless d c e = true)
    (hB : c'.backup = c.backup) (hr' : Reach (step d) C (start d) c') : Copying d c' := by
  have hclients : clientsOnPrimary e = true := by
    simp only [harmless, Bool.and_eq_true] at he
    exact he.1
  have happ {n} (ha : c'.Applied n) : c.Applied n := by rwa [Applied, hB] at ha
  rcases hs.onPrimary with hP | ⟨ev, -, hp, -⟩
  · refine ⟨clients_step hc.clients hs hclients, ?_, ?_, ?_⟩ <;> rw [hP]
    · rw [hB]
      exact hc.both
    · rw [hB]
      exact fun n hd msg hh hphase hsent ha => hc.sent n hd msg hh hphase hsent (happ ha)
    · exact fun n hd hh hop hphase ha => hc.cancels n hd hh hop hphase (happ ha)
  · obtain ⟨es, hes⟩ := (Node.step_spec hp).log_append
    refine ⟨clients_step hc.clients hs hclients, ?_, ?_, ?_⟩
    · rw [hB]
      intro k res hget
      rcases (Node.step_spec hp).write k with ⟨-, hstore, -⟩ | ⟨h, hd, new, hh, -, hw, hstore, -⟩
      · exact hc.both k res (hstore ▸ hget)
      · obtain ⟨m, msg, rfl, hphase, hsent, hacked, heff⟩ := acked_write hr hh hw
        rw [hstore, get?_write] at hget
        split_ifs at hget with hk
        · subst hk
          rw [hc.sent m hd msg hh hphase hsent hacked, heff]
          exact hget
        · exact hc.both k res hget
    · rw [hB]
      intro m hd' msg hh' hphase hsent ha
      obtain ⟨hd, hh, hreq, -, hback⟩ := sending_before hr hp hh' (.inl hphase) (happ ha)
      obtain ⟨msg', hsent', -⟩ := applied_sent hr (happ ha) hh
      obtain rfl := Node.sent_once (primary_run hr') hsent (hes ▸ List.mem_append_left es hsent')
      rw [← hreq]
      exact hc.sent m hd msg hh (hback hphase) hsent' (happ ha)
    · intro m hd' hh' hop hphase ha
      obtain ⟨hd, hh, hreq, hphase, -⟩ := sending_before hr hp hh' hphase (happ ha)
      exact hc.cancels m hd hh (hreq ▸ hop) hphase (happ ha)

end

theorem copying_reach (hr : Reach (step d) (fun c e => harmless d c e) (start d) c) :
    Copying d c := by
  refine hr.invariant (copying_start d) fun c e c' hr hc he hs => ?_
  rcases (step_spec hs).sides with hP | hB
  · exact copying_backup hr hc (step_spec hs) he hP
  · exact copying_primary hr hc (step_spec hs) he hB (.tail hr he hs)

/-- Without cancels that take effect, what is booked is what the primary keeps. -/
theorem copied_of_harmless (hr : Reach (step d) (fun c e => harmless d c e) (start d) c) :
    Copied d c := by
  rintro k res ⟨n, msg, resp, hrec, hans, hok, hres, hkey, -⟩
  have hc := copying_reach hr
  have hget : c.primary.reservations.get? k = some res := by
    refine Node.keeps_reach (primary_reach hr) k res
      ⟨n, msg, resp, hrec, hans, hok, hres, hkey, ?_⟩
    rintro ⟨m, old, res', hb⟩
    obtain ⟨hd, hh, hop, -, resp', hresp, hok', -⟩ := (primary_history hr).fits _ hb.right_mem
    have hw : hd.phase.Written := Phase.written_of_resp? hresp hok'
    exact hc.cancels m hd hh hop.symm (.inr hw) ((linked_reach hr).acked m hd hh hw.acked)
  exact ⟨hget, hc.both k res hget⟩

/-! ## Prompt runs -/

/-- A cancel of `k` is on its way: the backup has stored it, and its answer is still to come. -/
def Cancelling (d : Deployment) (c : Cluster) (k : Key) : Prop :=
  ∃ n hd, c.primary.handlers (.client n) = some hd ∧ hd.request.key d.primary = k ∧
    hd.request.op = .cancel ∧ hd.phase.Sent ∧ c.Applied n

/-- Both nodes store every confirmed booking, up to a cancel that is on its way. -/
def CopiedUnlessCancelling (d : Deployment) (c : Cluster) : Prop :=
  ∀ k res, Booked d.primary c.primary.log k res →
    c.primary.reservations.get? k = some res ∧ c.backup.reservations.get? k = some res ∨
      Cancelling d c k

theorem prompt_inTime (he : prompt c e = true) : c.inTime e = true := by
  simp only [prompt, Bool.and_eq_true] at he
  exact he.1

theorem prompt_returned {o : Outcome} {hd : Handler}
    (he : prompt c (.act .primary (.client n) (.returned o)) = true) (ho : o ≠ .acked)
    (hh : c.primary.handlers (.client n) = some hd) (hop : hd.request.op = .cancel) :
    ¬ c.Applied n := by
  rintro ⟨hd', hh', hp⟩
  cases o with
  | acked => exact ho rfl
  | failed | raised =>
    simp only [prompt, hh, hh', Bool.and_eq_true, decide_eq_true_eq] at he
    exact he.2.elim (· hop) (· hp)

theorem Steps.sending_next (hs : Steps d c e c') {hd : Handler}
    (hh : c.primary.handlers (.client n) = some hd) (hp : hd.phase.Sending) :
    (∃ hd', c'.primary.handlers (.client n) = some hd' ∧ hd'.request = hd.request ∧
      hd'.phase.Sending) ∨ e = .act .primary (.client n) .store ∨
      ∃ o, o ≠ .acked ∧ e = .act .primary (.client n) (.returned o) := by
  cases hs with
  | requestPrimary m req p _ _ hs =>
    rcases (Node.step_spec hs).handler_next hh with hh' | ⟨a, q, he, -⟩
    · exact .inl ⟨hd, hh', rfl, hp⟩
    · simp at he
  | actPrimary h a p _ _ hs =>
    rcases (Node.step_spec hs).handler_next hh with hh' | ⟨a', q, he, ha, hh'⟩
    · exact .inl ⟨hd, hh', rfl, hp⟩
    · obtain ⟨rfl, rfl⟩ := Node.Event.act.inj he
      rcases ha.sending_next hh' hp with hp' | rfl | ⟨o, ho, rfl⟩
      · exact .inl ⟨_, hh', rfl, hp'⟩
      · exact .inr (.inl rfl)
      · exact .inr (.inr ⟨o, ho, rfl⟩)
  | _ => exact .inl ⟨hd, hh, rfl, hp⟩

/-- What the primary stores the backup stores too, or the primary is about to remove it. -/
def Kept (d : Deployment) (c : Cluster) : Prop :=
  ∀ k res, c.primary.reservations.get? k = some res → c.backup.reservations.get? k = some res ∨
    ∃ n hd, c.primary.handlers (.client n) = some hd ∧ hd.request.key d.primary = k ∧
      hd.request.op = .cancel ∧ hd.phase.Sending ∧ c.Applied n

section
variable (hr : Reach (step d) (fun c e => prompt c e) (start d) c)
include hr

theorem kept_backup (hk : Kept d c) (hs : Steps d c e c') (he : prompt c e = true)
    (hP : c'.primary = c.primary) : Kept d c' := by
  have hclients := (agreeing_reach (hr.mono fun _ _ he => prompt_inTime he)).clients
  intro k res hget
  rw [hP] at hget ⊢
  have hright : (∃ n hd, c.primary.handlers (.client n) = some hd ∧
      hd.request.key d.primary = k ∧ hd.request.op = .cancel ∧ hd.phase.Sending ∧ c.Applied n) →
      ∃ n hd, c.primary.handlers (.client n) = some hd ∧
        hd.request.key d.primary = k ∧ hd.request.op = .cancel ∧ hd.phase.Sending ∧
          c'.Applied n := by
    rintro ⟨n, hd, hh, hkey, hop, hp, ha⟩
    exact ⟨n, hd, hh, hkey, hop, hp, applied_step hs ha⟩
  rcases hs.backup_write with ⟨-, hstore⟩ | ⟨h, hdb, new, rfl, hhb, hw, hstore⟩
  · rw [hstore]
    exact (hk k res hget).imp_right hright
  · obtain ⟨m, msg, rfl, hsent, hreq, rfl⟩ := replica_writes (linked_reach hr) hclients hhb hw
    obtain ⟨hd, old, new, hh, hphase⟩ := pending_spec (inTime_pending (prompt_inTime he))
    obtain ⟨hd', hh', hop, hkey, -⟩ := (primary_history hr).fits _ hsent
    obtain rfl := Option.some.inj (hh.symm.trans hh')
    rw [hstore, get?_write, hreq, key_of_msg d.backup hkey]
    split_ifs with hkk
    · -- A booking is sent while the primary stores nothing, so this is a cancel.
      subst hkk
      have hexp := (Node.wf_reach (Node.wf_start _ _) (primary_reach hr)).found hh
        (by rw [hphase]; rfl)
      cases hop' : hd.request.op with
      | book =>
        rw [hop', hget] at hexp
        simp [Op.Expects] at hexp
      | cancel => exact .inr ⟨m, hd, hh, rfl, hop', by simp [hphase], applied_after hs⟩
    · exact (hk k res hget).imp_right hright

theorem kept_primary (hk : Kept d c) (hs : Steps d c e c') (he : prompt c e = true)
    (hB : c'.backup = c.backup) : Kept d c' := by
  have hag := agreeing_reach (hr.mono fun _ _ he => prompt_inTime he)
  have happ {n} (ha : c.Applied n) : c'.Applied n := by rwa [Applied, hB]
  intro k res hget
  rw [hB]
  rcases hs.onPrimary with hP | ⟨ev, -, hp, hev⟩
  · rw [hP] at hget ⊢
    rcases hk k res hget with hb | ⟨n, hd, hh, hkey, hop, hphase, ha⟩
    · exact .inl hb
    · exact .inr ⟨n, hd, hh, hkey, hop, hphase, happ ha⟩
  -- While nothing is written under `k`, a cancel of it stays on its way.
  have hkeep (hold : c.primary.reservations.get? k = some res)
      (hno : ∀ n hd, c.primary.handlers (.client n) = some hd → hd.request.key d.primary = k →
        ev ≠ .act (.client n) .store) :
      c.backup.reservations.get? k = some res ∨ ∃ n hd, c'.primary.handlers (.client n) = some hd ∧
        hd.request.key d.primary = k ∧ hd.request.op = .cancel ∧ hd.phase.Sending ∧
          c'.Applied n := by
    rcases hk k res hold with hb | ⟨n, hd, hh, hkey, hop, hphase, ha⟩
    · exact .inl hb
    · rcases hs.sending_next hh hphase with ⟨hd', hh', hreq, hp'⟩ | rfl | ⟨o, ho, rfl⟩
      · exact .inr ⟨n, hd', hh', hreq ▸ hkey, hreq ▸ hop, hp', happ ha⟩
      · exact absurd (hev _ _ rfl) (hno n hd hh hkey)
      · exact absurd ha (prompt_returned he ho hh hop)
  rcases (Node.step_spec hp).write k with ⟨hne, hstore, -⟩ | ⟨h, hd, new, hh, rfl, hw, hstore, -⟩
  · exact hkeep (hstore ▸ hget) fun n hd _ _ => hne _
  · obtain ⟨m, msg, rfl, hphase, hsent, hacked, heff⟩ := acked_write hr hh hw
    rw [hstore, get?_write] at hget
    split_ifs at hget with hkk
    · subst hkk
      have hlast := Node.last_sender rfl (primary_reach hr) hh hphase.sent
      rw [hag.applied _ m msg hlast hsent hacked, heff]
      exact .inl hget
    · refine hkeep hget fun n hd' hh' hkey heq => hkk ?_
      obtain ⟨hnm, -⟩ := Node.Event.act.inj heq
      obtain rfl := Thread.client.inj hnm
      obtain rfl := Option.some.inj (hh.symm.trans hh')
      exact hkey.symm

theorem kept_reach : Kept d c := by
  refine hr.invariant (P := Kept d) ?_ fun c e c' hr hk he hs => ?_
  · intro k res hget
    simp [start, Node.start] at hget
  · rcases (step_spec hs).sides with hP | hB
    · exact kept_backup hr hk (step_spec hs) he hP
    · exact kept_primary hr hk (step_spec hs) he hB

theorem copied_of_prompt : CopiedUnlessCancelling d c := by
  rintro k res ⟨n, msg, resp, hrec, hans, hok, hres, hkey, hno⟩
  by_cases hcancel : CancelledSince c.primary.log (.client n) resp k
  · -- The cancel has been written, so only its answer is missing.
    obtain ⟨m, old, res', hb⟩ := hcancel
    obtain ⟨hd, hh, hop, hk', resp', hresp, hok', -⟩ := (primary_history hr).fits _ hb.right_mem
    have hpast := (primary_history hr).past _ _ hh
    refine .inr ⟨m, hd, hh, hk'.symm, hop.symm, ?_,
      (linked_reach hr).acked m hd hh (Phase.written_of_resp? hresp hok').acked⟩
    cases hphase : hd.phase with
    | done resp'' =>
      obtain rfl : resp'' = resp' := by simpa [hphase] using hresp
      obtain ⟨req, phase⟩ := hd
      cases req with
      | cancel msg' =>
        exact (hno ⟨m, msg', resp'', hpast.received, hk'.symm, hok',
          Node.before_answered (primary_reach hr) hb (hpast.answered _ hphase)⟩).elim
      | book => simp [Request.op] at hop
      | applyReplication msg' =>
        have := Node.clients_reach (primary_run hr) _ _ hh
        simp [Request.IsClient] at this
    | leaving resp'' =>
      obtain rfl : resp'' = resp' := by simpa [hphase] using hresp
      exact hok'
    | _ => simp [hphase] at hresp
  · have hget := Node.keeps_reach (primary_reach hr) k res
      ⟨n, msg, resp, hrec, hans, hok, hres, hkey, hcancel⟩
    rcases kept_reach hr k res hget with hb | ⟨m, hd, hh, hk', hop, hp, ha⟩
    · exact .inl ⟨hget, hb⟩
    · exact .inr ⟨m, hd, hh, hk', hop, by cases hphase : hd.phase <;> simp_all, ha⟩

end

/-! ## Copies -/

/-- In a harmless run every confirmed booking is on both nodes. In a prompt one so is every
booking of which no cancel is on its way. -/
theorem copied : (Reach (step d) (fun c e => harmless d c e) (start d) c → Copied d c) ∧
    (Reach (step d) (fun c e => prompt c e) (start d) c → CopiedUnlessCancelling d c) :=
  ⟨copied_of_harmless, copied_of_prompt⟩

/-- One booking is confirmed, and another one is not although the backup has stored it. -/
def twoTables : List Event :=
  sends 0 (.book (dinner "T1" "Alice")) ++ applies 0 ++ confirms 0 ++
    sends 1 (.book (dinner "T2" "Bob")) ++ applies 1 ++ givesUp 1

/-- A booking is confirmed, and a cancel of it is on its way: the backup has stored that. -/
def cancelling : List Event :=
  sends 0 (.book (dinner "T1" "Alice")) ++ applies 0 ++ confirms 0 ++
    sends 1 (.cancel (dinner "T1" "Alice")) ++ applies 1

theorem copied_twoTables :
    (∃ c, exec (step urban) (start urban) twoTables = some c ∧ Copied urban c) ∧
      ∃ c, exec (step urban) (start urban) cancelling = some c ∧ CopiedUnlessCancelling urban c ∧
        dinnerKey "T1" ∈ c.primary.reservations.keys ∧
          dinnerKey "T1" ∉ c.backup.reservations.keys := by
  have hm : Meets (step urban) (fun c e => harmless urban c e) (start urban) twoTables := by decide
  have hm' : Meets (step urban) (fun c e => prompt c e) (start urban) cancelling := by decide
  exact ⟨⟨_, rfl, copied.1 (reach_of_exec hm rfl)⟩,
    ⟨_, rfl, copied.2 (reach_of_exec hm' rfl), by decide, by decide⟩⟩

/-- The backup stores a cancel, and its acknowledgement is lost. -/
def lostCancel : List Event :=
  sends 0 (.book (dinner "T1" "Alice")) ++ applies 0 ++ confirms 0 ++
    sends 1 (.cancel (dinner "T1" "Alice")) ++ applies 1 ++ givesUp 1

/-- The booking is still confirmed, and the backup has lost it. -/
theorem not_copied : ¬ ∀ (d : Deployment) (c : Cluster),
    Reach (step d) (fun _ e => clientsOnPrimary e) (start d) c → Copied d c := by
  intro hall
  have hm : Meets (step urban) (fun _ e => clientsOnPrimary e) (start urban) lostCancel := by decide
  have hcopied := hall urban _ (reach_of_exec hm rfl)
  have hboth := hcopied (dinnerKey "T1") (newReservation urbanPlates (dinner "T1" "Alice") 0 1)
    ⟨0, dinner "T1" "Alice", _, List.mem_of_getElem? (i := 0) rfl,
      List.mem_of_getElem? (i := 6) rfl, rfl, rfl, rfl, ?_⟩
  · exact absurd hboth.2 nofun
  · rintro ⟨m, msg, resp, hrec, -, hok, hb⟩
    -- The only cancel was answered with an error.
    have hm : m ∈ [1] := List.mem_filterMap.mpr ⟨_, hrec, (rfl : Entry.cancels? _ = some m)⟩
    obtain rfl := List.mem_singleton.mp hm
    have hresp : resp ∈ [errorAnswer "Backup replication failed"] :=
      List.mem_filterMap.mpr ⟨_, hb.right_mem, (rfl : Entry.answer? (.client 1) _ = some resp)⟩
    obtain rfl := List.mem_singleton.mp hresp
    simp at hok

end Cluster

end ReservationSystem
