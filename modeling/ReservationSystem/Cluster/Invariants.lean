import ReservationSystem.Cluster.Spec
import ReservationSystem.Node.Senders

/-!
# What holds of a cluster in every run

Each of the two nodes makes a run of its own, and what the primary counts as acknowledged
the backup has stored.
-/

namespace ReservationSystem

namespace Cluster

open Machine

variable {d : Deployment} {c c' : Cluster} {e : Event} {n : Nat}

/-! ## What one step can do -/

inductive Steps (d : Deployment) (c : Cluster) : Event → Cluster → Prop
  | requestPrimary (n : Nat) (req : Request) (p : Node) (alive : c.primaryAlive = true)
      (hc : req.IsClient) (hs : c.primary.step d.primary (.receive (.client n) req) = some p) :
      Steps d c (.request .primary n req) { c with primary := p }
  | requestBackup (n : Nat) (req : Request) (b : Node)
      (hc : req.IsClient) (hs : c.backup.step d.backup (.receive (.client n) req) = some b) :
      Steps d c (.request .backup n req) { c with backup := b }
  | actPrimary (h : Thread) (a : Action) (p : Node) (alive : c.primaryAlive = true)
      (hack : c.allows h a = true) (hs : c.primary.step d.primary (.act h a) = some p) :
      Steps d c (.act .primary h a) { c with primary := p }
  | actBackup (h : Thread) (a : Action) (b : Node)
      (hs : c.backup.step d.backup (.act h a) = some b) :
      Steps d c (.act .backup h a) { c with backup := b }
  | deliver (n : Nat) (msg : ReplicationMsg) (b : Node)
      (hsent : .sent (.client n) msg ∈ c.primary.log)
      (hs : c.backup.step d.backup (.receive (.replica n) (.applyReplication msg)) = some b) :
      Steps d c (.deliver n) { c with backup := b }
  | promote : Steps d c .promote { c with backup := c.backup.promoteToPrimary d.backup }
  | crash : Steps d c .crash { c with primaryAlive := false }

theorem onPrimary_spec {ev : Node.Event} (hs : c.onPrimary d ev = some c') :
    c.primaryAlive = true ∧ ∃ p, c.primary.step d.primary ev = some p ∧
      c' = { c with primary := p } := by
  unfold onPrimary at hs
  split_ifs at hs with halive
  obtain ⟨p, hp, rfl⟩ := Option.map_eq_some_iff.mp hs
  exact ⟨halive, p, hp, rfl⟩

theorem onBackup_spec {ev : Node.Event} (hs : c.onBackup d ev = some c') :
    ∃ b, c.backup.step d.backup ev = some b ∧ c' = { c with backup := b } := by
  obtain ⟨b, hb, rfl⟩ := Option.map_eq_some_iff.mp hs
  exact ⟨b, hb, rfl⟩

theorem sentBy_mem {msg : ReplicationMsg} (h : c.sentBy n = some msg) :
    .sent (.client n) msg ∈ c.primary.log := by
  obtain ⟨x, hx, hmsg⟩ := List.exists_of_findSome?_eq_some h
  split at hmsg
  · split_ifs at hmsg with hm
    subst hm
    obtain rfl := Option.some.inj hmsg
    exact hx
  · simp at hmsg

theorem step_spec (hs : c.step d e = some c') : Steps d c e c' := by
  unfold step at hs
  split at hs
  case h_1 n req =>
    split_ifs at hs with hc
    obtain ⟨halive, p, hp, rfl⟩ := onPrimary_spec hs
    exact .requestPrimary n req p halive hc hp
  case h_2 n req =>
    split_ifs at hs with hc
    obtain ⟨b, hb, rfl⟩ := onBackup_spec hs
    exact .requestBackup n req b hc hb
  case h_3 h a =>
    split_ifs at hs with hack
    obtain ⟨halive, p, hp, rfl⟩ := onPrimary_spec hs
    exact .actPrimary h a p halive hack hp
  case h_4 h a =>
    obtain ⟨b, hb, rfl⟩ := onBackup_spec hs
    exact .actBackup h a b hb
  case h_5 n =>
    obtain ⟨msg, hmsg, hs⟩ := Option.bind_eq_some_iff.mp hs
    obtain ⟨b, hb, rfl⟩ := onBackup_spec hs
    exact .deliver n msg b (sentBy_mem hmsg) hb
  case h_6 =>
    obtain ⟨b, hb, rfl⟩ := onBackup_spec hs
    obtain rfl := Option.some.inj hb
    exact .promote
  case h_7 =>
    obtain rfl := Option.some.inj hs
    exact .crash

/-! ## One side at a time -/

theorem Steps.sides (hs : Steps d c e c') : c'.primary = c.primary ∨ c'.backup = c.backup := by
  cases hs <;> simp

/-- The backup's store changes when one of its handlers writes. -/
theorem Steps.backup_write (hs : Steps d c e c') :
    ((∀ h, e ≠ .act .backup h .store) ∧ c'.backup.reservations = c.backup.reservations) ∨
      ∃ h hd res, e = .act .backup h .store ∧ c.backup.handlers h = some hd ∧ hd.Writes res ∧
        c'.backup.reservations =
          hd.request.op.write c.backup.reservations (hd.request.key d.backup) res := by
  have hnode {ev b} (hs : c.backup.step d.backup ev = some b) :=
    (Node.step_spec hs).write ("", "", "")
  cases hs with
  | requestBackup n req b _ hs | deliver n req b _ hs =>
    rcases hnode hs with ⟨-, h, -⟩ | ⟨h, hd, res, hh, he, -⟩
    · exact .inl ⟨nofun, h⟩
    · simp at he
  | actBackup h a b hs =>
    rcases hnode hs with ⟨hne, h, -⟩ | ⟨h, hd, res, hh, he, hw, hstore, -⟩
    · refine .inl ⟨fun h he => hne h ?_, h⟩
      obtain ⟨-, rfl, rfl⟩ := Event.act.inj he
      rfl
    · obtain ⟨rfl, rfl⟩ := Node.Event.act.inj he
      exact .inr ⟨_, hd, res, rfl, hh, hw, hstore⟩
  | promote => exact .inl ⟨nofun, Node.promote_reservations _ _⟩
  | _ => exact .inl ⟨nofun, rfl⟩

/-! ## The runs of the nodes -/

theorem Steps.onPrimary (hs : Steps d c e c') : c'.primary = c.primary ∨
    ∃ ev, Node.OnPrimary ev ∧ c.primary.step d.primary ev = some c'.primary ∧
      ∀ h a, e = .act .primary h a → ev = .act h a := by
  cases hs with
  | requestPrimary n req p _ hc hs => exact .inr ⟨.receive (.client n) req, hc, hs, nofun⟩
  | actPrimary h a p _ _ hs =>
    refine .inr ⟨.act h a, trivial, hs, fun h' a' he => ?_⟩
    obtain ⟨-, rfl, rfl⟩ := Event.act.inj he
    rfl
  | _ => exact .inl rfl

theorem Steps.onBackup (hs : Steps d c e c') : c'.backup = c.backup ∨
    ∃ ev, Node.Addressed ev ∧ c.backup.step d.backup ev = some c'.backup := by
  cases hs with
  | requestBackup n req b hc hs => exact .inr ⟨.receive (.client n) req, hc, hs⟩
  | actBackup h a b hs => exact .inr ⟨.act h a, trivial, hs⟩
  | deliver n msg b _ hs => exact .inr ⟨.receive (.replica n) (.applyReplication msg), id, hs⟩
  | promote => exact .inr ⟨.promote, trivial, rfl⟩
  | _ => exact .inl rfl

section
variable {C : Cluster → Event → Prop}

theorem primary_reach (hr : Reach (step d) C c c') : Reach (Node.step d.primary)
    (fun _ e => Node.OnPrimary e) c.primary c'.primary :=
  hr.project Cluster.primary fun _ _ _ _ _ hs => by
    rcases (step_spec hs).onPrimary with heq | ⟨ev, hev, hp, -⟩
    · exact .inl heq
    · exact .inr ⟨ev, hev, hp⟩

theorem backup_reach (hr : Reach (step d) C c c') : Reach (Node.step d.backup)
    (fun _ e => Node.Addressed e) c.backup c'.backup :=
  hr.project Cluster.backup fun _ _ _ _ _ hs => (step_spec hs).onBackup

end

/-! ## Messages and acknowledgements -/

/-- The backup has stored what `client n` of the primary sent. -/
def Applied (c : Cluster) (n : Nat) : Prop :=
  ∃ hd, c.backup.handlers (.replica n) = some hd ∧ hd.phase.Written

structure Linked (c : Cluster) : Prop where
  replicates : c.primary.replicates = true
  /-- The backup receives what the primary has sent, and from clients what clients send. -/
  messages : ∀ n hd, c.backup.handlers (.replica n) = some hd →
    ∃ msg, hd.request = .applyReplication msg ∧ .sent (.client n) msg ∈ c.primary.log
  /-- What the primary counts as acknowledged is stored. -/
  acked : ∀ n hd, c.primary.handlers (.client n) = some hd → hd.phase.Acked → c.Applied n

theorem linked_start (d : Deployment) : Linked (start d) where
  replicates := rfl
  messages n hd hh := by simp [start, Node.start] at hh
  acked n hd hh := by simp [start, Node.start] at hh

theorem acknowledges_spec (h : c.acknowledges n = true) : c.Applied n := by
  unfold acknowledges at h
  split at h
  case h_1 req resp hh => exact ⟨_, hh, by simpa using h⟩
  case h_2 => simp at h

theorem applied_step (hs : Steps d c e c') (ha : c.Applied n) : c'.Applied n := by
  obtain ⟨hd, hh, hp⟩ := ha
  rcases hs.onBackup with heq | ⟨ev, -, hb⟩
  · exact ⟨hd, heq ▸ hh, hp⟩
  · rcases (Node.step_spec hb).handler_next hh with hh' | ⟨a, p, -, ha, hh'⟩
    · exact ⟨hd, hh', hp⟩
    · exact ⟨_, hh', ha.written_after hh' hp⟩

theorem Steps.primary_log (hs : Steps d c e c') : c.primary.log ⊆ c'.primary.log := by
  rcases hs.onPrimary with heq | ⟨ev, -, hp, -⟩
  · rw [heq]
    exact fun _ h => h
  · obtain ⟨es, hes⟩ := (Node.step_spec hp).log_append
    rw [hes]
    exact List.subset_append_left _ _

theorem messages_step (hl : Linked c) (hs : Steps d c e c') {hd : Handler}
    (hh : c'.backup.handlers (.replica n) = some hd) :
    ∃ msg, hd.request = .applyReplication msg ∧ .sent (.client n) msg ∈ c'.primary.log := by
  have hlog := hs.primary_log
  -- A handler of the backup is an old one, or the message that it is for has just come in.
  have hold : (∃ hd', c.backup.handlers (.replica n) = some hd' ∧ hd'.request = hd.request) ∨
      ∃ msg, hd.request = .applyReplication msg ∧ .sent (.client n) msg ∈ c.primary.log := by
    cases hs with
    | requestBackup m req b _ hs | actBackup h a b hs =>
      rcases (Node.step_spec hs).handler hh with hh | ⟨-, he, -⟩ | ⟨hd', a, p, -, hh', -, rfl⟩
      · exact .inl ⟨hd, hh, rfl⟩
      · simp at he
      · exact .inl ⟨hd', hh', rfl⟩
    | deliver m msg b hsent hs =>
      rcases (Node.step_spec hs).handler hh with hh | ⟨-, he, -⟩ | ⟨hd', a, p, -, hh', -, rfl⟩
      · exact .inl ⟨hd, hh, rfl⟩
      · obtain ⟨hm, hreq⟩ := Node.Event.receive.inj he
        obtain rfl := Thread.replica.inj hm
        exact .inr ⟨msg, hreq.symm, hsent⟩
      · exact .inl ⟨hd', hh', rfl⟩
    | promote => exact .inl ⟨hd, by rwa [Node.promote_handlers] at hh, rfl⟩
    | _ => exact .inl ⟨hd, hh, rfl⟩
  rcases hold with ⟨hd', hh', hreq⟩ | ⟨msg, hreq, hsent⟩
  · obtain ⟨msg, hmsg, hsent⟩ := hl.messages n hd' hh'
    exact ⟨msg, hreq.symm.trans hmsg, hlog hsent⟩
  · exact ⟨msg, hreq, hlog hsent⟩

theorem acked_step (hl : Linked c) (hclient : ∀ h hd, c.primary.handlers h = some hd →
      hd.request.IsClient) (hs : Steps d c e c') {hd : Handler}
    (hh : c'.primary.handlers (.client n) = some hd) (hp : hd.phase.Acked) : c.Applied n := by
  cases hs with
  | requestPrimary m req p _ _ hs =>
    rcases (Node.step_spec hs).handler_earned Phase.acked_earned hh hp with hh | ⟨hd', a, p, he, -⟩
    · exact hl.acked n hd hh hp
    · simp at he
  | actPrimary h a p _ hack hs =>
    rcases (Node.step_spec hs).handler hh with hh | ⟨-, he, -⟩ | ⟨hd', a', q, he, hh', ha, rfl⟩
    · exact hl.acked n hd hh hp
    · simp at he
    · obtain ⟨rfl, rfl⟩ := Node.Event.act.inj he
      rcases ha.acked_before hh hl.replicates (hclient _ _ hh') hp with hp' | rfl
      · exact hl.acked n hd' hh' hp'
      · exact acknowledges_spec hack
  | _ => exact hl.acked n hd hh hp

theorem applied_after (hs : Steps d c (.act .backup (.replica n) .store) c') : c'.Applied n := by
  cases hs with
  | actBackup h a b hs =>
    obtain ⟨hd, hh, -⟩ := Option.bind_eq_some_iff.mp hs
    rcases (Node.step_spec hs) with _ | _ | ⟨_, hd, _, _, hh, ha⟩
    obtain ⟨p, hp⟩ := ha.handlers_self
    exact ⟨_, hp, ha.stores hp⟩

theorem applied_before (hl : Linked c) (hs : Steps d c e c') (ha : c'.Applied n) :
    c.Applied n ∨ e = .act .backup (.replica n) .store := by
  obtain ⟨hd', hh', hp⟩ := ha
  have hnew {ev b} (hs : c.backup.step d.backup ev = some b)
      (hh' : b.handlers (.replica n) = some hd') :
      c.Applied n ∨ ev = .act (.replica n) .store := by
    rcases (Node.step_spec hs).handler_earned Phase.written_earned hh' hp with
      hh | ⟨hd, a, p, rfl, hh, ha, rfl⟩
    · exact .inl ⟨hd', hh, hp⟩
    · obtain ⟨msg, hreq, -⟩ := hl.messages n hd hh
      rcases ha.written_before hh' hp with hp | rfl
      · exact .inl ⟨hd, hh, hp⟩
      · exact .inr rfl
  cases hs with
  | requestBackup m req b _ hs | deliver m req b _ hs =>
    exact (hnew hs hh').imp_right fun he => by simp at he
  | actBackup h a b hs =>
    refine (hnew hs hh').imp_right fun he => ?_
    obtain ⟨rfl, rfl⟩ := Node.Event.act.inj he
    rfl
  | promote => exact .inl ⟨hd', by rwa [Node.promote_handlers] at hh', hp⟩
  | _ => exact .inl ⟨hd', hh', hp⟩

theorem linked_step (hl : Linked c) (hclient : ∀ h hd, c.primary.handlers h = some hd →
      hd.request.IsClient) (hs : Steps d c e c') : Linked c' where
  replicates := by
    rcases hs.onPrimary with heq | ⟨ev, hev, hp, -⟩
    · rw [heq]
      exact hl.replicates
    · exact Node.replicates_step (Node.step_spec hp) hev hl.replicates
  messages n hd hh := messages_step hl hs hh
  acked n hd hh hp := applied_step hs (acked_step hl hclient hs hh hp)

section
variable {C : Cluster → Event → Prop} (hr : Reach (step d) C (start d) c)
include hr

theorem primary_run : Reach (Node.step d.primary) (fun _ e => Node.NoReplication e)
    (Node.start d.primary false) c.primary :=
  (primary_reach hr).mono fun _ _ he => he.noReplication

theorem linked_reach : Linked c :=
  hr.invariant (linked_start d) fun _ _ _ hr hl _ hs =>
    linked_step hl (Node.clients_reach (primary_run hr)) (step_spec hs)

end

end Cluster

end ReservationSystem
