import ReservationSystem.Cluster.Mirror
import ReservationSystem.Node.Linearizable

/-!
# Two nodes, one ledger

A crash changes nothing that a client can see. What the primary and then the backup answer is
what one map of reservations answers.
-/

namespace ReservationSystem

open Atomic Machine

/-- What a client sees of the node on that side. -/
def Side.mark? (side : Side) :
    Atomic.Mark Thread Request Response → Option (Atomic.Mark (Side × Nat) Request Response)
  | .invoked (.client n) req => some (.invoked (side, n) req)
  | .returned (.client n) resp => some (.returned (side, n) resp)
  | _ => none

def Side.marks (side : Side) (s : Node) : List (Atomic.Mark (Side × Nat) Request Response) :=
  s.history.filterMap side.mark?

/-- The handler as it will answer, now that its message is stored. -/
def Handler.effected (hd : Handler) : Handler :=
  match hd.phase with
  | .replicating _ res | .replicated _ res =>
    { hd with phase := .leaving (hd.request.confirmation res) }
  | _ => hd

theorem Handler.effected_of_resp? {hd : Handler} (hr : hd.phase.resp? ≠ none) :
    hd.effected = hd := by
  obtain ⟨req, p⟩ := hd
  cases p <;> first | rfl | exact absurd rfl hr

/-- A write that has taken effect has one answer to come. -/
theorem Node.act_effected {cfg : Service} {s s' : Node} {h : Thread} {req : Request} {p q : Phase}
    {a : Action} (hc : req.IsClient) (hp : p.Sending) (hno : ∀ o, a = .returned o → o = .acked)
    (hact : s.act cfg h ⟨req, p⟩ a = some s') (hh' : s'.handlers h = some ⟨req, q⟩) :
    Handler.effected ⟨req, q⟩ = Handler.effected ⟨req, p⟩ ∧ ∀ resp, q ≠ .done resp := by
  cases Node.act_spec hact with
  | acked old res hphase =>
    obtain rfl : p = .replicating old res := hphase
    obtain rfl := congrArg Handler.phase (handler_moved s h hh')
    exact ⟨rfl, by simp⟩
  | refused o resp old res hphase ho => exact absurd (hno o rfl) ho
  | store old res resp _ hphase =>
    obtain rfl : p = .replicated old res := hphase
    rw [Node.act_store hc] at hact
    rw [← Option.some.inj hact] at hh'
    obtain rfl := congrArg Handler.phase (handler_moved s h hh')
    exact ⟨rfl, by simp⟩
  | _ => simp_all

namespace Cluster

variable {d : Deployment} {c c' : Cluster} {e : Event} {n : Nat} {k : Key}

/-- The clients' requests and their answers. No client comes to the backup before the primary
has crashed. -/
def history (c : Cluster) : List (Atomic.Mark (Side × Nat) Request Response) :=
  Side.primary.marks c.primary ++ Side.backup.marks c.backup

/-- The handler of an operation. On the primary it is as far as the backup has taken it. -/
def operation (c : Cluster) : Side × Nat → Option Handler
  | (.primary, n) =>
    (c.primary.handlers (.client n)).map fun hd =>
      if c.backup.wrote (.replica n) then hd.effected else hd
  | (.backup, n) => c.backup.handlers (.client n)

/-- The two nodes take one request in the same way. -/
theorem applies_primary {l v : Ledger} {req : Request} {resp : Response}
    (h : Ledger.Applies d.backup l req resp v) : Ledger.Applies d.primary l req resp v := by
  cases h with
  | refused _ hpre => exact .refused resp hpre
  | timedOut hpre => exact .timedOut hpre
  | conflict hpre hc hno => exact .conflict hpre hc hno
  | unreplicated o hpre hc ho hyes => exact .unreplicated o hpre hc ho hyes
  | written now ts res hpre hyes hres => exact .written now ts res hpre hyes hres

/-! ## What a step shows -/

theorem marks_phase (side : Side) (h : Thread) (p : Phase) :
    (p.marks h).filterMap side.mark? =
      match h with
      | .client n => p.marks (side, n)
      | .replica _ => [] := by
  cases p <;> cases h <;> rfl

theorem silent {cfg : Service} {s : Node} (hi : Node.History cfg s) (side : Side)
    (hclients : ∀ n, s.handlers (.client n) = none) : side.marks s = [] := by
  simp only [Side.marks, Node.history, List.filterMap_filterMap, List.filterMap_eq_nil_iff]
  intro x hx
  obtain ⟨hd, hh, -⟩ := hi.fits x hx
  cases x with
  | received h req | answered h resp =>
    cases h with
    | client n => simp [Entry.thread, hclients] at hh
    | replica n => rfl
  | _ => rfl

/-! ## Keeping step -/

/-- The cluster is as far as the map. -/
structure Follows (d : Deployment) (c : Cluster)
    (b : State Ledger (Side × Nat) Request Response) : Prop where
  value : b.value = c.backup.reservations.get?
  progress : ∀ i, b.progress i = progressOf (c.operation i)
  history : b.history = c.history

section
variable {b : State Ledger (Side × Nat) Request Response} {i : Side × Nat}
  {x : Progress Request Response} {marks : List (Atomic.Mark (Side × Nat) Request Response)}

theorem follows_start (d : Deployment) :
    Follows d (start d) (State.start (ledger d.primary)) where
  value := rfl
  progress i := by
    obtain ⟨_ | _, n⟩ := i <;> rfl
  history := rfl

/-- Only operation `i` has got on. -/
theorem Follows.next (hf : Follows d c b)
    (hadv : Advances (ledger d.primary) b i x c'.backup.reservations.get? marks)
    (hne : ∀ j, j ≠ i → c'.operation j = c.operation j) (hx : x = progressOf (c'.operation i))
    (hhist : c'.history = c.history ++ marks) :
    ∃ b', Atomic.Steps (ledger d.primary) b b' ∧ Follows d c' b' := by
  obtain ⟨b', hs, hv, hp, hm⟩ := hadv.exists_steps hf.progress
    (fun j heq => congrArg progressOf (hne j heq)) hx.symm
  exact ⟨b', hs, hv, hp, by rw [hm, hf.history, hhist]⟩

/-- Nothing that a client sees. -/
theorem Follows.stay (hf : Follows d c b)
    (hv : c'.backup.reservations = c.backup.reservations)
    (hp : ∀ i, progressOf (c'.operation i) = progressOf (c.operation i))
    (hhist : c'.history = c.history) :
    ∃ b', Atomic.Steps (ledger d.primary) b b' ∧ Follows d c' b' :=
  ⟨b, .refl, by rw [hv, hf.value], fun i => by rw [hp, hf.progress], by rw [hhist, hf.history]⟩

/-! ## Steps of the backup -/

theorem operation_primary {m : Nat} (hP : c'.primary = c.primary)
    (hw : c'.backup.wrote (.replica m) = c.backup.wrote (.replica m)) :
    c'.operation (.primary, m) = c.operation (.primary, m) := by
  simp only [operation, hP, hw]

theorem history_backup {marks : List (Atomic.Mark (Side × Nat) Request Response)}
    {news : List (Atomic.Mark Thread Request Response)} (hP : c'.primary = c.primary)
    (hh : c'.backup.history = c.backup.history ++ news)
    (hm : news.filterMap Side.backup.mark? = marks) : c'.history = c.history ++ marks := by
  simp only [history, Side.marks, hP, hh, List.filterMap_append, hm, List.append_assoc]

/-- A step of the backup in which no message is stored. -/
theorem wrote_same {ev : Node.Event} {h : Thread} (hb : Node.Steps d.backup c.backup ev c'.backup)
    (hne : ev ≠ .act h .store) : c'.backup.wrote h = c.backup.wrote h := by
  rw [Bool.eq_iff_iff]
  exact ⟨fun hw => (Node.wrote_before hb hw).resolve_right hne, Node.wrote_after hb⟩

theorem operation_backup (hP : c'.primary = c.primary)
    (hne : ∀ h, h ≠ .client n → c'.backup.handlers h = c.backup.handlers h) (j : Side × Nat)
    (hj : j ≠ (.backup, n)) : c'.operation j = c.operation j := by
  obtain ⟨_ | _, m⟩ := j
  · exact operation_primary hP (by simp only [Node.wrote, hne (.replica m) nofun])
  · apply hne
    rintro ⟨⟩
    exact hj rfl

theorem follows_requestBackup (hf : Follows d c b) (hP : c'.primary = c.primary) {req : Request}
    (hs : Node.Steps d.backup c.backup (.receive (.client n) req) c'.backup) :
    ∃ b', Atomic.Steps (ledger d.primary) b b' ∧ Follows d c' b' := by
  obtain ⟨hnew, hh, hres, hhist⟩ := hs.receives
  have hb : b.progress (.backup, n) = .fresh := by rw [hf.progress, operation, hnew]; rfl
  have hadv : Advances (ledger d.primary) b (.backup, n)
      (progressOf (some ⟨req, d.primary.intake req⟩)) b.value
      (.invoked (.backup, n) req :: (d.primary.intake req).marks (.backup, n)) := advances_intake hb
  rw [hf.value, ← hres] at hadv
  refine hf.next hadv (operation_backup hP fun h hne => ?_) ?_ (history_backup hP hhist ?_)
  · rw [hh, Function.update_of_ne hne]
  · rw [operation, hh, Function.update_self]
    rfl
  · rw [List.filterMap_cons, marks_phase]
    rfl

/-- A step of the backup that no client sees. -/
theorem follows_unseen {ev : Node.Event} {news : List (Atomic.Mark Thread Request Response)}
    (hf : Follows d c b) (hP : c'.primary = c.primary)
    (hs : Node.Steps d.backup c.backup ev c'.backup) (hne : ∀ m, ev ≠ .act (.replica m) .store)
    (hclient : ∀ m, c'.backup.handlers (.client m) = c.backup.handlers (.client m))
    (hres : c'.backup.reservations = c.backup.reservations)
    (hhist : c'.backup.history = c.backup.history ++ news)
    (hnews : news.filterMap Side.backup.mark? = []) :
    ∃ b', Atomic.Steps (ledger d.primary) b b' ∧ Follows d c' b' := by
  refine hf.stay hres (fun i => ?_) ?_
  · obtain ⟨_ | _, m⟩ := i
    · rw [operation_primary hP (wrote_same hs (hne m))]
    · simp only [operation, hclient m]
  · rw [history_backup hP hhist hnews, List.append_nil]

theorem follows_deliver (hf : Follows d c b) (hP : c'.primary = c.primary) {req : Request}
    (hs : Node.Steps d.backup c.backup (.receive (.replica n) req) c'.backup) :
    ∃ b', Atomic.Steps (ledger d.primary) b b' ∧ Follows d c' b' := by
  obtain ⟨-, hh, hres, hhist⟩ := hs.receives
  refine follows_unseen hf hP hs (by simp) (fun m => ?_) hres hhist ?_
  · rw [hh, Function.update_of_ne (by simp)]
  · rw [List.filterMap_cons, marks_phase]
    rfl

theorem follows_promote (hf : Follows d c b) (hP : c'.primary = c.primary)
    (hB : c'.backup = c.backup.promoteToPrimary d.backup) :
    ∃ b', Atomic.Steps (ledger d.primary) b b' ∧ Follows d c' b' := by
  have hs : Node.Steps d.backup c.backup .promote c'.backup := hB ▸ .promote
  have hhist : c'.backup.history = c.backup.history ++ [] := by
    rw [hB, Node.history, Node.promote_log, List.append_nil, Node.history]
  refine follows_unseen hf hP hs (by simp) (fun m => ?_) ?_ hhist rfl
  · rw [hB, Node.promote_handlers]
  · rw [hB, Node.promote_reservations]

theorem follows_actReplica (hf : Follows d c b) (hP : c'.primary = c.primary) {hd : Handler}
    {a : Action} (hh : c.backup.handlers (.replica n) = some hd)
    (ha : Node.Acts d.backup c.backup (.replica n) hd a c'.backup) (hne : a ≠ .store) :
    ∃ b', Atomic.Steps (ledger d.primary) b b' ∧ Follows d c' b' := by
  obtain ⟨q, hh'⟩ := ha.handlers_self
  refine follows_unseen hf hP (.act _ hd a _ hh ha) (fun m heq => ?_) (fun m => ?_)
    (ha.reservations_eq hne) (ha.history hh') (marks_phase ..)
  · exact hne (Node.Event.act.inj heq).2
  · exact ha.handlers_ne (by simp)

section
variable {C : Cluster → Event → Prop} (hr : Reach (step d) C (start d) c)
include hr

theorem follows_actClient (hf : Follows d c b) (hP : c'.primary = c.primary) {req : Request}
    {p : Phase} {a : Action} (hh : c.backup.handlers (.client n) = some ⟨req, p⟩)
    (hact : c.backup.act d.backup (.client n) ⟨req, p⟩ a = some c'.backup) :
    ∃ b', Atomic.Steps (ledger d.primary) b b' ∧ Follows d c' b' := by
  have hb : Reach (Node.step d.backup) _ (Node.start d.backup true) c.backup := backup_reach hr
  have ha := Node.act_spec hact
  obtain ⟨q, hh'⟩ := ha.handlers_self
  replace hh' : c'.backup.handlers (.client n) = some ⟨req, q⟩ := hh'
  have hadv : Advances (ledger d.primary) b (.backup, n) (progressOf (some ⟨req, q⟩))
      c'.backup.reservations.get? (q.marks (.backup, n)) := by
    refine advances_phase (by rw [hf.progress, operation, hh]) (fun hr => ?_)
      (fun resp hp => (ha.over hh' hp).1) fun resp hp hr => ?_
    · rw [hf.value, ha.reservations_stay hh' hr]
    · rw [hf.value]
      exact applies_primary (Node.act_applies (Node.wf_reach (Node.wf_start _ _) hb)
        (Node.stamped_reach hb) (Node.admitted_reach hb hh hp) hh hact hp hh' hr)
  exact hf.next hadv (operation_backup hP fun h hne => ha.handlers_ne hne)
    (by rw [operation, hh']) (history_backup hP (ha.history hh') (marks_phase ..))

end

theorem operation_unstored {hd : Handler} (hh : c.primary.handlers (.client n) = some hd)
    (hno : ¬ c.Applied n) : c.operation (.primary, n) = some hd := by
  have hw : c.backup.wrote (.replica n) ≠ true := fun hw => hno (Node.wrote_iff.mp hw)
  simp [operation, hh, hw]

theorem operation_stored {hd : Handler} (hh : c.primary.handlers (.client n) = some hd)
    (ha : c.Applied n) : c.operation (.primary, n) = some hd.effected := by
  have hw : c.backup.wrote (.replica n) = true := Node.wrote_iff.mpr ha
  simp [operation, hh, hw]

section
variable (hr : Reach (step d) (fun c e => orderly d c e) (start d) c)
include hr

/-- What the primary's handler has found is what the backup overwrites. -/
theorem overwritten {hd : Handler} (he : orderly d c (.act .backup (.replica n) .store) = true)
    (hh : c.primary.handlers (.client n) = some hd) (hl : hd.phase.HoldsLock)
    (hno : ¬ c.Applied n) : c.backup.reservations.get? (hd.request.key d.primary) =
      c.primary.reservations.get? (hd.request.key d.primary) := by
  rcases (orderly_store he).2 with halive | hsame
  · exact (mirrored_reach hr halive).found hr hh hl hno
  · exact sameUnder_spec hsame hh

/-- The write of a client of the primary takes effect. -/
theorem follows_store (hf : Follows d c b) (hP : c'.primary = c.primary)
    (hs : Steps d c (.act .backup (.replica n) .store) c')
    (he : orderly d c (.act .backup (.replica n) .store) = true) {hdb : Handler}
    (hhb : c.backup.handlers (.replica n) = some hdb)
    (ha : Node.Acts d.backup c.backup (.replica n) hdb .store c'.backup) :
    ∃ b', Atomic.Steps (ledger d.primary) b b' ∧ Follows d c' b' := by
  obtain ⟨⟨req, p⟩, msg, old, hh, rfl, -, hop, hno, hget⟩ := stores hr hs (orderly_store he).1
  have hsame := overwritten hr he hh trivial hno
  have hw := primary_wf hr
  have hc : req.IsClient := Node.clients_reach (primary_run hr) _ _ hh
  have hb : b.progress (.primary, n) = .pending req := by
    rw [hf.progress, operation_unstored hh hno]
    rfl
  have happ : Ledger.Applies d.primary b.value req (req.confirmation msg.reservation)
      c'.backup.reservations.get? := by
    obtain ⟨now, ts, hrecord⟩ := Node.stamped_reach (primary_reach hr) _ _ old msg.reservation hh
      hc rfl rfl
    rw [hf.value, hget, ReplicationMsg.effect, hop]
    refine .written now ts msg.reservation (Node.admitted_reach (primary_reach hr) hh rfl)
      (fun _ => ?_) ?_
    · rw [hsame]
      exact hw.found hh rfl
    · rw [hsame, hw.seen _ _ old hh rfl]
      exact hrecord
  obtain ⟨q, hhb'⟩ := ha.handlers_self
  refine hf.next (advances_happen hb happ) (fun j hj => ?_) ?_
    (history_backup hP (ha.history hhb') ?_)
  · obtain ⟨_ | _, m⟩ := j
    · refine operation_primary hP (wrote_same (.act _ hdb .store _ hhb ha) fun heq => hj ?_)
      obtain ⟨hnm, -⟩ := Node.Event.act.inj heq
      obtain rfl := Thread.replica.inj hnm
      rfl
    · exact ha.handlers_ne (by simp)
  · rw [← hP] at hh
    rw [operation_stored hh (applied_after hs)]
    rfl
  · exact marks_phase ..

/-! ## Steps of the primary -/

theorem history_primary (halive : c.primaryAlive = true)
    {marks : List (Atomic.Mark (Side × Nat) Request Response)}
    {news : List (Atomic.Mark Thread Request Response)} (hB : c'.backup = c.backup)
    (hh : c'.primary.history = c.primary.history ++ news)
    (hm : news.filterMap Side.primary.mark? = marks) : c'.history = c.history ++ marks := by
  have hquiet : Side.backup.marks c.backup = [] :=
    silent (Node.history_reach (Node.history_start _ _) (backup_reach hr)) _
      (mirrored_reach hr halive).clients
  rw [history, history, hB, hquiet, List.append_nil, List.append_nil, Side.marks, hh,
    List.filterMap_append, hm]
  rfl

omit hr in
theorem operation_other (hB : c'.backup = c.backup)
    (hne : ∀ h, h ≠ .client n → c'.primary.handlers h = c.primary.handlers h) (j : Side × Nat)
    (hj : j ≠ (.primary, n)) : c'.operation j = c.operation j := by
  obtain ⟨_ | _, m⟩ := j
  · have hm : Thread.client m ≠ .client n := by
      rintro ⟨⟩
      exact hj rfl
    simp only [operation, hB, hne _ hm]
  · simp only [operation, hB]

theorem follows_requestPrimary (hf : Follows d c b) (halive : c.primaryAlive = true)
    (hB : c'.backup = c.backup) {req : Request}
    (hs : Node.Steps d.primary c.primary (.receive (.client n) req) c'.primary) :
    ∃ b', Atomic.Steps (ledger d.primary) b b' ∧ Follows d c' b' := by
  obtain ⟨hnew, hh, -, hhist⟩ := hs.receives
  have hb : b.progress (.primary, n) = .fresh := by rw [hf.progress, operation, hnew]; rfl
  have hadv : Advances (ledger d.primary) b (.primary, n)
      (progressOf (some ⟨req, d.primary.intake req⟩)) b.value
      (.invoked (.primary, n) req :: (d.primary.intake req).marks (.primary, n)) :=
    advances_intake hb
  rw [hf.value, ← hB] at hadv
  refine hf.next hadv (operation_other hB fun h hne => ?_) ?_
    (history_primary hr halive hB hhist ?_)
  · rw [hh, Function.update_of_ne hne]
  · have heff : Handler.effected ⟨req, d.primary.intake req⟩ = ⟨req, d.primary.intake req⟩ := by
      unfold Service.intake
      split <;> rfl
    rw [operation, hh, Function.update_self, Option.map_some, heff, ite_self]
  · rw [List.filterMap_cons, marks_phase]
    rfl

/-- A handler whose write has taken effect comes to its answer. -/
theorem follows_effected (hf : Follows d c b) (halive : c.primaryAlive = true)
    (hB : c'.backup = c.backup) {req : Request} {p : Phase} {a : Action}
    (he : orderly d c (.act .primary (.client n) a) = true)
    (hh : c.primary.handlers (.client n) = some ⟨req, p⟩)
    (hact : c.primary.act d.primary (.client n) ⟨req, p⟩ a = some c'.primary)
    (happ : c.Applied n) (hp : p.Sending) :
    ∃ b', Atomic.Steps (ledger d.primary) b b' ∧ Follows d c' b' := by
  have ha := Node.act_spec hact
  have hc : req.IsClient := Node.clients_reach (primary_run hr) _ _ hh
  obtain ⟨q, hh'⟩ := ha.handlers_self
  replace hh' : c'.primary.handlers (.client n) = some ⟨req, q⟩ := hh'
  have hno (o : Outcome) (ho : a = .returned o) : o = .acked := by
    subst ho
    by_contra hne
    exact orderly_returned he hne happ
  obtain ⟨heff, hdone⟩ := Node.act_effected hc hp hno hact hh'
  have hmarks : q.marks (Side.primary, n) = [] := by
    cases q <;> first | rfl | exact absurd rfl (hdone _)
  refine hf.stay (by rw [hB]) (fun i => ?_) ?_
  · by_cases hi : i = (.primary, n)
    · have happ' : c'.Applied n := by rwa [Applied, hB]
      rw [hi, operation_stored hh happ, operation_stored hh' happ', heff]
    · rw [operation_other hB (fun h hne => ha.handlers_ne hne) i hi]
  · rw [history_primary hr halive hB (ha.history hh') (marks_phase ..)]
    exact (congrArg _ hmarks).trans (List.append_nil _)

/-- Any other handler of the primary decides for itself. -/
theorem follows_actPrimary (hf : Follows d c b) (halive : c.primaryAlive = true)
    (hB : c'.backup = c.backup) {req : Request} {p : Phase} {a : Action}
    (hh : c.primary.handlers (.client n) = some ⟨req, p⟩)
    (hact : c.primary.act d.primary (.client n) ⟨req, p⟩ a = some c'.primary)
    (hno : c.Applied n → ¬ p.Sending) :
    ∃ b', Atomic.Steps (ledger d.primary) b b' ∧ Follows d c' b' := by
  have ha := Node.act_spec hact
  have hc : req.IsClient := Node.clients_reach (primary_run hr) _ _ hh
  obtain ⟨q, hh'⟩ := ha.handlers_self
  replace hh' : c'.primary.handlers (.client n) = some ⟨req, q⟩ := hh'
  have hsettled (happ : c.Applied n) : p.resp? ≠ none := by
    obtain ⟨msg, -, -, -, ⟨old, rfl | rfl⟩ | hresp⟩ := applied_sent hr happ hh
    · exact absurd trivial (hno happ)
    · exact absurd trivial (hno happ)
    · exact Option.ne_none_iff_exists'.mpr hresp
  have hbefore : c.operation (.primary, n) = some ⟨req, p⟩ := by
    by_cases happ : c.Applied n
    · rw [operation_stored hh happ, Handler.effected_of_resp? (hsettled happ)]
    · exact operation_unstored hh happ
  have hafter : c'.operation (.primary, n) = some ⟨req, q⟩ := by
    by_cases happ : c'.Applied n
    · rw [operation_stored hh' happ, Handler.effected_of_resp?]
      rw [Applied, hB] at happ
      obtain ⟨resp, hresp⟩ := Option.ne_none_iff_exists'.mp (hsettled happ)
      rw [ha.resp?_after hh' hresp]
      simp
    · exact operation_unstored hh' happ
  have hadv : Advances (ledger d.primary) b (.primary, n) (progressOf (some ⟨req, q⟩))
      c'.backup.reservations.get? (q.marks (Side.primary, n)) := by
    rw [hB]
    refine advances_phase (by rw [hf.progress, hbefore]) (fun _ => hf.value.symm)
      (fun resp hp => (ha.over hh' hp).1) fun resp hp hr' => ?_
    rw [hf.value]
    refine Node.client_refuses (primary_wf hr) (Node.admitted_reach (primary_reach hr) hh hp) hc hh
      hact hp hh' hr' ?_ fun hl => ?_
    · rintro rfl
      obtain ⟨old, res, hphase⟩ := ha.store_client hc
      obtain rfl : p = .replicated old res := hphase.1
      exact hno ((linked_reach hr).acked n _ hh trivial) trivial
    · exact (mirrored_reach hr halive).found hr hh hl fun happ => hsettled happ hp
  exact hf.next hadv (operation_other hB fun h hne => ha.handlers_ne hne) (by rw [hafter])
    (history_primary hr halive hB (ha.history hh') (marks_phase ..))

theorem follows_step (hf : Follows d c b) (he : orderly d c e = true)
    (hs : Steps d c e c') :
    ∃ b', Atomic.Steps (ledger d.primary) b b' ∧ Follows d c' b' := by
  have hs' := hs
  cases hs with
  | requestPrimary m req s halive _ hn =>
    exact follows_requestPrimary hr hf halive rfl (Node.step_spec hn)
  | requestBackup m req s _ hn => exact follows_requestBackup hf rfl (Node.step_spec hn)
  | actPrimary h a s halive _ hn =>
    obtain ⟨⟨req, p⟩, hh, hact⟩ := Option.bind_eq_some_iff.mp hn
    obtain ⟨m, rfl⟩ := Node.client_reach (primary_reach hr) hh
    by_cases happ : c.Applied m ∧ p.Sending
    · exact follows_effected hr hf halive rfl he hh hact happ.1 happ.2
    · exact follows_actPrimary hr hf halive rfl hh hact (not_and.mp happ)
  | actBackup h a s hn =>
    obtain ⟨⟨req, p⟩, hh, hact⟩ := Option.bind_eq_some_iff.mp hn
    cases h with
    | client m => exact follows_actClient hr hf rfl hh hact
    | replica m =>
      by_cases hstore : a = .store
      · subst hstore
        exact follows_store hr hf rfl hs' he hh (Node.act_spec hact)
      · exact follows_actReplica hf rfl hh (Node.act_spec hact) hstore
  | deliver m msg s _ hn => exact follows_deliver hf rfl (Node.step_spec hn)
  | promote => exact follows_promote hf rfl rfl
  | crash => exact hf.stay rfl (fun _ => rfl) rfl

end

end

/-- Before and after a crash, the answers of the two nodes are those of one map that takes one
request at a time, in an order that no request and no answer contradicts. -/
theorem pair_linearizable (hr : Reach (step d) (fun c e => orderly d c e) (start d) c) :
    ∃ calls, Linearization (ledger d.primary) c.history calls c.backup.reservations.get? := by
  obtain ⟨b, hf, hlin⟩ := linearizable_of_simulation (Follows d) (follows_start d)
    (fun _ _ _ _ hr hf he hs => follows_step hr hf he (step_spec hs)) hr
  exact ⟨b.calls, hf.history ▸ hf.value ▸ hlin⟩

/-- The primary crashes before it can tell Alice that she has her table, and Bob asks the backup
for it. -/
def takeover : List Event :=
  sends 0 (.book (dinner "T1" "Alice")) ++ applies 0 ++
    .crash :: .promote :: .request .backup 0 (.book (dinner "T1" "Bob")) ::
      acts .backup (.client 0) [.acquire, .check, .release]

theorem pair_linearizable_takeover : ∃ c calls,
    exec (step urban) (start urban) takeover = some c ∧ c.history.length = 3 ∧
      Linearization (ledger urban.primary) c.history calls c.backup.reservations.get? := by
  obtain ⟨c, hc, hlen⟩ : ∃ c, exec (step urban) (start urban) takeover = some c ∧
      c.history.length = 3 := ⟨_, rfl, rfl⟩
  have hm : Meets (step urban) (fun c e => orderly urban c e) (start urban) takeover := by decide
  obtain ⟨calls, hlin⟩ := pair_linearizable (reach_of_exec hm hc)
  exact ⟨c, calls, hc, hlen, hlin⟩

/-! ## A lost acknowledgement -/

theorem applies_empty {cfg : Service} {l : Ledger} {req : Request} {resp : Response}
    (ha : Ledger.Applies cfg (ledger cfg).start req resp l)
    (hbook : resp.status = .ok → req.IsClient ∧ req.op = .cancel) :
    l = (ledger cfg).start ∧ resp.status = .error := by
  cases ha with
  | refused _ hpre => exact ⟨rfl, Node.precheck_status hpre⟩
  | timedOut => exact ⟨rfl, by cases req <;> rfl⟩
  | conflict => exact ⟨rfl, by cases req <;> rfl⟩
  | unreplicated o => exact ⟨rfl, by cases o <;> rfl⟩
  | written now ts res _ hyes =>
    obtain ⟨hc, hop⟩ := hbook (by cases req <;> rfl)
    have hexp := hyes hc
    rw [hop] at hexp
    exact absurd rfl hexp

/-- Where no booking succeeds, no cancel does. -/
theorem runs_unbooked {ι : Type*} {cfg : Service} {calls : List (Atomic.Call ι Request Response)}
    {l : Ledger} (hr : (ledger cfg).Runs calls l)
    (hbook : ∀ call ∈ calls, call.result.status = .ok →
      call.op.IsClient ∧ call.op.op = .cancel) :
    l = (ledger cfg).start ∧ ∀ call ∈ calls, call.result.status = .error := by
  induction hr with
  | nil => exact ⟨rfl, by simp⟩
  | snoc _ ha ih =>
    rename_i calls l l' call _
    obtain ⟨rfl, hcalls⟩ := ih fun call hc => hbook call (List.mem_append_left _ hc)
    have hlast := applies_empty ha (hbook call (by simp))
    refine ⟨hlast.1, fun call' hc => ?_⟩
    rcases List.mem_append.mp hc with hc | hc
    · exact hcalls call' hc
    · rw [List.mem_singleton.mp hc]
      exact hlast.2

/-- Alice hears that her booking has failed, and then that it is cancelled. -/
def cancelsUnbooked : List Event :=
  sends 0 (.book (dinner "T1" "Alice")) ++ applies 0 ++ givesUp 0 ++
    .crash :: .promote :: .request .backup 0 (.cancel (dinner "T1" "Alice")) ::
      acts .backup (.client 0) [.acquire, .check, .stamp 0, .skipReplication, .store, .release]

/-- Without an acknowledgement to rely on, a cancel succeeds and no booking has. -/
theorem not_pair_linearizable : ¬ ∀ (d : Deployment) (c : Cluster),
    Reach (step d) (fun c e => c.primaryAlive = true → clientsOnPrimary e = true) (start d) c →
      ∃ calls l, Linearization (ledger d.primary) c.history calls l := by
  intro hall
  obtain ⟨c, resp, hc, hok, hhist⟩ : ∃ c resp,
      exec (step urban) (start urban) cancelsUnbooked = some c ∧ resp.status = .ok ∧
      c.history = [.invoked (.primary, 0) (.book (dinner "T1" "Alice")),
        .returned (.primary, 0) (errorAnswer "Backup replication failed"),
        .invoked (.backup, 0) (.cancel (dinner "T1" "Alice")), .returned (.backup, 0) resp] :=
    ⟨_, _, rfl, rfl, rfl⟩
  have hm : Meets (step urban) (fun c e => c.primaryAlive = true → clientsOnPrimary e = true)
      (start urban) cancelsUnbooked := by decide
  obtain ⟨calls, l, hlin⟩ := hall urban c (reach_of_exec hm hc)
  rw [hhist] at hlin
  obtain ⟨_, hbooks⟩ := hlin.returned (.primary, 0) (errorAnswer "Backup replication failed")
    (by simp)
  obtain ⟨op, hcancels⟩ := hlin.returned (.backup, 0) resp (by simp)
  have herr := (runs_unbooked hlin.legal fun call hcall hcallok => ?_).2 _ hcancels
  · rw [hok] at herr
    cases herr
  · have hinv := hlin.invoked call hcall
    simp only [List.mem_cons, List.not_mem_nil, or_false, reduceCtorEq, false_or, or_self,
      Atomic.Mark.invoked.injEq] at hinv
    rcases hinv with ⟨hid, -⟩ | ⟨-, hop⟩
    · rw [List.inj_on_of_nodup_map hlin.once hcall hbooks hid] at hcallok
      cases hcallok
    · rw [hop]
      exact ⟨trivial, rfl⟩

end Cluster

end ReservationSystem
