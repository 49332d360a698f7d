import ReservationSystem.System.Invariants

/-!
# When a failure answer means that nothing has happened

One request can have a handler on the primary, one on the backup for the message of the
first, and a second one there for the gateway's retry. Each of them may write although the
client hears of a failure.
-/

namespace ReservationSystem

namespace System

open Machine

variable {d : Deployment} {s s' : System} {e : Event} {n : Nat} {C : System → Event → Prop}

/-! ## Failure answers -/

/-- The threads of a request: its handler on a node, and the one for its message. -/
def threads (n : Nat) : List Thread := [.client n, .replica n]

/-- All handlers that the request has started have ended. -/
def Ended (s : System) (n : Nat) : Prop :=
  ∀ side, ∀ h ∈ threads n, ∀ hd, (s.cluster.node side).handlers h = some hd →
    ∃ resp, hd.phase = .done resp

/-- A node stores a reservation that the request has created. -/
def Stores (s : System) (side : Side) (n : Nat) : Prop :=
  ∃ k x, (changesOf k (s.cluster.node side).log).getLast? = some x ∧ x.thread ∈ threads n ∧
    x.op = .book ∧ (s.cluster.node side).reservations.get? k = some x.res

/-- The request has removed a reservation from a node. -/
def Removed (s : System) (side : Side) (n : Nat) : Prop :=
  ∃ h ∈ threads n, ∃ k old res, .changed h .cancel k (some old) res ∈ (s.cluster.node side).log

/-- A request that the client was told has failed has no effect, once all of it has ended. -/
def FailsClean (s : System) : Prop :=
  ∀ call resp, .answered call resp ∈ s.log → resp.status = .error → s.Ended call.number →
    ∀ side, ¬ s.Stores side call.number ∧ ¬ s.Removed side call.number

/-! ## When the handlers and the gateway agree -/

/-- The gateway waits for this node to answer the request. -/
def awaits (s : System) (side : Side) (n : Nat) : Bool :=
  match s.call with
  | some call => call.number = n ∧ call.side = side
  | none => false

/-- The request was confirmed, or the backup has served its retry and is about to say so. -/
def settled (s : System) (n : Nat) : Bool :=
  s.cluster.backup.wrote (.client n) || s.confirmed n

/-- Unless the request is settled, a node writes for it only while the gateway waits for that
node, the backup applies its message only while the primary waits for the acknowledgement,
and `replicate` fails only if the backup has not applied it. The gateway gives up on a node
only if nothing has been written there. -/
def heeded (s : System) : Event → Bool
  | .cluster (.act .primary (.client n) .store) => s.awaits .primary n || s.settled n
  | .cluster (.act .backup (.client n) .store) => s.awaits .backup n || s.settled n
  | .cluster (.act .backup (.replica n) .store) =>
    s.awaits .primary n && s.cluster.pending n || s.settled n
  | .cluster (.act .primary (.client _) (.returned .acked)) => true
  | .cluster (.act .primary (.client n) (.returned _)) =>
    !s.cluster.backup.wrote (.replica n) || s.settled n
  | .fail _ =>
    match s.call with
    | some ⟨n, _, .primary⟩ =>
      !s.cluster.primary.wrote (.client n) && !s.cluster.backup.wrote (.replica n)
    | some ⟨n, _, .backup⟩ => !s.cluster.backup.wrote (.client n)
    | none => true
  | _ => true

/-! ## One step -/

theorem awaits_iff {side : Side} :
    s.awaits side n = true ↔ ∃ call, s.call = some call ∧ call.number = n ∧ call.side = side := by
  unfold awaits
  cases s.call <;> simp

/-- Nothing has been written for the request. -/
structure Untouched (s : System) (n : Nat) : Prop where
  primary : s.cluster.primary.wrote (.client n) = false
  backup : s.cluster.backup.wrote (.client n) = false
  replica : s.cluster.backup.wrote (.replica n) = false

/-- The primary's handler waits for its acknowledgement, has it, or has written. -/
def Counts (s : System) (n : Nat) : Prop :=
  ∃ hd, s.cluster.primary.handlers (.client n) = some hd ∧ (hd.phase.Sending ∨ hd.phase.Written)

structure Heeding (s : System) : Prop where
  failed : ∀ call resp, .answered call resp ∈ s.log → resp.status = .error →
    s.Untouched call.number
  /-- What the backup has applied, the primary still counts on. -/
  counts : ∀ call, s.call = some call → call.side = .primary →
    s.cluster.backup.wrote (.replica call.number) = true → s.Counts call.number
  /-- The primary was given up before anything was written. -/
  retried : ∀ call, s.call = some call → call.side = .backup →
    s.cluster.backup.wrote (.client call.number) = true ∨
      s.cluster.primary.wrote (.client call.number) = false ∧
        s.cluster.backup.wrote (.replica call.number) = false

theorem heeding_start (d : Deployment) : Heeding (start d) where
  failed call resp h := by simp [start] at h
  counts call h := by simp [start] at h
  retried call h := by simp [start] at h

theorem not_settled_failed (hw : Wf s) (hh : Heeding s) {call : Call} {resp : Response}
    (hans : .answered call resp ∈ s.log) (herr : resp.status = .error) :
    ¬ s.settled call.number = true := by
  rw [settled, Bool.or_eq_true, confirmed_iff]
  rintro (hback | ⟨call', resp', hans', hn, hok⟩)
  · simp [(hh.failed call resp hans herr).backup] at hback
  · obtain ⟨-, rfl⟩ := hw.single _ _ _ _ hans hans' hn.symm
    simp [herr] at hok

theorem not_awaited_answered (hw : Wf s) {call : Call} {resp : Response}
    (hans : .answered call resp ∈ s.log) (side : Side) : ¬ s.awaits side call.number = true := by
  rw [awaits_iff]
  rintro ⟨call', hcall, hn, -⟩
  exact (hw.waiting call' call resp hcall hans).ne hn.symm

theorem backup_unheard (hw : Wf s) {call : Call} (hcall : s.call = some call)
    (hside : call.side = .primary) : s.cluster.backup.wrote (.client call.number) = false := by
  by_contra hwrote
  obtain ⟨hd, hh, -⟩ := Node.wrote_iff.mp (by simpa using hwrote)
  have := hw.unretried call _ hcall hside (hw.arrived .backup _ hd hh) rfl
  simp at this

theorem settled_awaited (hw : Wf s) {call : Call} (hcall : s.call = some call)
    (hset : s.settled call.number = true) :
    call.side = .backup ∧ s.cluster.backup.wrote (.client call.number) = true := by
  rw [settled, Bool.or_eq_true, confirmed_iff] at hset
  rcases hset with hback | ⟨call', resp, hans, hn, -⟩
  · refine ⟨?_, hback⟩
    cases hside : call.side with
    | primary => simp [backup_unheard hw hcall hside] at hback
    | backup => rfl
  · exact absurd hn (hw.waiting call call' resp hcall hans).ne

theorem failed_move (hw : Wf s) (hh : Heeding s) {ev : Cluster.Event} {c : Cluster}
    (hm : Moves s e ev) (hs : Cluster.Steps d s.cluster ev c) (he : s.heeded e = true)
    {call : Call} {resp : Response} (hans : .answered call resp ∈ s.log)
    (herr : resp.status = .error) : Untouched { s with cluster := c } call.number := by
  have hun := hh.failed call resp hans herr
  have hset := not_settled_failed hw hh hans herr
  have hno := not_awaited_answered hw hans
  constructor
  · refine eq_false_of_ne_true fun hwrote => ?_
    rcases wrote_before hm hs .primary hwrote with hold | rfl
    · exact absurd (hold.symm.trans hun.primary) (by simp)
    · simp [heeded, hset, hno] at he
  · refine eq_false_of_ne_true fun hwrote => ?_
    rcases wrote_before hm hs .backup hwrote with hold | rfl
    · exact absurd (hold.symm.trans hun.backup) (by simp)
    · simp [heeded, hset, hno] at he
  · refine eq_false_of_ne_true fun hwrote => ?_
    rcases wrote_before hm hs .backup hwrote with hold | rfl
    · exact absurd (hold.symm.trans hun.replica) (by simp)
    · simp [heeded, hset, hno] at he

theorem counts_next {ev : Cluster.Event} {c : Cluster} (hm : Moves s e ev)
    (hs : Cluster.Steps d s.cluster ev c) (hc : s.Counts n) : Counts { s with cluster := c } n ∨
      ∃ o, o ≠ .acked ∧ e = .cluster (.act .primary (.client n) (.returned o)) := by
  obtain ⟨hd, hh, hp⟩ := hc
  rcases hs.onNode .primary with heq | ⟨nev, -, hn, hact, -⟩
  · exact .inl ⟨hd, (congrFun (congrArg Node.handlers heq) _).trans hh, hp⟩
  · rcases (Node.step_spec hn).handler_next hh with hh' | ⟨a, p, rfl, ha, hh'⟩
    · exact .inl ⟨hd, hh', hp⟩
    · rcases hp with hp | hp
      · rcases ha.sending_next hh' hp with hp | rfl | ⟨o, ho, rfl⟩
        · exact .inl ⟨_, hh', .inl hp⟩
        · exact .inl ⟨_, hh', .inr (ha.stores hh')⟩
        · obtain rfl := hact _ _ rfl
          cases hm with
          | cluster => exact .inr ⟨o, ho, rfl⟩
      · exact .inl ⟨_, hh', .inr (ha.written_after hh' hp)⟩

theorem counts_move (hw : Wf s) (hh : Heeding s) {ev : Cluster.Event} {c : Cluster}
    (hm : Moves s e ev) (hs : Cluster.Steps d s.cluster ev c) (he : s.heeded e = true)
    {call : Call} (hcall : s.call = some call) (hside : call.side = .primary)
    (hwrote : c.backup.wrote (.replica call.number) = true) :
    Counts { s with cluster := c } call.number := by
  have hset : ¬ s.settled call.number = true := fun hset => by
    have := (settled_awaited hw hcall hset).1
    simp [hside] at this
  rcases wrote_before hm hs .backup hwrote with hold | rfl
  · rcases counts_next hm hs (hh.counts call hcall hside hold) with hc | ⟨o, ho, rfl⟩
    · exact hc
    · replace hold : s.cluster.backup.wrote (.replica call.number) = true := hold
      cases o with
      | acked => exact absurd rfl ho
      | failed | raised => simp [heeded, hset, hold] at he
  · simp only [heeded, Bool.or_eq_true, Bool.and_eq_true] at he
    obtain ⟨-, hpending⟩ := he.resolve_right hset
    obtain ⟨hd, old, res, hh', hp⟩ := Cluster.pending_spec hpending
    cases hm with
    | cluster =>
      cases hs with
      | actBackup => exact ⟨hd, hh', .inl (by simp [hp])⟩

theorem retried_move (hw : Wf s) (hh : Heeding s) {ev : Cluster.Event} {c : Cluster}
    (hm : Moves s e ev) (hs : Cluster.Steps d s.cluster ev c) (he : s.heeded e = true)
    {call : Call} (hcall : s.call = some call) (hside : call.side = .backup) :
    c.backup.wrote (.client call.number) = true ∨
      c.primary.wrote (.client call.number) = false ∧
        c.backup.wrote (.replica call.number) = false := by
  rcases hh.retried call hcall hside with hback | ⟨hprim, hrep⟩
  · exact .inl (wrote_after hs .backup hback)
  · have hno : ¬ s.awaits .primary call.number = true := by
      rw [awaits_iff]
      rintro ⟨call', hcall', -, hside'⟩
      obtain rfl := Option.some.inj (hcall.symm.trans hcall')
      simp [hside] at hside'
    by_cases hset : s.settled call.number = true
    · exact .inl (wrote_after hs .backup (settled_awaited hw hcall hset).2)
    · refine .inr ⟨eq_false_of_ne_true fun hwrote => ?_, eq_false_of_ne_true fun hwrote => ?_⟩
      · rcases wrote_before hm hs .primary hwrote with hold | rfl
        · exact absurd (hold.symm.trans hprim) (by simp)
        · simp [heeded, hset, hno] at he
      · rcases wrote_before hm hs .backup hwrote with hold | rfl
        · exact absurd (hold.symm.trans hrep) (by simp)
        · simp [heeded, hset, hno] at he

/-- The primary's handler has answered with an error: nothing was written. -/
theorem untouched_of_refused (hw : Wf s) (hh : Heeding s) {call : Call} {req : Request}
    {resp : Response} (hcall : s.call = some call) (hside : call.side = .primary)
    (hdone : s.cluster.primary.handlers (.client call.number) = some ⟨req, .done resp⟩)
    (herr : resp.status = .error) : s.Untouched call.number where
  primary := eq_false_of_ne_true fun hwrote => by
    obtain ⟨hd, hh', hp⟩ := Node.wrote_iff.mp hwrote
    obtain rfl := Option.some.inj (hdone.symm.trans hh')
    simp [herr] at hp
  backup := backup_unheard hw hcall hside
  replica := eq_false_of_ne_true fun hwrote => by
    obtain ⟨hd, hh', hp⟩ := hh.counts call hcall hside hwrote
    obtain rfl := Option.some.inj (hdone.symm.trans hh')
    simp [herr] at hp

theorem heeded_fail {call : Call} {text : String} (hcall : s.call = some call)
    (he : s.heeded (.fail text) = true) :
    match call.side with
    | .primary => s.cluster.primary.wrote (.client call.number) = false ∧
        s.cluster.backup.wrote (.replica call.number) = false
    | .backup => s.cluster.backup.wrote (.client call.number) = false := by
  obtain ⟨n, req, side⟩ := call
  cases side <;> simpa [heeded, hcall] using he

/-- A request that is answered with an error has written nothing. -/
theorem untouched_of_error (hw : Wf s) (hh : Heeding s) (he : s.heeded e = true) {call : Call}
    {resp : Response} (hcall : s.call = some call) (hresp : Responds s call e resp)
    (hlast : ∀ text, e = .fail text → call.side = .backup) (herr : resp.status = .error) :
    s.Untouched call.number := by
  cases hside : call.side with
  | primary =>
    cases hresp with
    | fail text =>
      have := hlast text rfl
      simp [hside] at this
    | reply req _ hdone =>
      exact untouched_of_refused hw hh hcall hside (by rwa [hside] at hdone) herr
  | backup =>
    have hback : s.cluster.backup.wrote (.client call.number) = false := by
      cases hresp with
      | fail text =>
        have := heeded_fail hcall he
        rwa [hside] at this
      | reply req _ hdone =>
        rw [hside] at hdone
        refine eq_false_of_ne_true fun hwrote => ?_
        obtain ⟨hd, hh', hp⟩ := Node.wrote_iff.mp hwrote
        obtain rfl := Option.some.inj (hdone.symm.trans hh')
        simp [herr] at hp
    rcases hh.retried call hcall hside with hwrote | ⟨hprim, hrep⟩
    · exact absurd (hback.symm.trans hwrote) (by simp)
    · exact ⟨hprim, hback, hrep⟩

theorem heeding_step (hr : Reach (step d) C (start d) s) (hh : Heeding s)
    (he : s.heeded e = true) (hs : Steps d s e s') : Heeding s' := by
  have hw := wf_reach hr
  cases hs with
  | issue req =>
    refine ⟨fun call resp hans herr => ?_, fun call hcall _ hwrote => ?_,
      fun call hcall _ => .inr ?_⟩
    · have := hh.failed call resp (by simpa [issue] using hans) herr
      exact ⟨this.primary, this.backup, this.replica⟩
    · obtain rfl := Option.some.inj hcall
      exact absurd ((not_wrote_new hr .backup rfl).symm.trans hwrote) (by simp)
    · obtain rfl := Option.some.inj hcall
      exact ⟨not_wrote_new hr .primary rfl, not_wrote_new hr .backup rfl⟩
  | move e ev c hm hs =>
    replace hs := Cluster.step_spec hs
    exact
      { failed := fun call resp hans herr => failed_move hw hh hm hs he hans herr
        counts := fun call hcall hside hwrote => counts_move hw hh hm hs he hcall hside hwrote
        retried := fun call hcall hside => retried_move hw hh hm hs he hcall hside }
  | redirect => exact ⟨fun call resp hans herr =>
      have := hh.failed call resp hans herr
      ⟨this.primary, this.backup, this.replica⟩, hh.counts, hh.retried⟩
  | retry e call resp hcall hresp herr hside =>
    refine ⟨fun call' resp' hans herr' => ?_, fun call' hcall' hside' => ?_,
      fun call' hcall' _ => .inr ?_⟩
    · have := hh.failed call' resp' (by simpa [retry] using hans) herr'
      exact ⟨this.primary, this.backup, this.replica⟩
    · obtain rfl := Option.some.inj hcall'
      simp at hside'
    · obtain rfl := Option.some.inj hcall'
      cases hresp with
      | fail text =>
        have := heeded_fail hcall he
        rwa [hside] at this
      | reply req _ hdone =>
        have := untouched_of_refused hw hh hcall hside (by rwa [hside] at hdone) herr
        exact ⟨this.primary, this.replica⟩
  | answer e call resp hcall hresp hlast =>
    refine ⟨fun call' resp' hans herr => ?_, fun call' hcall' => by simp [answer] at hcall',
      fun call' hcall' => by simp [answer] at hcall'⟩
    rw [answer, List.mem_append, List.mem_singleton] at hans
    suffices hun : s.Untouched call'.number from ⟨hun.primary, hun.backup, hun.replica⟩
    rcases hans with hans | hans
    · exact hh.failed call' resp' hans herr
    · obtain ⟨rfl, rfl⟩ := Mark.answered.inj hans
      exact untouched_of_error hw hh he hcall hresp hlast herr

theorem heeding_reach (hr : Reach (step d) (fun s e => s.heeded e) (start d) s) : Heeding s :=
  hr.invariant (heeding_start d) fun _ _ _ hr hh he hs => heeding_step hr hh he (step_spec hs)

/-! ## The result -/

theorem Untouched.not_changed (hr : Reach (step d) C (start d) s) (hun : s.Untouched n)
    {side : Side} {h : Thread} (hmem : h ∈ threads n) {op : Op} {k : Key} {old : Option Reservation}
    {res : Reservation} : .changed h op k old res ∉ (s.cluster.node side).log := by
  intro hx
  have hwrote := Node.wrote_of_changed (node_keeping hr side).history hx
  rcases List.mem_pair.mp hmem with rfl | rfl <;> cases side
  case inl.primary => exact absurd (hun.primary.symm.trans hwrote) (by simp)
  case inl.backup => exact absurd (hun.backup.symm.trans hwrote) (by simp)
  case inr.backup => exact absurd (hun.replica.symm.trans hwrote) (by simp)
  case inr.primary =>
    -- No message comes to the primary.
    obtain ⟨hd, hh, -⟩ := Node.wrote_iff.mp hwrote
    obtain ⟨m, hm⟩ := Node.client_reach (Cluster.primary_reach (cluster_reach hr)) hh
    simp at hm

theorem fails_clean (hr : Reach (step d) (fun s e => s.heeded e) (start d) s) : s.FailsClean := by
  intro call resp hans herr _ side
  have hun := (heeding_reach hr).failed call resp hans herr
  constructor
  · rintro ⟨k, x, hlast, hthread, -⟩
    obtain ⟨old, hx⟩ := mem_changesOf.mp (List.mem_of_getLast? hlast)
    exact hun.not_changed hr hthread hx
  · rintro ⟨h, hthread, k, old, res, hx⟩
    exact hun.not_changed hr hthread hx

/-- A second booking of a table is tried on both nodes, and both refuse it. -/
def refusedTwice : List Event :=
  .issue (.book (dinner "T1" "Alice")) :: serves 0 ++
    .issue (.book (dinner "T1" "Bob")) :: .fail "timed out" :: refuses .backup 1

theorem fails_clean_refusedTwice :
    ∃ s, exec (step urban) (start urban) refusedTwice = some s ∧ s.FailsClean ∧
      ∃ call resp, .answered call resp ∈ s.log ∧ resp.status = .error := by
  have hm : Meets (step urban) (fun s e => s.heeded e) (start urban) refusedTwice := by decide
  exact ⟨_, rfl, fails_clean (reach_of_exec hm rfl), _, _, List.mem_of_getElem? (i := 6) rfl, rfl⟩

/-- The primary and its backup store a booking, but the gateway does not wait for the answer.
It asks the backup, which finds the table booked. -/
def refusedByItself : List Event :=
  .issue (.book (dinner "T1" "Alice")) :: sends 0 ++ applies 0 ++ confirms 0 ++
    .fail "timed out" :: refuses .backup 0

theorem not_fails_clean : ¬ ∀ (d : Deployment) (s : System),
    Reach (step d) (fun _ _ => True) (start d) s → s.FailsClean := by
  intro h
  obtain ⟨s, hs, hans, hended, hstores⟩ : ∃ s, exec (step urban) (start urban) refusedByItself =
      some s ∧ (∃ call resp, .answered call resp ∈ s.log ∧ resp.status = .error ∧
        call.number = 0) ∧ s.Ended 0 ∧ s.Stores .primary 0 := by
    refine ⟨_, rfl, ⟨_, _, List.mem_of_getElem? (i := 3) rfl, rfl, rfl⟩, ?_, dinnerKey "T1", _, rfl,
      by decide, rfl, rfl⟩
    intro side h hmem hd hh
    rcases List.mem_pair.mp hmem with rfl | rfl <;> cases side
    case inr.primary => cases (show none = some hd from hh)
    all_goals exact ⟨_, congrArg Handler.phase (Option.some.inj hh).symm⟩
  have hm : Meets (step urban) (fun _ _ => True) (start urban) refusedByItself :=
    meets_of_forall fun _ _ _ => trivial
  obtain ⟨call, resp, hans, herr, hn⟩ := hans
  rw [← hn] at hended hstores
  exact (h urban s (reach_of_exec hm hs) call resp hans herr hended .primary).1 hstores

end System

end ReservationSystem
