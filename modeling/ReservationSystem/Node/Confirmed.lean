import ReservationSystem.Lib.Log
import ReservationSystem.Node.History

/-!
# When a node keeps the bookings that it confirmed

`_applyReplication` writes without looking, so a message of the primary can take away a
booking that the node itself has confirmed. Nothing else can.
-/

namespace ReservationSystem

open Log

/-- The dict write of a cancel of `k` came after that answer. Its own confirmation follows. -/
def CancelledSince (log : List Entry) (h : Thread) (resp : Response) (k : Key) : Prop :=
  ∃ m old res, Before log (.answered h resp) (.changed (.client m) .cancel k old res)

/-- The node has confirmed the booking `res` of `k`, and has done no cancel of `k` since. -/
def Confirmed (cfg : Service) (log : List Entry) (k : Key) (res : Reservation) : Prop :=
  ∃ n msg resp, .received (.client n) (.book msg) ∈ log ∧ .answered (.client n) resp ∈ log ∧
    resp.status = .ok ∧ resp.record = some res ∧ (Request.book msg).key cfg = k ∧
      ¬ CancelledSince log (.client n) resp k

def Entry.isCancel : Entry → Bool
  | .changed _ .cancel .. => true
  | _ => false

namespace Node

open Machine

variable {cfg : Service} {s s' : Node} {h : Thread} {hd : Handler} {e : Event} {k : Key}
  {res : Reservation}

def Keeps (cfg : Service) (s : Node) : Prop :=
  ∀ k res, Confirmed cfg s.log k res → s.reservations.get? k = some res

/-- Clients' requests have the `client` threads and replication messages the `replica` ones. -/
def Addressed : Event → Prop
  | .receive (.client _) req => req.IsClient
  | .receive (.replica _) req => ¬ req.IsClient
  | _ => True

/-- A message that is about to be applied leaves under its key the booking that the node has
confirmed there, if there is one. -/
def Spares (cfg : Service) (s : Node) (e : Event) : Prop :=
  ∀ h hd msg res, e = .act h .store → s.handlers h = some hd → hd.phase = .advanced →
    hd.request = .applyReplication msg → Confirmed cfg s.log (hd.request.key cfg) res →
      msg.effect = some res

/-! ## The invariant -/

structure Keeping (cfg : Service) (s : Node) : Prop where
  wf : Wf cfg s
  history : History cfg s
  addressed : ∀ h hd, s.handlers h = some hd → (hd.request.IsClient ↔ ∃ n, h = .client n)
  /-- A booking is stored when its handler leaves. -/
  leaving : ∀ h hd resp, s.handlers h = some hd → hd.request.IsClient → hd.request.op = .book →
    hd.phase = .leaving resp → resp.status = .ok →
      s.reservations.get? (hd.request.key cfg) = resp.record

theorem addressed_step (hs : Steps cfg s e s') (he : Addressed e)
    (ha : ∀ h hd, s.handlers h = some hd → (hd.request.IsClient ↔ ∃ n, h = .client n)) (h : Thread)
    (hd : Handler) (hh : s'.handlers h = some hd) : hd.request.IsClient ↔ ∃ n, h = .client n := by
  rcases hs.handler hh with hh | ⟨-, rfl, -⟩ | ⟨hd', a, p, -, hh', -, rfl⟩
  · exact ha h hd hh
  · cases h with
    | client n => exact iff_of_true he ⟨n, rfl⟩
    | replica n => exact iff_of_false he nofun
  · exact ha h hd' hh'

theorem leaving_step (hk : Keeping cfg s) (hs : Steps cfg s e s') {resp : Response}
    (hh : s'.handlers h = some hd) (hc : hd.request.IsClient) (hop : hd.request.op = .book)
    (hp : hd.phase = .leaving resp) (hok : resp.status = .ok) :
    s'.reservations.get? (hd.request.key cfg) = resp.record := by
  cases hs with
  | receive h' req | refuse h' req =>
    by_cases hne : h = h'
    · subst hne
      obtain rfl := handler_moved s h hh
      simp at hp
    · exact hk.leaving h hd resp ((Function.update_of_ne hne _ _).symm.trans hh) hc hop hp hok
  | act h' hd' a s' hh' hact =>
    by_cases hne : h = h'
    · subst hne
      cases hact with
      | store old res resp' _ _ _ hrec =>
        obtain rfl := handler_moved s h hh
        obtain rfl := Phase.leaving.inj hp
        rw [hrec]
        exact (get?_write ..).trans ((if_pos rfl).trans (by rw [hop]; rfl))
      | apply msg resp' hreq =>
        obtain rfl := handler_moved s h hh
        simp [hreq, Request.IsClient] at hc
      | _ =>
        obtain rfl := handler_moved s h hh
        simp_all
    · rw [hact.handlers_ne hne] at hh
      rw [hk.wf.reservations_other hh' hact hh hne (by rw [hp]; trivial)]
      exact hk.leaving h hd resp hh hc hop hp hok
  | promote =>
    rw [promote_handlers] at hh
    rw [promote_reservations]
    exact hk.leaving h hd resp hh hc hop hp hok

theorem keeping_start (cfg : Service) (backUp : Bool) : Keeping cfg (start cfg backUp) where
  wf := wf_start cfg backUp
  history := history_start cfg backUp
  addressed _ _ hh := by simp [start] at hh
  leaving _ _ _ hh := by simp [start] at hh

theorem keeping_step (hk : Keeping cfg s) (he : Addressed e) (hs : Steps cfg s e s') :
    Keeping cfg s' where
  wf := wf_step hk.wf hs
  history := history_step hk.history hs
  addressed := addressed_step hs he hk.addressed
  leaving _ _ _ := leaving_step hk hs

/-! ## One step -/

/-- An answer with status ok comes from a handler that was leaving with it. -/
theorem Steps.answered (hs : Steps cfg s e s') {resp : Response} (hx : .answered h resp ∈ s'.log)
    (hok : resp.status = .ok) :
    .answered h resp ∈ s.log ∨ e = .act h .release ∧ s'.reservations = s.reservations ∧
      ∃ hd, s.handlers h = some hd ∧ hd.phase = .leaving resp := by
  cases hs with
  | receive => exact .inl (by simpa using hx)
  | refuse h' req resp' hnew hadm herr =>
    simp only [moveTo_log, List.mem_append, List.mem_cons, reduceCtorEq, false_or,
      List.not_mem_nil, or_false] at hx
    rcases hx with hx | hx
    · exact .inl hx
    · obtain ⟨rfl, rfl⟩ := Entry.answered.inj hx
      simp [herr] at hok
  | act h' hd a s' hh ha =>
    cases ha with
    | lockTimeout resp' hp herr =>
      rw [turnDown_log, List.mem_append, List.mem_singleton] at hx
      rcases hx with hx | hx
      · exact .inl hx
      · obtain ⟨rfl, rfl⟩ := Entry.answered.inj hx
        simp [herr] at hok
    | release resp' hp =>
      rw [release_log, List.mem_append, List.mem_singleton] at hx
      rcases hx with hx | hx
      · exact .inl hx
      · obtain ⟨rfl, rfl⟩ := Entry.answered.inj hx
        exact .inr ⟨rfl, rfl, hd, hh, hp⟩
    | _ => exact .inl (by simpa using hx)
  | promote => exact .inl (by rwa [promote_log] at hx)

theorem Steps.received (hs : Steps cfg s e s') (hi : History cfg s) (hi' : History cfg s')
    {req : Request} (hx : .received h req ∈ s'.log) (hh : s.handlers h = some hd) :
    hd.request = req := by
  obtain ⟨es, hes⟩ := hs.log_append
  obtain ⟨hd₁, hh₁, hreq₁⟩ := hi'.fits _ hx
  obtain ⟨hd₂, hh₂, hreq₂⟩ := hi'.fits _ (hes ▸ List.mem_append_left es (hi.past _ _ hh).received)
  obtain rfl := Option.some.inj (hh₁.symm.trans hh₂)
  exact hreq₂.symm.trans hreq₁

/-- What is confirmed after a step was confirmed before, or it is what the step answers. -/
theorem confirmed_step (hk : Keeping cfg s) (hi' : History cfg s') (hs : Steps cfg s e s')
    (hc : Confirmed cfg s'.log k res) :
    Confirmed cfg s.log k res ∨
      s'.reservations = s.reservations ∧ s.reservations.get? k = some res := by
  obtain ⟨n, msg, resp, hrec, hans, hok, hres, hkey, hno⟩ := hc
  rcases hs.answered hans hok with hold | ⟨-, hstore, hd, hh, hp⟩
  · obtain ⟨hd, hh, hp⟩ := hk.history.fits _ hold
    have hpast := (hk.history.past _ _ hh).received
    rw [hs.received hk.history hi' hrec hh] at hpast
    refine .inl ⟨n, msg, resp, hpast, hold, hok, hres, hkey, ?_⟩
    rintro ⟨m, old, res', hb⟩
    obtain ⟨es, hes⟩ := hs.log_append
    exact hno ⟨m, old, res', hes ▸ before_append.mpr (.inl hb)⟩
  · have hreq := hs.received hk.history hi' hrec hh
    have hget := hk.leaving _ hd resp hh (by rw [hreq]; trivial) (by rw [hreq]; rfl) hp hok
    rw [hreq, hkey, hres] at hget
    exact .inr ⟨hstore, hget⟩

/-- What comes before a write comes before its answer. -/
theorem before_answered {C : Node → Event → Prop} {backUp : Bool}
    (hr : Reach (step cfg) C (start cfg backUp) s) {x : Entry} {op : Op}
    {old : Option Reservation} {resp : Response} (hb : Before s.log x (.changed h op k old res))
    (hans : .answered h resp ∈ s.log) : Before s.log x (.answered h resp) := by
  refine hr.invariant (P := fun s => Before s.log x (.changed h op k old res) →
    .answered h resp ∈ s.log → Before s.log x (.answered h resp)) ?_
    (fun s e s' hr ih _ hs hb hans => ?_) hb hans
  · simp [start, not_before_nil]
  · have hi := history_reach (history_start cfg backUp) hr
    have hi' := history_step hi (step_spec hs)
    obtain ⟨hd', hh', hdone⟩ := hi'.fits _ hans
    replace hdone : hd'.phase = .done resp := hdone
    obtain ⟨es, hes⟩ := (step_spec hs).log_append
    -- The step that answers is not the one that writes.
    have hno : .changed h op k old res ∉ es := by
      intro hx
      cases step_spec hs with
      | act h₁ hd a s' hh ha =>
        cases ha with
        | store | apply =>
          obtain rfl := List.append_cancel_left hes
          obtain ⟨rfl, -⟩ := Entry.changed.inj (List.mem_singleton.mp hx)
          obtain rfl := handler_moved s h hh'
          simp at hdone
        | _ =>
          obtain rfl := List.append_cancel_left hes
          simp at hx
      | promote =>
        rw [promote_log, List.self_eq_append_right] at hes
        simp [hes] at hx
      | _ =>
        obtain rfl := List.append_cancel_left hes
        simp at hx
    rw [hes, before_append] at hb ⊢
    rw [hes, List.mem_append] at hans
    rcases hb with hb | ⟨-, hx⟩ | hb
    · rcases hans with hans | hans
      · exact .inl (ih hb hans)
      · exact .inr (.inl ⟨hb.left_mem, hans⟩)
    · exact absurd hx hno
    · exact absurd hb.right_mem hno

/-- A client's write takes nothing away that is confirmed and stays so. -/
theorem keeps_store (hk : Keeping cfg s) (hkeeps : Keeps cfg s) (hh : s.handlers h = some hd)
    {old : Option Reservation} {new : Reservation} {resp : Response} (hc : hd.request.IsClient)
    (hp : hd.phase = .replicated old new)
    (hs : Steps cfg s e (s.store h hd hd.request.op (hd.request.key cfg) new resp))
    (hi' : History cfg (s.store h hd hd.request.op (hd.request.key cfg) new resp)) :
    Keeps cfg (s.store h hd hd.request.op (hd.request.key cfg) new resp) := by
  intro k res hconf
  have hold : s.reservations.get? k = some res := by
    rcases confirmed_step hk hi' hs hconf with hold | ⟨-, hget⟩
    · exact hkeeps k res hold
    · exact hget
  refine (get?_write ..).trans ((if_neg ?_).trans hold)
  rintro rfl
  have hexp := hk.wf.found hh (by rw [hp]; rfl)
  cases hop : hd.request.op with
  | book =>
    -- The key was free when it was booked.
    rw [hop] at hexp
    exact absurd (hold.symm.trans hexp) (by simp)
  | cancel =>
    -- The cancel comes after the answer that it undoes.
    obtain ⟨n, msg, resp', -, hans, -, -, -, hno⟩ := hconf
    obtain ⟨m, rfl⟩ := (hk.addressed h hd hh).mp hc
    refine hno ⟨m, s.reservations.get? (hd.request.key cfg), new,
      before_append.mpr (.inr (.inl ⟨by simpa using hans, ?_⟩))⟩
    rw [hop]
    exact List.mem_singleton_self _

/-- A message leaves alone what is confirmed exactly when it spares it. -/
theorem keeps_apply (hk : Keeping cfg s) (hkeeps : Keeps cfg s) (hh : s.handlers h = some hd)
    {msg : ReplicationMsg} {resp : Response} (hreq : hd.request = .applyReplication msg)
    (hs : Steps cfg s e
      (s.store h hd msg.operation (hd.request.key cfg) msg.reservation resp))
    (hi' : History cfg (s.store h hd msg.operation (hd.request.key cfg) msg.reservation resp)) :
    Keeps cfg (s.store h hd msg.operation (hd.request.key cfg) msg.reservation resp) ↔
      ∀ res, Confirmed cfg s.log (hd.request.key cfg) res →
        msg.effect = some res := by
  constructor
  · rintro hkeeps' res ⟨n, b, resp', hrec, hans, hok, hres, hkey, hno⟩
    have hget := hkeeps' (hd.request.key cfg) res
      ⟨n, b, resp', by simpa using hrec, by simpa using hans, hok, hres, hkey, ?_⟩
    · exact ((get?_write ..).trans (if_pos rfl)).symm.trans hget
    · -- The write of a message is not a cancel of the node's own.
      rintro ⟨m, old, res', hb⟩
      rw [store_log, before_append] at hb
      rcases hb with hb | ⟨-, hx⟩ | hb
      · exact hno ⟨m, old, res', hb⟩
      · obtain ⟨rfl, -⟩ := Entry.changed.inj (List.mem_singleton.mp hx)
        have := (hk.addressed _ hd hh).mpr ⟨m, rfl⟩
        simp [hreq, Request.IsClient] at this
      · simp [before_cons, not_before_nil] at hb
  · intro hspares k res hconf
    rcases confirmed_step hk hi' hs hconf with hold | ⟨hstore, hget⟩
    · refine (get?_write ..).trans ?_
      split_ifs with hkk
      · subst hkk
        exact hspares res hold
      · exact hkeeps k res hold
    · rwa [hstore]

theorem keeps_step (hk : Keeping cfg s) (hkeeps : Keeps cfg s) (hs : Steps cfg s e s')
    (hi' : History cfg s') : Keeps cfg s' ↔ Spares cfg s e := by
  -- Most steps leave the store alone.
  have hsame (hstore : s'.reservations = s.reservations) : Keeps cfg s' := by
    intro k res hc
    rw [hstore]
    rcases confirmed_step hk hi' hs hc with hc | ⟨-, hget⟩
    · exact hkeeps k res hc
    · exact hget
  have hspares (hno : ∀ h hd, e = .act h .store → s.handlers h = some hd → hd.phase ≠ .advanced) :
      Spares cfg s e := fun h hd _ _ he hh hp => absurd hp (hno h hd he hh)
  cases hs with
  | receive | refuse => exact iff_of_true (hsame rfl) (hspares fun _ _ he => by simp at he)
  | promote =>
    exact iff_of_true (hsame (promote_reservations cfg s)) (hspares fun _ _ he => by simp at he)
  | act h hd a s' hh ha =>
    have hs := Steps.act h hd a s' hh ha
    cases ha with
    | store old new resp hc hp =>
      refine iff_of_true (keeps_store hk hkeeps hh hc hp hs hi') (hspares fun h' hd' he hh' => ?_)
      obtain ⟨rfl, -⟩ := Event.act.inj he
      obtain rfl := Option.some.inj (hh.symm.trans hh')
      simp [hp]
    | apply msg resp hreq hp =>
      rw [keeps_apply hk hkeeps hh hreq hs hi']
      constructor
      · intro hall h' hd' msg' res he hh' _ hreq' hconf
        obtain ⟨rfl, -⟩ := Event.act.inj he
        obtain rfl := Option.some.inj (hh.symm.trans hh')
        obtain rfl := Request.applyReplication.inj (hreq.symm.trans hreq')
        exact hall res hconf
      · intro hsp res hconf
        exact hsp h hd msg res rfl hh hp hreq hconf
    | _ => exact iff_of_true (hsame rfl) (hspares fun _ _ he => by simp at he)

/-! ## Runs -/

/-- A node keeps what it confirmed in exactly those runs in which every message that it
applies spares the booking that it has confirmed under its key. -/
theorem keeps_iff (backUp : Bool) {es : List Event} (ha : ∀ e ∈ es, Addressed e) :
    Always (step cfg) (Keeps cfg) (start cfg backUp) es ↔
      Meets (step cfg) (Spares cfg) (start cfg backUp) es := by
  refine always_iff_meets (I := Keeping cfg) ?_ ?_ ha (keeping_start cfg backUp) ?_
  · exact fun s e s' hk he hs => keeping_step hk he (step_spec hs)
  · exact fun s e s' hk hkeeps he hs =>
      keeps_step hk hkeeps (step_spec hs) (history_step hk.history (step_spec hs))
  · rintro k res ⟨n, msg, resp, hrec, -⟩
    simp [start] at hrec

/-- A booking that the primary made for Bob. -/
def bobsMessage (t : String) : ReplicationMsg :=
  ⟨.book, keyToList (dinnerKey t), newReservation urbanPlates (dinner t "Bob") 0 1⟩

/-- Carol's booking of `T1` comes to the backup, and then a message that gives `t` to Bob. -/
def carolThenBob (t : String) : List Event :=
  .receive (.client 0) (.book (dinner "T1" "Carol")) ::
  acts (.client 0) [.acquire, .check, .stamp 0, .skipReplication, .store, .release] ++
  .receive (.replica 1) (.applyReplication (bobsMessage t)) ::
  acts (.replica 1) [.acquire, .advance, .store, .release]

theorem addressed_carolThenBob (t : String) : ∀ e ∈ carolThenBob t, Addressed e := by
  simp [carolThenBob, acts, Addressed, Request.IsClient]

/-- No client has asked for the key of the message that is applied. -/
def unasked (cfg : Service) (s : Node) : Event → Bool
  | .act h .store =>
    match s.handlers h with
    | some ⟨req, .advanced⟩ =>
      s.log.all fun
        | .received (.client _) (.book msg) => (Request.book msg).key cfg ≠ req.key cfg
        | _ => true
    | _ => true
  | _ => true

theorem spares_of_unasked (h : unasked cfg s e = true) : Spares cfg s e := by
  rintro h' ⟨req, p⟩ msg res rfl hh rfl hreq ⟨n, msg', resp, hrec, -, -, -, hkey, -⟩
  simp only [unasked, hh, List.all_eq_true] at h
  simpa [hkey] using h _ hrec

theorem keeps_iff_carolThenBob :
    Meets (step urbanBackup) (Spares urbanBackup) (start urbanBackup true) (carolThenBob "T2") ∧
      Always (step urbanBackup) (Keeps urbanBackup) (start urbanBackup true)
        (carolThenBob "T2") := by
  have hm : Meets (step urbanBackup) (fun s e => unasked urbanBackup s e)
      (start urbanBackup true) (carolThenBob "T2") := by decide
  have hspares := hm.mono fun _ _ => spares_of_unasked
  exact ⟨hspares, (keeps_iff true (addressed_carolThenBob "T2")).mpr hspares⟩

/-- Bob's booking takes the place of Carol's, which the node has confirmed. -/
theorem not_keeps : ¬ ∀ (cfg : Service) (backUp : Bool) (es : List Event),
    (∀ e ∈ es, Addressed e) → Always (step cfg) (Keeps cfg) (start cfg backUp) es := by
  intro hall
  have halways := hall urbanBackup true (carolThenBob "T1") (addressed_carolThenBob "T1")
  have hkeeps := halways.of_exec rfl
  have hget := hkeeps (dinnerKey "T1") (newReservation urbanBackup (dinner "T1" "Carol") 0 1)
    ⟨0, dinner "T1" "Carol", _, .head _, .tail _ (.tail _ (.tail _ (.tail _ (.head _)))), rfl, rfl,
      rfl, ?_⟩
  · have heq := congrArg (Option.map Reservation.customerName) hget
    have hname : some (Json.str "Bob") = some (Json.str "Carol") := heq
    simp at hname
  · -- Nothing is cancelled in this run.
    rintro ⟨m, old, res, hb⟩
    have hmem := List.mem_filter.mpr ⟨hb.right_mem, (rfl : Entry.isCancel _ = true)⟩
    exact List.not_mem_nil hmem

end Node

end ReservationSystem
