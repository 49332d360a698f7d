import ReservationSystem.Node.Clock
import ReservationSystem.Node.Order

/-!
# The senders of a primary

The last handler that sent a message for a key decides what the primary stores there, once
it has written.
-/

namespace ReservationSystem

open Log

/-- The handler's message has been acknowledged. -/
@[simp]
def Phase.Acked : Phase → Prop
  | .replicated _ _ => True
  | p => p.Written

/-- The handler has sent its message and not written yet. -/
@[simp]
def Phase.Sending : Phase → Prop
  | .replicating _ _ | .replicated _ _ => True
  | _ => False

/-- The handler has sent its message and has not given up. -/
@[simp]
def Phase.Sent : Phase → Prop
  | .replicating _ _ | .replicated _ _ => True
  | .leaving resp => resp.status = .ok
  | _ => False

theorem Phase.Sending.sent {p : Phase} (hp : p.Sending) : p.Sent := by
  cases p <;> simp_all

theorem Phase.Sent.holdsLock {p : Phase} (hp : p.Sent) : p.HoldsLock := by
  cases p <;> simp_all

theorem Phase.Sending.old? {p : Phase} (hp : p.Sending) : ∃ old, p.old? = some old := by
  cases p <;> simp_all

theorem Phase.Written.acked {p : Phase} (hp : p.Written) : p.Acked := by
  cases p <;> simp_all

theorem Phase.acked_earned : Earned Acked := by constructor <;> simp +contextual

theorem Phase.sent_earned : Earned Sent := by constructor <;> simp

def Entry.sender? (k : Key) : Entry → Option Nat
  | .sent (.client n) msg => if msg.key = keyToList k then some n else none
  | _ => none

/-- The handlers that have sent a message for `k`, in order. -/
def sendersOf (k : Key) (log : List Entry) : List Nat := log.filterMap (Entry.sender? k)

theorem mem_sendersOf {k : Key} {log : List Entry} {n : Nat} :
    n ∈ sendersOf k log ↔ ∃ msg, .sent (.client n) msg ∈ log ∧ msg.key = keyToList k := by
  simp only [sendersOf, List.mem_filterMap]
  constructor
  · rintro ⟨x, hx, hn⟩
    unfold Entry.sender? at hn
    split at hn
    · split_ifs at hn with hk
      obtain rfl := Option.some.inj hn
      exact ⟨_, hx, hk⟩
    · simp at hn
  · rintro ⟨msg, hx, hk⟩
    exact ⟨_, hx, if_pos hk⟩

theorem sendersOf_append (k : Key) (log es : List Entry) :
    sendersOf k (log ++ es) = sendersOf k log ++ sendersOf k es := List.filterMap_append

/-- A cancel of `k` was sent after that answer. -/
def CancelSentSince (log : List Entry) (h : Thread) (resp : Response) (k : Key) : Prop :=
  ∃ h' msg, Before log (.answered h resp) (.sent h' msg) ∧ msg.operation = .cancel ∧
    msg.key = keyToList k

namespace Node

open Machine

/-- What can happen to a primary: clients' requests, and never a promotion. -/
def OnPrimary : Event → Prop
  | .receive (.client _) req => req.IsClient
  | .act _ _ => True
  | _ => False

variable {cfg : Service} {s s' : Node} {h : Thread} {hd hd' : Handler} {a : Action} {e : Event}

theorem OnPrimary.noReplication (he : OnPrimary e) : NoReplication e := by
  cases e with
  | receive h req =>
    cases h with
    | client n => exact he
    | replica n => exact he.elim
  | _ => trivial

theorem OnPrimary.addressed (he : OnPrimary e) : Addressed e := by
  cases e with
  | receive h req =>
    cases h with
    | client n => exact he
    | replica n => exact he.elim
  | _ => trivial

theorem replicates_step (hs : Steps cfg s e s') (he : OnPrimary e) (hr : s.replicates = true) :
    s'.replicates = true := by
  cases hs with
  | act h hd a s' hh ha => cases ha <;> exact hr
  | promote => exact he.elim
  | _ => exact hr

theorem Acts.acked_before (ha : Acts cfg s h hd a s') (hh' : s'.handlers h = some hd')
    (hr : s.replicates = true) (hc : hd.request.IsClient) (hp : hd'.phase.Acked) :
    hd.phase.Acked ∨ a = .returned .acked := by
  cases ha <;> obtain rfl := handler_moved s h hh' <;> simp_all [Request.IsClient]

/-! ## What is sent -/

/-- A step sends nothing for `k`, or one handler sends the record that it has stamped. -/
theorem Steps.sends (k : Key) (hs : Steps cfg s e s') :
    sendersOf k s'.log = sendersOf k s.log ∨
      ∃ n hd old res, e = .act (.client n) .send ∧ s.handlers (.client n) = some hd ∧
        hd.phase = .stamped old res ∧ hd.request.key cfg = k ∧
        s'.log = s.log ++ [.sent (.client n) ⟨hd.request.op, keyToList k, res⟩] ∧
        sendersOf k s'.log = sendersOf k s.log ++ [n] := by
  cases hs with
  | receive | refuse => exact .inl (by simp [sendersOf, Entry.sender?])
  | act h hd a s' hh ha =>
    cases ha with
    | send old res hp =>
      rw [moveTo_log, sendersOf_append]
      cases h with
      | client n =>
        by_cases hk : hd.request.key cfg = k
        · subst hk
          exact .inr ⟨n, hd, old, res, rfl, hh, hp, rfl, rfl, by simp [sendersOf, Entry.sender?]⟩
        · have hne : keyToList (hd.request.key cfg) ≠ keyToList k := fun h => hk (keyToList_inj h)
          exact .inl (by simp [sendersOf, Entry.sender?, hne])
      | replica n => exact .inl (by simp [sendersOf, Entry.sender?])
    | _ => exact .inl (by simp [sendersOf, Entry.sender?])
  | promote => exact .inl (by rw [promote_log])

theorem Acts.written_before (ha : Acts cfg s h hd a s') (hh' : s'.handlers h = some hd')
    (hp : hd'.phase.Written) : hd.phase.Written ∨ a = .store := by
  cases ha <;> obtain rfl := handler_moved s h hh' <;> simp_all

theorem Acts.sending_before (ha : Acts cfg s h hd a s') (hh' : s'.handlers h = some hd')
    (hsent : hd.phase.Sending ∨ ∃ resp, hd.phase.resp? = some resp)
    (hp : hd'.phase.Sending ∨ hd'.phase.Written) :
    (hd.phase.Sending ∨ hd.phase.Written) ∧ (hd'.phase.Sending → hd.phase.Sending) := by
  cases ha <;> obtain rfl := handler_moved s h hh' <;> simp_all

/-- A handler that waits for its acknowledgement gets it, fails, or goes on to write. -/
theorem Acts.sending_next (ha : Acts cfg s h hd a s') (hh' : s'.handlers h = some hd')
    (hp : hd.phase.Sending) :
    hd'.phase.Sending ∨ a = .store ∨ ∃ o, o ≠ .acked ∧ a = .returned o := by
  cases ha <;> obtain rfl := handler_moved s h hh' <;> simp_all

theorem Acts.stores (ha : Acts cfg s h hd .store s') (hh' : s'.handlers h = some hd') :
    hd'.phase.Written := by
  cases ha <;> obtain rfl := handler_moved s h hh' <;> simp_all

theorem Acts.store_client (ha : Acts cfg s h hd .store s') (hc : hd.request.IsClient) :
    ∃ old res, hd.phase = .replicated old res ∧
      s'.reservations = hd.request.op.write s.reservations (hd.request.key cfg) res := by
  cases ha with
  | store old res resp _ hphase => exact ⟨old, res, hphase, rfl⟩
  | apply msg resp hreq => simp [hreq, Request.IsClient] at hc

theorem Acts.sent_before (ha : Acts cfg s h hd a s') (hh' : s'.handlers h = some hd')
    (hr : s.replicates = true) (hc : hd.request.IsClient) (hp : hd'.phase.Sent) :
    hd.phase.Sent ∨ ∃ res,
      s'.log = s.log ++ [.sent h ⟨hd.request.op, keyToList (hd.request.key cfg), res⟩] := by
  cases ha with
  | send old res => exact .inr ⟨res, rfl⟩
  | _ => obtain rfl := handler_moved s h hh'; simp_all [Request.IsClient]

/-! ## What has been written -/

/-- The handler of that thread has written. -/
def wrote (s : Node) (h : Thread) : Bool :=
  match s.handlers h with
  | some hd => hd.phase.Written
  | none => false

theorem wrote_iff : s.wrote h = true ↔ ∃ hd, s.handlers h = some hd ∧ hd.phase.Written := by
  unfold wrote
  cases s.handlers h <;>
    simp only [decide_eq_true_eq, Option.some.injEq, exists_eq_left', reduceCtorEq, false_and,
      exists_false, Bool.false_eq_true]

theorem wrote_after (hs : Steps cfg s e s') (hw : s.wrote h = true) : s'.wrote h = true := by
  obtain ⟨hd, hh, hp⟩ := wrote_iff.mp hw
  rcases hs.handler_next hh with hh' | ⟨a, p, -, ha, hh'⟩
  · exact wrote_iff.mpr ⟨hd, hh', hp⟩
  · exact wrote_iff.mpr ⟨_, hh', ha.written_after hh' hp⟩

theorem wrote_before (hs : Steps cfg s e s') (hw : s'.wrote h = true) :
    s.wrote h = true ∨ e = .act h .store := by
  obtain ⟨hd', hh', hp⟩ := wrote_iff.mp hw
  rcases hs.handler_earned Phase.written_earned hh' hp with hh | ⟨hd, a, p, rfl, hh, ha, rfl⟩
  · exact .inl (wrote_iff.mpr ⟨hd', hh, hp⟩)
  · rcases ha.written_before hh' hp with hp | rfl
    · exact .inl (wrote_iff.mpr ⟨hd, hh, hp⟩)
    · exact .inr rfl

theorem wrote_of_changed (hi : History cfg s) {op : Op} {k : Key} {old : Option Reservation}
    {res : Reservation} (hx : .changed h op k old res ∈ s.log) : s.wrote h = true := by
  obtain ⟨hd, hh, -, -, resp, hresp, hok, -⟩ := hi.fits _ hx
  exact wrote_iff.mpr ⟨hd, hh, Phase.written_of_resp? hresp hok⟩

/-! ## Runs of a primary -/

/-- Once a handler has sent, no other one sends for the key until it leaves. -/
theorem Wf.sender_eq (hw : Wf cfg s) {n m : Nat} {hd hd' : Handler}
    (hh : s.handlers (.client n) = some hd) (hh' : s.handlers (.client m) = some hd')
    (hl : hd.phase.HoldsLock) (hl' : hd'.phase.HoldsLock)
    (hk : hd.request.key cfg = hd'.request.key cfg) : n = m ∧ hd = hd' := by
  have ht : hd.request.table = hd'.request.table := by rw [← key_table cfg, hk, key_table]
  obtain rfl := Thread.client.inj (hw.thread_eq hh hh' hl hl' ht)
  exact ⟨rfl, Option.some.inj (hh.symm.trans hh')⟩

section
variable {cfg : Service} {s : Node} (hcfg : cfg.backupTarget.isSome)
  (hr : Reach (step cfg) (fun _ e => OnPrimary e) (start cfg false) s)
include hr

theorem noReplication_reach :
    Reach (step cfg) (fun _ e => NoReplication e) (start cfg false) s :=
  hr.mono fun _ _ he => he.noReplication

theorem client_reach {h : Thread} {hd : Handler} (hh : s.handlers h = some hd) :
    ∃ n, h = .client n :=
  ((keeping_reach (hr.mono fun _ _ he => he.addressed)).addressed h hd hh).mp
    (clients_reach (noReplication_reach hr) h hd hh)

/-- What a primary writes, a client's handler has sent. -/
theorem writer_reach {h : Thread} {hd : Handler} {res : Reservation} (hh : s.handlers h = some hd)
    (hw : hd.Writes res) : ∃ n old, h = .client n ∧ hd.phase = .replicated old res := by
  obtain ⟨n, rfl⟩ := client_reach hr hh
  obtain ⟨old, hp⟩ := hw.of_client (clients_reach (noReplication_reach hr) _ _ hh)
  exact ⟨n, old, rfl, hp⟩

/-- A primary keeps what it confirmed: no message comes to it. -/
theorem keeps_reach : Keeps cfg s := by
  refine hr.invariant (P := Keeps cfg) ?_ fun s e s' hr hkeeps he hs => ?_
  · rintro k res ⟨n, msg, resp, hrec, -⟩
    simp [start] at hrec
  · have hk := keeping_reach (hr.mono fun _ _ he => he.addressed)
    refine (keeps_step hk hkeeps (step_spec hs) (history_step hk.history (step_spec hs))).mpr ?_
    intro h hd msg res _ hh _ hreq
    have hc := clients_reach (noReplication_reach hr) h hd hh
    simp [hreq, Request.IsClient] at hc

include hcfg

theorem replicates_reach : s.replicates = true := by
  refine hr.invariant (P := fun s => s.replicates = true) ?_ fun _ _ _ _ hr he hs =>
    replicates_step (step_spec hs) he hr
  simpa [start, replicates] using hcfg

theorem last_sender {n : Nat} {hd : Handler} (hh : s.handlers (.client n) = some hd)
    (hp : hd.phase.Sent) : (sendersOf (hd.request.key cfg) s.log).getLast? = some n := by
  refine hr.invariant (P := fun s => ∀ n hd, s.handlers (.client n) = some hd → hd.phase.Sent →
    (sendersOf (hd.request.key cfg) s.log).getLast? = some n) ?_
    (fun s e s' hr ih _ hs n hd' hh' hp => ?_) n hd hh hp
  · simp [start]
  · have hw := wf_reach (wf_start cfg false) hr
    have hsends := (step_spec hs).sends (hd'.request.key cfg)
    rcases (step_spec hs).handler_earned Phase.sent_earned hh' hp with
      hh | ⟨hd, a, p, rfl, hh, ha, rfl⟩
    · rcases hsends with heq | ⟨m, hdm, old, res, -, hhm, hpm, hkm, -, -⟩
      · rw [heq]
        exact ih n hd' hh hp
      · obtain ⟨rfl, rfl⟩ := hw.sender_eq hh hhm hp.holdsLock (by simp [hpm]) hkm.symm
        simp [hpm] at hp
    · rcases ha.sent_before hh' (replicates_reach hcfg hr)
        (clients_reach (noReplication_reach hr) _ _ hh) hp with hp | ⟨res, hlog⟩
      · rcases hsends with heq | ⟨m, hdm, old, res, he, hhm, hpm, -⟩
        · rw [heq]
          exact ih n hd hh hp
        · obtain ⟨hm, -⟩ := Event.act.inj he
          obtain rfl := Thread.client.inj hm
          obtain rfl := Option.some.inj (hh.symm.trans hhm)
          simp [hpm] at hp
      · rw [hlog, sendersOf_append]
        simp [sendersOf, Entry.sender?]

/-- What the last sender for a key has written stays as it is. -/
theorem stays_written {s' : Node} {n : Nat} {k : Key} {hd : Handler} (hs : Steps cfg s e s')
    (hh : s.handlers (.client n) = some hd) (hp : hd.phase.Written)
    (hlast : (sendersOf k s.log).getLast? = some n) :
    s'.reservations.get? k = s.reservations.get? k := by
  rcases hs.write k with ⟨-, hstore, -⟩ | ⟨h, hdw, res, hhw, -, hwr, hstore, -⟩
  · rw [hstore]
  · rw [hstore, get?_write, if_neg]
    -- Another handler that writes the key would be the last sender.
    rintro rfl
    obtain ⟨m, old, rfl, hpw⟩ := writer_reach hr hhw hwr
    have hlast' := last_sender hcfg hr hhw (by simp [hpw])
    obtain rfl := Option.some.inj (hlast.symm.trans hlast')
    obtain rfl := Option.some.inj (hh.symm.trans hhw)
    exact hwr.not_written hp

omit hcfg in
/-- A handler that has written was the last sender before, since it sends nothing more. -/
theorem last_before {s' : Node} {n : Nat} {k : Key} {hd' : Handler} (hs : Steps cfg s e s')
    (hh' : s'.handlers (.client n) = some hd') (hp : hd'.phase.Written)
    (hlast : (sendersOf k s'.log).getLast? = some n) : (sendersOf k s.log).getLast? = some n := by
  rcases hs.sends k with heq | ⟨m, hdm, old, res, rfl, hhm, hpm, -, -, heq⟩
  · rwa [← heq]
  · obtain rfl : m = n := by simpa [heq] using hlast
    rcases hs.handler hh' with hh | ⟨-, he, -⟩ | ⟨hd, a, p, he, hh, ha, rfl⟩
    · obtain rfl := Option.some.inj (hh.symm.trans hhm)
      simp [hpm] at hp
    · simp at he
    · obtain rfl := Option.some.inj (hh.symm.trans hhm)
      rcases ha.written_before hh' hp with hp | rfl
      · simp [hpm] at hp
      · obtain ⟨old, res, hp, -⟩ := ha.store_client (clients_reach (noReplication_reach hr) _ _ hh)
        simp [hpm] at hp

omit hcfg in
/-- A handler writes what it has sent. -/
theorem written_now {s' : Node} {n : Nat} {k : Key} {hd : Handler}
    (hh : s.handlers (.client n) = some hd) (ha : Acts cfg s (.client n) hd .store s')
    (hlast : (sendersOf k s.log).getLast? = some n) :
    ∃ msg, .sent (.client n) msg ∈ s.log ∧ s'.reservations.get? k = msg.effect := by
  obtain ⟨old, res, hphase, hstore⟩ :=
    ha.store_client (clients_reach (noReplication_reach hr) _ _ hh)
  obtain ⟨msg, hsent, hkey⟩ := mem_sendersOf.mp (List.mem_of_getLast? hlast)
  obtain ⟨hd', hh', hop, hkey', hfit⟩ := (history_reach (history_start cfg false) hr).fits _ hsent
  obtain rfl := Option.some.inj (hh.symm.trans hh')
  obtain rfl : k = hd.request.key cfg := keyToList_inj (hkey.symm.trans hkey')
  refine ⟨msg, hsent, ?_⟩
  rw [hstore, get?_write, if_pos rfl, ReplicationMsg.effect, hop]
  simp_all

/-- What the last sender for a key has written is still there. -/
theorem last_written {n : Nat} {k : Key} {hd : Handler} (hh : s.handlers (.client n) = some hd)
    (hp : hd.phase.Written) (hlast : (sendersOf k s.log).getLast? = some n) :
    ∃ msg, .sent (.client n) msg ∈ s.log ∧ s.reservations.get? k = msg.effect := by
  refine hr.invariant (P := fun s => ∀ n k hd, s.handlers (.client n) = some hd → hd.phase.Written →
    (sendersOf k s.log).getLast? = some n → ∃ msg, .sent (.client n) msg ∈ s.log ∧
      s.reservations.get? k = msg.effect) ?_ (fun s e s' hr ih _ hs n k hd' hh' hp hlast => ?_)
    n k hd hh hp hlast
  · simp [start]
  · replace hs := step_spec hs
    replace hlast := last_before hr hs hh' hp hlast
    obtain ⟨es, hes⟩ := hs.log_append
    have hgrow {msg} (hx : .sent (.client n) msg ∈ s.log) : .sent (.client n) msg ∈ s'.log :=
      hes ▸ List.mem_append_left es hx
    have hold {hd} (hh : s.handlers (.client n) = some hd) (hp : hd.phase.Written) :
        ∃ msg, .sent (.client n) msg ∈ s'.log ∧ s'.reservations.get? k = msg.effect := by
      obtain ⟨msg, hsent, hget⟩ := ih n k hd hh hp hlast
      exact ⟨msg, hgrow hsent, (stays_written hcfg hr hs hh hp hlast).trans hget⟩
    rcases hs.handler_earned Phase.written_earned hh' hp with hh | ⟨hd, a, p, rfl, hh, ha, rfl⟩
    · exact hold hh hp
    · rcases ha.written_before hh' hp with hp | rfl
      · exact hold hh hp
      · obtain ⟨msg, hsent, hget⟩ := written_now hr hh ha hlast
        exact ⟨msg, hgrow hsent, hget⟩

omit hcfg in
/-- What is sent for a stored key is a cancel. -/
theorem sends_over {s' : Node} {k : Key} {res : Reservation} (hs : Steps cfg s e s')
    (hget : s.reservations.get? k = some res) : sendersOf k s'.log = sendersOf k s.log ∨
      ∃ h new, s'.log = s.log ++ [.sent h ⟨.cancel, keyToList k, new⟩] := by
  refine (hs.sends k).imp_right ?_
  rintro ⟨m, hdm, old, new, -, hhm, hpm, hkm, hlog, -⟩
  have hexp := (wf_reach (wf_start cfg false) hr).found hhm (by rw [hpm]; rfl)
  rw [hkm, hget] at hexp
  cases hop : hdm.request.op with
  | book => simp [hop, Op.Expects] at hexp
  | cancel => exact ⟨_, new, by rw [hlog, hop]⟩

/-- A confirmed booking stays, and its handler stays the last sender, until a cancel is sent. -/
theorem booked_reach {n : Nat} {msg : Msg} {resp : Response} {res : Reservation}
    (hrec : .received (.client n) (.book msg) ∈ s.log) (hans : .answered (.client n) resp ∈ s.log)
    (hok : resp.status = .ok) (hres : resp.record = some res)
    (hno : ¬ CancelSentSince s.log (.client n) resp ((Request.book msg).key cfg)) :
    s.reservations.get? ((Request.book msg).key cfg) = some res ∧
      (sendersOf ((Request.book msg).key cfg) s.log).getLast? = some n := by
  refine hr.invariant (P := fun s => .received (.client n) (.book msg) ∈ s.log →
    .answered (.client n) resp ∈ s.log →
    ¬ CancelSentSince s.log (.client n) resp ((Request.book msg).key cfg) →
    s.reservations.get? ((Request.book msg).key cfg) = some res ∧
      (sendersOf ((Request.book msg).key cfg) s.log).getLast? = some n) ?_
    (fun s e s' hr ih _ hs hrec hans hno => ?_) hrec hans hno
  · simp [start]
  · have hi := history_reach (history_start cfg false) hr
    replace hs := step_spec hs
    rcases hs.answered hans hok with hold | ⟨rfl, hstore, hd, hh, hp⟩
    · obtain ⟨hd, hh, hdone⟩ := hi.fits _ hold
      replace hdone : hd.phase = .done resp := hdone
      have hpast := (hi.past _ _ hh).received
      rw [hs.received hi (history_step hi hs) hrec hh] at hpast
      obtain ⟨es, hes⟩ := hs.log_append
      obtain ⟨hget, hlast⟩ := ih hpast hold (by
        rintro ⟨h', m, hb, hm⟩
        exact hno ⟨h', m, hes ▸ before_append.mpr (.inl hb), hm⟩)
      have hw : hd.phase.Written := by simpa [hdone] using hok
      refine ⟨(stays_written hcfg hr hs hh hw hlast).trans hget, ?_⟩
      rcases sends_over hr hs hget with heq | ⟨h, new, hlog⟩
      · rwa [heq]
      · refine (hno ⟨h, ⟨.cancel, keyToList _, new⟩, ?_, rfl, rfl⟩).elim
        rw [hlog]
        exact before_append.mpr (.inr (.inl ⟨hold, List.mem_singleton_self _⟩))
    · have hk := keeping_reach (hr.mono fun _ _ he => he.addressed)
      have hreq := hs.received hi (history_step hi hs) hrec hh
      have hget := hk.leaving _ hd resp hh (by rw [hreq]; trivial) (by rw [hreq]; rfl) hp hok
      have hlast := last_sender hcfg hr hh (by simpa [hp] using hok)
      rw [hreq] at hget hlast
      rw [hstore]
      refine ⟨hget.trans hres, ?_⟩
      rcases hs.sends ((Request.book msg).key cfg) with heq | ⟨m, hdm, old, new, he, -⟩
      · rwa [heq]
      · simp at he

theorem unsent_absent {k : Key} (hnone : sendersOf k s.log = []) :
    s.reservations.get? k = none := by
  refine hr.invariant (P := fun s => sendersOf k s.log = [] → s.reservations.get? k = none) ?_
    (fun s e s' hr ih _ hs hnone => ?_) hnone
  · exact fun _ => rfl
  · have hold : sendersOf k s.log = [] := by
      rcases (step_spec hs).sends k with heq | ⟨m, hdm, old, res, -, -, -, -, -, heq⟩
      · rwa [← heq]
      · simp [heq] at hnone
    rcases (step_spec hs).write k with ⟨-, hstore, -⟩ | ⟨h, hd, res, hh, -, hwr, hstore, -⟩
    · rw [hstore]
      exact ih hold
    · obtain ⟨m, old, rfl, hp⟩ := writer_reach hr hh hwr
      rw [hstore, get?_write, if_neg]
      · exact ih hold
      · rintro rfl
        have := last_sender hcfg hr hh (by simp [hp])
        simp [hold] at this

end

end Node

end ReservationSystem
