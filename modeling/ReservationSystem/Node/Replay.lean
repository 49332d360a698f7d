import ReservationSystem.Node.Order

/-!
# Replication messages in any order

`_applyReplication` raises the clock with the time of a message but never compares it with
the time of the record that it replaces. So what counts is which message is applied last.
-/

namespace ReservationSystem.Node

open Machine

variable {cfg : Service} {p s₀ s s' : Node} {e : Event} {k : Key}

/-- The event belongs to the replication of what `p` has sent. Each message has a connection
and a handler of its own. -/
def Replays (p : Node) : Event → Prop
  | .receive (.replica n) (.applyReplication msg) => .sent (.client n) msg ∈ p.log
  | .act (.replica _) _ | .promote => True
  | _ => False

/-- The messages for `k` that were applied on the way from `s₀` to `s`, in order. -/
def applied (k : Key) (s₀ s : Node) : List ReplicationMsg :=
  ((changesOf k s.log).drop (changesOf k s₀.log).length).map fun c => ⟨c.op, keyToList k, c.res⟩

/-- `msg` has the highest time in `msgs`. -/
def Newest (msgs : List ReplicationMsg) (msg : ReplicationMsg) : Prop :=
  msg ∈ msgs ∧ ∀ m ∈ msgs, m.reservation.lamportTs ≤ msg.reservation.lamportTs

/-- The newest of the messages has the last word. -/
def EndsNewest (k : Key) (s₀ s : Node) : Prop :=
  ∀ msg, Newest (applied k s₀ s) msg →
    s.reservations.get? k = msg.effect

/-- The newest of the messages comes last, or it and the last one are both cancels. -/
def NewestLast (k : Key) (s₀ s : Node) : Prop :=
  ∀ msg last, Newest (applied k s₀ s) msg → (applied k s₀ s).getLast? = some last →
    msg = last ∨ msg.operation = .cancel ∧ last.operation = .cancel

/-! ## What is applied -/

/-- Since `s₀` messages of `p` have come in, some of them have been applied, and under each
key the last one counts. -/
structure Replayed (cfg : Service) (p s₀ s : Node) : Prop where
  requests : ∀ n hd, s.handlers (.replica n) = some hd → ∃ msg,
    hd.request = .applyReplication msg ∧ .sent (.client n) msg ∈ p.log ∧
      (hd.phase.resp? = none → keyToList (hd.request.key cfg) = msg.key)
  since : ∀ k, changesOf k s₀.log <+: changesOf k s.log
  sent : ∀ k, ∀ msg ∈ applied k s₀ s, ∃ h, .sent h msg ∈ p.log
  content : ∀ k, s.reservations.get? k =
    ((applied k s₀ s).getLast?.map fun msg => msg.effect).getD
      (s₀.reservations.get? k)

theorem replayed_start (hfresh : ∀ n, s₀.handlers (.replica n) = none) :
    Replayed cfg p s₀ s₀ where
  requests n hd hh := by simp [hfresh] at hh
  since k := List.prefix_rfl
  sent k msg hmsg := by simp [applied] at hmsg
  content k := by simp [applied]

theorem requests_step (hr : Replayed cfg p s₀ s) (he : Replays p e) (hs : Steps cfg s e s')
    {n : Nat} {hd : Handler} (hh : s'.handlers (.replica n) = some hd) : ∃ msg,
      hd.request = .applyReplication msg ∧ .sent (.client n) msg ∈ p.log ∧
        (hd.phase.resp? = none → keyToList (hd.request.key cfg) = msg.key) := by
  rcases hs.handler hh with hh | ⟨-, rfl, hnew⟩ | ⟨hd, a, p, -, hh', ha, rfl⟩
  · exact hr.requests n hd hh
  · obtain ⟨req, phase⟩ := hd
    cases req with
    | applyReplication msg =>
      refine ⟨msg, rfl, he, fun hp => ?_⟩
      rcases hnew with ⟨hadm, -⟩ | ⟨resp, hdone, -⟩
      · exact (message_admitted hadm).1.symm
      · simp [show phase = .done resp from hdone] at hp
    | _ => exact he.elim
  · obtain ⟨msg, hreq, hsent, hkey⟩ := hr.requests n hd hh'
    refine ⟨msg, hreq, hsent, fun hp => hkey ?_⟩
    -- A handler that has not made up its mind had not before.
    cases ha <;> obtain hm := handler_moved s _ hh <;> simp_all

theorem applied_append {cs : List Change} (hsince : changesOf k s₀.log <+: changesOf k s.log)
    (hlog : changesOf k s'.log = changesOf k s.log ++ cs) :
    applied k s₀ s' = applied k s₀ s ++ cs.map fun c => ⟨c.op, keyToList k, c.res⟩ := by
  rw [applied, hlog, List.drop_append_of_le_length hsince.length_le, List.map_append, applied]

theorem Replayed.writes (hr : Replayed cfg p s₀ s) {h : Thread} {hd : Handler} {res : Reservation}
    (he : Replays p (.act h .store)) (hh : s.handlers h = some hd) (hwr : hd.Writes res) :
    ∃ h, .sent h ⟨hd.request.op, keyToList (hd.request.key cfg), res⟩ ∈ p.log := by
  cases h with
  | client n => exact he.elim
  | replica n =>
    obtain ⟨msg, hreq, hsent, hkey⟩ := hr.requests n hd hh
    cases hwr with
    | client old res hc => simp [hreq, Request.IsClient] at hc
    | replica msg' hreq' hp =>
      obtain rfl := Request.applyReplication.inj (hreq.symm.trans hreq')
      rw [hkey (by rw [hp]; rfl), hreq]
      exact ⟨_, hsent⟩

theorem replayed_step (hr : Replayed cfg p s₀ s) (he : Replays p e) (hs : Steps cfg s e s') :
    Replayed cfg p s₀ s' := by
  refine ⟨fun n hd hh => requests_step hr he hs hh, fun k => ?_, fun k => ?_, fun k => ?_⟩
  all_goals
    rcases hs.write k with ⟨-, hstore, hlog⟩ | ⟨h, hd, res, hh, rfl, hwr, hstore, hlog⟩
  · exact hlog ▸ hr.since k
  · exact hlog ▸ (hr.since k).trans (List.prefix_append _ _)
  · simpa only [applied, hlog] using hr.sent k
  · rw [applied_append (hr.since k) hlog]
    rintro msg hmsg
    rcases List.mem_append.mp hmsg with hmsg | hmsg
    · exact hr.sent k msg hmsg
    · split_ifs at hmsg with hk
      · rw [List.map_singleton, List.mem_singleton] at hmsg
        subst hk hmsg
        exact hr.writes he hh hwr
      · simp at hmsg
  · simpa only [applied, hlog, hstore] using hr.content k
  · rw [applied_append (hr.since k) hlog, hstore, get?_write]
    split_ifs with hk hk' hk'
    · simp [ReplicationMsg.effect]
    · exact absurd hk.symm hk'
    · exact absurd hk'.symm hk
    · simpa using hr.content k

/-! ## Runs -/

theorem replayed_reach (hfresh : ∀ n, s₀.handlers (.replica n) = none)
    (hr : Reach (step cfg) (fun _ e => Replays p e) s₀ s) : Replayed cfg p s₀ s :=
  hr.invariant (replayed_start hfresh) fun _ _ _ _ hi he hs => replayed_step hi he (step_spec hs)

theorem effect_inj {msg last : ReplicationMsg} (hk : msg.key = last.key)
    (h : msg.effect = last.effect) :
    msg = last ∨ msg.operation = .cancel ∧ last.operation = .cancel := by
  obtain ⟨op, key, res⟩ := msg
  obtain ⟨op', key', res'⟩ := last
  obtain rfl := hk
  cases op <;> cases op' <;> simp_all [ReplicationMsg.effect, Op.effect]

theorem mem_applied_key {msg : ReplicationMsg} (h : msg ∈ applied k s₀ s) :
    msg.key = keyToList k := by
  obtain ⟨c, -, rfl⟩ := List.mem_map.mp h
  rfl

/-- After any replay of what a primary has sent, a key holds what its newest message left
exactly when that message came last, or was a cancel and so was the last one. -/
theorem ends_newest_iff {primary : Service} {backUp : Bool}
    (hp : Reach (step primary) (fun _ e => NoReplication e) (start primary backUp) p)
    (hfresh : ∀ n, s₀.handlers (.replica n) = none)
    (hr : Reach (step cfg) (fun _ e => Replays p e) s₀ s) (k : Key) :
    (∀ msg ∈ applied k s₀ s, ∃ h, .sent h msg ∈ p.log) ∧
      (∀ msg msg', Newest (applied k s₀ s) msg → Newest (applied k s₀ s) msg' → msg = msg') ∧
      (EndsNewest k s₀ s ↔ NewestLast k s₀ s) := by
  have hi := replayed_reach hfresh hr
  refine ⟨hi.sent k, fun msg msg' hnew hnew' => ?_, ?_⟩
  · obtain ⟨h, hsent⟩ := hi.sent k msg hnew.1
    obtain ⟨h', hsent'⟩ := hi.sent k msg' hnew'.1
    exact sent_inj hp hsent hsent' (le_antisymm (hnew'.2 msg hnew.1) (hnew.2 msg' hnew'.1))
  have hcontent {last : ReplicationMsg} (hlast : (applied k s₀ s).getLast? = some last) :
      s.reservations.get? k = last.effect := by
    rw [hi.content k, hlast]
    rfl
  constructor
  · intro hends msg last hnew hlast
    refine effect_inj ?_ ((hends msg hnew).symm.trans (hcontent hlast))
    rw [mem_applied_key hnew.1, mem_applied_key (List.mem_of_getLast? hlast)]
  · intro hlast msg hnew
    obtain ⟨last, hl⟩ : ∃ last, (applied k s₀ s).getLast? = some last :=
      Option.isSome_iff_exists.mp (by simpa using List.ne_nil_of_mem hnew.1)
    rw [hcontent hl]
    rcases hlast msg last hnew hl with rfl | ⟨hm, hl'⟩
    · rfl
    · rw [ReplicationMsg.effect, ReplicationMsg.effect, hm, hl']
      rfl

/-! ## A message that is late -/

/-- Alice's booking is not acknowledged in time, and then Bob's is. -/
def aliceThenBob : List Event :=
  .receive (.client 0) (.book (dinner "T1" "Alice")) ::
  acts (.client 0) [.acquire, .check, .stamp 0, .send, .returned .failed, .release] ++
  .receive (.client 1) (.book (dinner "T1" "Bob")) ::
  acts (.client 1) [.acquire, .check, .stamp 0, .send, .returned .acked, .store, .release]

def aliceOrBob (name : String) (ts : Nat) : ReplicationMsg :=
  ⟨.book, keyToList (dinnerKey "T1"), newReservation urbanPlates (dinner "T1" name) 0 ts⟩

theorem sent_aliceThenBob : ∃ p,
    Reach (step urbanPlates) (fun _ e => NoReplication e) (start urbanPlates false) p ∧
      .sent (.client 0) (aliceOrBob "Alice" 1) ∈ p.log ∧
        .sent (.client 1) (aliceOrBob "Bob" 2) ∈ p.log := by
  have hm : Meets (step urbanPlates) (fun _ e => NoReplication e) (start urbanPlates false)
      aliceThenBob :=
    meets_of_forall (by simp [aliceThenBob, acts, NoReplication, Request.IsClient])
  exact ⟨_, reach_of_exec hm rfl, List.mem_of_getElem? (i := 3) rfl,
    List.mem_of_getElem? (i := 8) rfl⟩

/-- The backup receives a message and applies it. -/
def replay (n : Nat) (msg : ReplicationMsg) : List Event :=
  .receive (.replica n) (.applyReplication msg) ::
  acts (.replica n) [.acquire, .advance, .store, .release]

theorem replays_replay {n : Nat} {msg : ReplicationMsg} (h : .sent (.client n) msg ∈ p.log) :
    ∀ e ∈ replay n msg, Replays p e := by
  simpa [replay, acts, Replays] using h

theorem ends_newest_inOrder : ∃ s,
    exec (step urbanBackup) (start urbanBackup true)
      (replay 0 (aliceOrBob "Alice" 1) ++ replay 1 (aliceOrBob "Bob" 2)) = some s ∧
        EndsNewest (dinnerKey "T1") (start urbanBackup true) s := by
  obtain ⟨p, hp, halice, hbob⟩ := sent_aliceThenBob
  have hm : Meets (step urbanBackup) (fun _ e => Replays p e) (start urbanBackup true)
      (replay 0 (aliceOrBob "Alice" 1) ++ replay 1 (aliceOrBob "Bob" 2)) :=
    meets_of_forall fun e he _ => (List.mem_append.mp he).elim (replays_replay halice e)
      (replays_replay hbob e)
  refine ⟨_, rfl, (ends_newest_iff hp (fun _ => rfl) (reach_of_exec hm rfl) _).2.2.mpr ?_⟩
  rintro msg last ⟨hmem, hnew⟩ hlast
  obtain rfl : aliceOrBob "Bob" 2 = last := Option.some.inj hlast
  rcases List.mem_cons.mp hmem with rfl | hmem
  · exact absurd (hnew (aliceOrBob "Bob" 2) (.tail _ (.head _))) (by decide)
  · exact .inl (List.mem_singleton.mp hmem)

/-- Alice's message, which the primary has given up, comes after the one of Bob's confirmed
booking and replaces it. -/
theorem not_ends_newest : ¬ ∀ (primary cfg : Service) (p s₀ s : Node) (k : Key),
    Reach (step primary) (fun _ e => NoReplication e) (start primary false) p →
      (∀ n, s₀.handlers (.replica n) = none) →
      Reach (step cfg) (fun _ e => Replays p e) s₀ s → EndsNewest k s₀ s := by
  intro hall
  obtain ⟨p, hp, halice, hbob⟩ := sent_aliceThenBob
  have hm : Meets (step urbanBackup) (fun _ e => Replays p e) (start urbanBackup true)
      (replay 1 (aliceOrBob "Bob" 2) ++ replay 0 (aliceOrBob "Alice" 1)) :=
    meets_of_forall fun e he _ => (List.mem_append.mp he).elim (replays_replay hbob e)
      (replays_replay halice e)
  have hends := hall urbanPlates urbanBackup p _ _ (dinnerKey "T1") hp (fun _ => rfl)
    (reach_of_exec hm rfl)
  have hget := hends (aliceOrBob "Bob" 2) ⟨.head _, fun m hmem => ?_⟩
  · have hname : some (Json.str "Alice") = some (Json.str "Bob") :=
      congrArg (Option.map Reservation.customerName) hget
    simp at hname
  · rcases List.mem_cons.mp hmem with rfl | hmem
    · exact le_rfl
    · obtain rfl : m = aliceOrBob "Alice" 1 := List.mem_singleton.mp hmem
      decide

end ReservationSystem.Node
