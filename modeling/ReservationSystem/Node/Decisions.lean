import Mathlib.Data.List.Induction
import ReservationSystem.Node.Changes
import ReservationSystem.Node.Serve

/-!
# Where an answer comes from

A handler makes up its mind in one step, whatever other handlers do before and after, and its
answer follows from that step.
-/

namespace ReservationSystem.Node

open Machine

variable {cfg : Service} {s s' : Node} {h : Thread} {hd hd' : Handler} {req : Request}
  {p : Phase} {a : Action} {e : Event} {es : List Event} {resp : Response}

/-- In a run of `es` from `s`, thread `h` takes the step `a` in state `t`. -/
def Takes (cfg : Service) (s : Node) (es : List Event) (h : Thread) (t : Node) (a : Action) :
    Prop :=
  ∃ before after, es = before ++ .act h a :: after ∧ exec (step cfg) s before = some t

theorem Takes.snoc {t : Node} (ht : Takes cfg s es h t a) (e : Event) :
    Takes cfg s (es ++ [e]) h t a := by
  obtain ⟨before, after, rfl, he⟩ := ht
  exact ⟨before, after ++ [e], by simp, he⟩

theorem Takes.mem {t : Node} (ht : Takes cfg s es h t a) : .act h a ∈ es := by
  obtain ⟨before, after, rfl, -⟩ := ht
  simp

/-! ## Handlers over a run -/

theorem handler_after (hh : s.handlers h = some hd) (he : exec (step cfg) s es = some s') :
    ∃ p, s'.handlers h = some { hd with phase := p } := by
  induction es using List.reverseRecOn generalizing s' with
  | nil =>
    obtain rfl := Option.some.inj he
    exact ⟨hd.phase, hh⟩
  | append_singleton es e ih =>
    rw [exec_snoc, Option.bind_eq_some_iff] at he
    obtain ⟨t, ht, hs⟩ := he
    obtain ⟨p, hp⟩ := ih ht
    rcases (step_spec hs).handler_next hp with hsame | ⟨a, q, -, -, hq⟩
    · exact ⟨p, hsame⟩
    · exact ⟨q, hq⟩

theorem Acts.resp?_after (ha : Acts cfg s h hd a s') (hh : s'.handlers h = some hd')
    (hr : hd.phase.resp? = some resp) : hd'.phase.resp? = some resp := by
  cases ha <;> obtain rfl := handler_moved s h hh <;> simp_all

theorem resp?_after (hh : s.handlers h = some hd) (hr : hd.phase.resp? = some resp)
    (he : exec (step cfg) s es = some s') (hh' : s'.handlers h = some hd') :
    hd'.phase.resp? = some resp := by
  induction es generalizing s hd with
  | nil =>
    obtain rfl := Option.some.inj he
    obtain rfl := Option.some.inj (hh.symm.trans hh')
    exact hr
  | cons e es ih =>
    simp only [exec, Option.bind_eq_some_iff] at he
    obtain ⟨t, hs, he⟩ := he
    rcases (step_spec hs).handler_next hh with hsame | ⟨a, q, -, ha, hq⟩
    · exact ih hsame hr he
    · exact ih hq (ha.resp?_after hq hr) he

/-! ## The step that decides -/

/-- What a step of a client's handler that makes up its mind tells of the answer. -/
inductive Decides (cfg : Service) (s : Node) (req : Request) : Action → Response → Prop
  | lockTimeout : Decides cfg s req .lockTimeout lockTimedOut
  | conflict (hno : ¬ req.op.Expects (s.reservations.get? (req.key cfg))) :
      Decides cfg s req .check (req.conflict cfg)
  | returned (o : Outcome) (ho : o ≠ .acked) : Decides cfg s req (.returned o) o.answer
  | confirmed (resp : Response) (hok : resp.status = .ok) : Decides cfg s req .store resp

theorem decides (hc : req.IsClient) (hs : s.act cfg h ⟨req, p⟩ a = some s')
    (hp : p.resp? = none) (hh : s'.handlers h = some hd') (hr : hd'.phase.resp? = some resp) :
    Decides cfg s req a resp := by
  cases act_spec hs with
  | lockTimeout resp' hphase =>
    obtain rfl : p = .received := hphase
    rw [act_lockTimeout hc] at hs
    rw [← Option.some.inj hs] at hh
    obtain rfl := handler_moved s h hh
    obtain rfl := Option.some.inj hr
    exact .lockTimeout
  | checkFails resp' hphase =>
    obtain rfl : p = .locked := hphase
    rw [act_check hc] at hs
    rw [← Option.some.inj hs] at hh
    obtain rfl := handler_moved s h hh
    split_ifs at hr with hyes
    · simp at hr
    · obtain rfl := Option.some.inj hr
      exact .conflict hyes
  | refused o resp' old res hphase ho =>
    obtain rfl : p = .replicating old res := hphase
    rw [act_replicate hc (.inr rfl)] at hs
    cases o with
    | acked => exact absurd rfl ho
    | _ =>
      rw [← Option.some.inj hs] at hh
      obtain rfl := handler_moved s h hh
      obtain rfl := Option.some.inj hr
      exact .returned _ ho
  | store old res resp' hc' hphase hok =>
    obtain rfl := handler_moved s h hh
    obtain rfl := Option.some.inj hr
    exact .confirmed _ hok
  | apply msg resp' hreq =>
    obtain rfl : req = .applyReplication msg := hreq
    exact hc.elim
  | release resp' hphase =>
    obtain rfl : p = .leaving resp' := hphase
    simp at hp
  | _ =>
    obtain rfl := handler_moved s h hh
    simp at hr

/-- A handler with an answer that had none before has taken such a step. -/
theorem decides_of_answer (hc : req.IsClient) (hh : s.handlers h = some ⟨req, p⟩)
    (hp : p.resp? = none) (he : exec (step cfg) s es = some s') (hh' : s'.handlers h = some hd')
    (hr : hd'.phase.resp? = some resp) :
    ∃ t a, Takes cfg s es h t a ∧ Decides cfg t req a resp := by
  induction es using List.reverseRecOn generalizing s' hd' with
  | nil =>
    obtain rfl := Option.some.inj he
    obtain rfl := Option.some.inj (hh.symm.trans hh')
    exact absurd (hp.symm.trans hr) nofun
  | append_singleton es e ih =>
    rw [exec_snoc, Option.bind_eq_some_iff] at he
    obtain ⟨t, ht, hs⟩ := he
    obtain ⟨q, hq⟩ := handler_after hh ht
    cases hqr : q.resp? with
    | some resp' =>
      have hsame : hd'.phase.resp? = some resp' :=
        resp?_after hq hqr (show exec (step cfg) t [e] = some s' by simp [exec, hs]) hh'
      obtain rfl := Option.some.inj (hsame.symm.trans hr)
      obtain ⟨u, a, htakes, hdec⟩ := ih ht hq hqr
      exact ⟨u, a, htakes.snoc e, hdec⟩
    | none =>
      rcases (step_spec hs).handler_next hq with hsame | ⟨a, q', rfl, -, hq'⟩
      · obtain rfl := Option.some.inj (hsame.symm.trans hh')
        exact absurd (hqr.symm.trans hr) nofun
      · refine ⟨t, a, ⟨es, [], rfl, ht⟩, decides hc ?_ hqr hh' hr⟩
        simpa [step, hq] using hs

theorem answer_of_step (hc : req.IsClient) (hh : s.handlers h = some ⟨req, p⟩)
    (he : exec (step cfg) s es = some s') (hh' : s'.handlers h = some hd')
    (hr : hd'.phase.resp? = some resp) {t : Node} (ht : Takes cfg s es h t a) :
    (a = .check → ¬ req.op.Expects (t.reservations.get? (req.key cfg)) →
        resp = req.conflict cfg) ∧
      ∀ text, a = .returned (.raised text) → resp = errorAnswer text := by
  obtain ⟨before, after, rfl, ht⟩ := ht
  obtain ⟨q, hq⟩ := handler_after hh ht
  have hsteps : ∃ t', t.act cfg h ⟨req, q⟩ a = some t' ∧ exec (step cfg) t' after = some s' := by
    rw [exec_append, ht, Option.bind_some] at he
    simpa [exec, step, hq, Option.bind_eq_some_iff] using he
  obtain ⟨t', hact, he'⟩ := hsteps
  refine ⟨?_, ?_⟩
  · rintro rfl hno
    obtain rfl : q = .locked := by cases act_spec hact <;> assumption
    rw [act_check hc, if_neg hno] at hact
    obtain rfl := Option.some.inj hact
    have := resp?_after (Function.update_self ..) rfl he' hh'
    exact Option.some.inj (hr.symm.trans this)
  · rintro text rfl
    obtain ⟨old, res, rfl⟩ : ∃ old res, q = .replicating old res := by
      cases act_spec hact with
      | refused o resp old res hphase => exact ⟨old, res, hphase⟩
    rw [act_replicate hc (.inr rfl)] at hact
    obtain rfl := Option.some.inj hact
    have := resp?_after (Function.update_self ..) rfl he' hh'
    exact Option.some.inj (hr.symm.trans this)

/-! ## What is stamped -/

/-- What a client's handler has stamped is a record of its request. -/
def Stamped (cfg : Service) (s : Node) : Prop :=
  ∀ h hd old res, s.handlers h = some hd → hd.request.IsClient → hd.phase.old? = some old →
    hd.phase.res? = some res → ∃ now ts, hd.request.record cfg now ts old = some res

theorem stamped_start (cfg : Service) (backUp : Bool) : Stamped cfg (start cfg backUp) :=
  fun h hd old res hh => by simp [start] at hh

theorem stamped_step (hi : Stamped cfg s) (hs : s.step cfg e = some s') : Stamped cfg s' := by
  intro h hd' old res hh' hc hold hres
  rcases (step_spec hs).handler hh' with
    hsame | ⟨-, -, ⟨-, hp⟩ | ⟨resp, hp, -⟩⟩ | ⟨hd, a, p, rfl, hh, ha, rfl⟩
  · exact hi h hd' old res hsame hc hold hres
  · simp [hp] at hold
  · simp [hp] at hold
  · have hact : s.act cfg h hd a = some s' := by simpa [step, hh] using hs
    obtain ⟨req, q⟩ := hd
    cases ha with
    | stamp now old' res' hp =>
      obtain rfl : q = .checked old' := hp
      obtain rfl : p = .stamped old' res' := congrArg Handler.phase (handler_moved s h hh')
      obtain ⟨rfl, rfl⟩ : old' = old ∧ res' = res := by simpa using And.intro hold hres
      rw [act_stamp hc, Option.map_eq_some_iff] at hact
      obtain ⟨r, hr, hs'⟩ := hact
      have hsame : r = res' := by
        have := congrFun (congrArg Node.handlers hs') h
        simpa [stamp, moveTo] using this
      exact ⟨now, _, hsame ▸ hr⟩
    | skip old' res' hp | send old' res' hp =>
      obtain rfl : q = .stamped old' res' := hp
      obtain rfl := congrArg Handler.phase (handler_moved s h hh')
      exact hi h ⟨req, .stamped old' res'⟩ old res hh hc hold hres
    | acked old' res' hp =>
      obtain rfl : q = .replicating old' res' := hp
      obtain rfl := congrArg Handler.phase (handler_moved s h hh')
      exact hi h ⟨req, .replicating old' res'⟩ old res hh hc hold hres
    | _ =>
      obtain rfl := congrArg Handler.phase (handler_moved s h hh')
      simp at hres

theorem stamped_reach {C : Node → Event → Prop} {backUp : Bool}
    (hr : Reach (step cfg) C (start cfg backUp) s) : Stamped cfg s :=
  hr.invariant (stamped_start cfg backUp) fun _ _ _ _ hi _ hs => stamped_step hi hs

/-! ## What is stored -/

/-- A record that the request puts under its key. -/
def Brings (cfg : Service) (res : Reservation) : Request → Prop
  | .book msg => ∃ now ts, res = newReservation cfg msg now ts
  | .cancel _ => False
  | .applyReplication msg => msg.operation = .book ∧ res = msg.reservation

theorem brings_of_write (hst : Stamped cfg s) (hh : s.handlers h = some hd) {res : Reservation}
    (hw : hd.Writes res) (hop : hd.request.op = .book) : Brings cfg res hd.request := by
  obtain ⟨req, q⟩ := hd
  cases hw with
  | client old res hc hp =>
    obtain rfl : q = .replicated old res := hp
    obtain ⟨now, ts, hrec⟩ := hst h _ old res hh hc rfl rfl
    cases req with
    | book msg => exact ⟨now, ts, (Option.some.inj hrec).symm⟩
    | cancel msg => simp [Request.op] at hop
    | applyReplication msg => exact hc.elim
  | replica msg hreq hp =>
    obtain rfl : req = .applyReplication msg := hreq
    exact ⟨hop, rfl⟩

/-- A record that is stored was stored before, or has just been brought by a request. -/
theorem stored_step (hst : Stamped cfg s) (hs : Steps cfg s e s') {k : Key} {res : Reservation}
    (hget : s'.reservations.get? k = some res) :
    s.reservations.get? k = some res ∨ ∃ h hd, e = .act h .store ∧ s.handlers h = some hd ∧
      hd.request.key cfg = k ∧ Brings cfg res hd.request := by
  rcases hs.write k with ⟨-, hsame, -⟩ | ⟨h, hd, res', hh, rfl, hw, hwrite, -⟩
  · exact .inl (hsame ▸ hget)
  · rw [hwrite, get?_write] at hget
    split_ifs at hget with hk
    · cases hop : hd.request.op with
      | cancel => simp [hop, Op.effect] at hget
      | book =>
        rw [hop] at hget
        obtain rfl := Option.some.inj hget
        exact .inr ⟨h, hd, rfl, hh, hk.symm, brings_of_write hst hh hw hop⟩
    · exact .inl hget

/-- What a booking leaves under its key. -/
theorem book_stored (hst : Stamped cfg s) (hs : Steps cfg s (.act h .store) s')
    (hh : s.handlers h = some hd) (hop : hd.request.op = .book) :
    ∃ res, s'.reservations.get? (hd.request.key cfg) = some res ∧ Brings cfg res hd.request := by
  rcases hs.write (hd.request.key cfg) with ⟨hno, -⟩ | ⟨h', hd', res, hh', he, hw, hwrite, -⟩
  · exact absurd rfl (hno h)
  · obtain ⟨rfl, -⟩ := Event.act.inj he
    obtain rfl := Option.some.inj (hh.symm.trans hh')
    refine ⟨res, ?_, brings_of_write hst hh hw hop⟩
    rw [hwrite, get?_write, if_pos rfl, hop]
    rfl

/-- A booking that is confirmed was confirmed before, or has just been stored. -/
theorem confirmation_step (hst : Stamped cfg s) (hs : Steps cfg s e s') {res : Reservation}
    (hh : s'.handlers h = some hd) (hc : hd.request.IsClient) (hop : hd.request.op = .book)
    (hresp : hd.phase.resp? = some resp) (hok : resp.status = .ok)
    (hres : resp.record = some res) :
    (∃ hd', s.handlers h = some hd' ∧ hd'.request = hd.request ∧
        hd'.phase.resp? = some resp) ∨
      ∃ hd', e = .act h .store ∧ s.handlers h = some hd' ∧ hd'.request = hd.request ∧
        Brings cfg res hd.request := by
  rcases hs.handler hh with
    hsame | ⟨-, -, ⟨-, hp⟩ | ⟨resp', hp, herr⟩⟩ | ⟨hd, a, p, rfl, hh', ha, rfl⟩
  · exact .inl ⟨_, hsame, rfl, hresp⟩
  · simp [hp] at hresp
  · obtain rfl : resp' = resp := by simpa [hp] using hresp
    simp [hok] at herr
  · obtain ⟨req, q⟩ := hd
    cases ha with
    | store old res' resp' hc' hp hok' hres' =>
      obtain rfl := congrArg Handler.phase (handler_moved s h hh)
      obtain rfl : resp' = resp := by simpa using hresp
      obtain rfl : res' = res := Option.some.inj (hres'.symm.trans hres)
      exact .inr ⟨_, rfl, hh', rfl, brings_of_write hst hh' (.client old res' hc hp) hop⟩
    | release resp' hp =>
      obtain rfl := congrArg Handler.phase (handler_moved s h hh)
      exact .inl ⟨_, hh', rfl, by rw [← hresp, show q = .leaving resp' from hp]; rfl⟩
    | apply msg resp' hreq =>
      obtain rfl : req = .applyReplication msg := hreq
      exact hc.elim
    | _ =>
      obtain rfl := congrArg Handler.phase (handler_moved s h hh)
      simp_all

end ReservationSystem.Node
