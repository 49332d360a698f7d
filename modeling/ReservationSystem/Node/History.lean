import ReservationSystem.Node.Invariants

/-!
# The log of a node and the phases of its handlers

Each entry of the log fits the handler of its thread, and each handler has left the
entries that its phase says.
-/

namespace ReservationSystem

def Entry.thread : Entry → Thread
  | .received h _ | .acquired h _ | .stamped h .. | .sent h _ | .acked h | .changed h ..
  | .answered h _ => h

/-- What an entry says of its handler from then on. -/
def Entry.Fits (cfg : Service) (hd : Handler) : Entry → Prop
  | .received _ req => hd.request = req
  | .acquired _ t => hd.request.table = t ∧ hd.phase ≠ .received
  | .stamped _ k old res =>
    k = hd.request.key cfg ∧
      (hd.phase.old? = some old ∧ hd.phase.res? = some res ∨ ∃ resp, hd.phase.resp? = some resp)
  | .sent _ msg =>
    msg.operation = hd.request.op ∧ msg.key = keyToList (hd.request.key cfg) ∧
      ((∃ old, hd.phase = .replicating old msg.reservation ∨
        hd.phase = .replicated old msg.reservation) ∨ ∃ resp, hd.phase.resp? = some resp)
  | .acked _ =>
    (∃ old res, hd.phase = .replicated old res) ∨
      ∃ resp, hd.phase.resp? = some resp ∧ resp.status = .ok
  | .changed _ op k _ res =>
    op = hd.request.op ∧ k = hd.request.key cfg ∧
      ∃ resp, hd.phase.resp? = some resp ∧ resp.status = .ok ∧
        (hd.request.IsClient → resp.record = some res)
  | .answered _ resp => hd.phase = .done resp

/-- The entries that a handler has left behind. -/
structure Handler.Past (cfg : Service) (log : List Entry) (h : Thread) (hd : Handler) : Prop where
  received : .received h hd.request ∈ log
  acquired : hd.phase.HoldsLock → .acquired h hd.request.table ∈ log
  stamped : ∀ old res, hd.phase.old? = some old → hd.phase.res? = some res →
    .stamped h (hd.request.key cfg) old res ∈ log
  sent : ∀ old res, hd.phase = .replicating old res →
    .sent h ⟨hd.request.op, keyToList (hd.request.key cfg), res⟩ ∈ log
  changed : ∀ resp, hd.phase.resp? = some resp → resp.status = .ok →
    ∃ old res, .changed h hd.request.op (hd.request.key cfg) old res ∈ log
  answered : ∀ resp, hd.phase = .done resp → .answered h resp ∈ log

namespace Node

variable {cfg : Service} {s s' : Node} {h h' : Thread} {hd hd' : Handler} {a : Action}
  {e : Event} {x : Entry}

structure History (cfg : Service) (s : Node) : Prop where
  fits : ∀ x ∈ s.log, ∃ hd, s.handlers x.thread = some hd ∧ x.Fits cfg hd
  past : ∀ h hd, s.handlers h = some hd → hd.Past cfg s.log h

theorem history_start (cfg : Service) (backUp : Bool) : History cfg (start cfg backUp) where
  fits x hx := by simp [start] at hx
  past h hd hh := by simp [start] at hh

/-- The log only grows, by entries of the acting thread that fit its handler. -/
theorem Acts.log (ha : Acts cfg s h hd a s') (hh' : s'.handlers h = some hd') :
    ∃ es, s'.log = s.log ++ es ∧ ∀ x ∈ es, x.thread = h ∧ x.Fits cfg hd' := by
  cases ha <;> obtain rfl := handler_moved s h hh' <;>
    exact ⟨_, rfl, by simp_all [Entry.thread, Entry.Fits, Request.op, Request.IsClient]⟩

theorem Steps.log_append (hs : Steps cfg s e s') : ∃ es, s'.log = s.log ++ es := by
  cases hs with
  | receive | refuse => exact ⟨_, rfl⟩
  | act h hd a s' hh ha =>
    obtain ⟨p, hp⟩ := ha.handlers_self
    obtain ⟨es, hlog, -⟩ := ha.log hp
    exact ⟨es, hlog⟩
  | promote => exact ⟨[], by rw [promote_log, List.append_nil]⟩

theorem Acts.fits_self (ha : Acts cfg s h hd a s') (hh' : s'.handlers h = some hd')
    (hx : x.Fits cfg hd) : x.Fits cfg hd' := by
  cases ha <;> obtain rfl := handler_moved s h hh' <;> cases x <;> simp_all [Entry.Fits]

theorem Acts.fits (hi : History cfg s) (hh : s.handlers h = some hd) (ha : Acts cfg s h hd a s')
    (hx : x ∈ s'.log) : ∃ hd, s'.handlers x.thread = some hd ∧ x.Fits cfg hd := by
  obtain ⟨p, hh'⟩ := ha.handlers_self
  obtain ⟨es, hlog, hes⟩ := ha.log hh'
  rw [hlog, List.mem_append] at hx
  rcases hx with hx | hx
  · obtain ⟨hdx, hhx, hfits⟩ := hi.fits x hx
    by_cases hne : x.thread = h
    · rw [hne] at hhx ⊢
      obtain rfl := Option.some.inj (hhx.symm.trans hh)
      exact ⟨_, hh', ha.fits_self hh' hfits⟩
    · exact ⟨hdx, (ha.handlers_ne hne).trans hhx, hfits⟩
  · obtain ⟨rfl, hfits⟩ := hes x hx
    exact ⟨_, hh', hfits⟩

theorem Acts.past_self (hp : hd.Past cfg s.log h) (ha : Acts cfg s h hd a s')
    (hh' : s'.handlers h = some hd') : hd'.Past cfg s'.log h := by
  obtain ⟨hr, hacq, hst, hse, hch, han⟩ := hp
  cases ha <;> obtain rfl := handler_moved s h hh' <;>
    constructor <;> simp_all
  case store.changed => exact ⟨_, _, .inr ⟨rfl, rfl⟩⟩
  case apply.changed => exact ⟨_, _, .inr ⟨rfl, rfl, rfl⟩⟩

theorem past_mono {log log' : List Entry} (hsub : log ⊆ log') (hp : hd.Past cfg log h) :
    hd.Past cfg log' h where
  received := hsub hp.received
  acquired hl := hsub (hp.acquired hl)
  stamped old res ho hr := hsub (hp.stamped old res ho hr)
  sent old res hr := hsub (hp.sent old res hr)
  changed resp hr hok := by
    obtain ⟨old, res, hmem⟩ := hp.changed resp hr hok
    exact ⟨old, res, hsub hmem⟩
  answered resp hr := hsub (hp.answered resp hr)

/-- A thread that starts begins a history of its own. -/
theorem history_moveTo_new (hi : History cfg s) (hnew : s.handlers h = none) (req : Request)
    {p : Phase} {es : List Entry}
    (hes : ∀ x ∈ es, x.thread = h ∧ x.Fits cfg ⟨req, p⟩)
    (hp : Handler.Past cfg es h ⟨req, p⟩) :
    History cfg (s.moveTo h ⟨req, .received⟩ p es) := by
  constructor
  · intro x hx
    rw [moveTo_log, List.mem_append] at hx
    rcases hx with hx | hx
    · obtain ⟨hdx, hhx, hfits⟩ := hi.fits x hx
      have hne : x.thread ≠ h := by
        intro heq
        rw [heq, hnew] at hhx
        simp at hhx
      exact ⟨hdx, (Function.update_of_ne hne _ _).trans hhx, hfits⟩
    · obtain ⟨rfl, hfits⟩ := hes x hx
      exact ⟨_, Function.update_self .., hfits⟩
  · intro h' hd' hh'
    by_cases hne : h' = h
    · subst hne
      obtain rfl := handler_moved s h' hh'
      exact past_mono (List.subset_append_right _ _) hp
    · have hh'' : s.handlers h' = some hd' := (Function.update_of_ne hne _ _).symm.trans hh'
      exact past_mono (List.subset_append_left _ _) (hi.past h' hd' hh'')

theorem history_step (hi : History cfg s) (hs : Steps cfg s e s') : History cfg s' := by
  cases hs with
  | receive h req hnew =>
    refine history_moveTo_new hi hnew req (by simp [Entry.thread, Entry.Fits]) ?_
    constructor <;> simp
  | refuse h req resp hnew hadm herr =>
    refine history_moveTo_new hi hnew req (by simp [Entry.thread, Entry.Fits]) ?_
    constructor <;> simp [herr]
  | act h hd a s' hh ha =>
    refine ⟨fun x hx => ha.fits hi hh hx, fun h' hd' hh' => ?_⟩
    by_cases hne : h' = h
    · subst hne
      exact ha.past_self (hi.past h' hd hh) hh'
    · obtain ⟨p, hp⟩ := ha.handlers_self
      obtain ⟨es, hlog, -⟩ := ha.log hp
      rw [ha.handlers_ne hne] at hh'
      rw [hlog]
      exact past_mono (List.subset_append_left _ _) (hi.past h' hd' hh')
  | promote =>
    constructor
    · simpa only [promote_handlers, promote_log] using hi.fits
    · simpa only [promote_handlers, promote_log] using hi.past

open Machine in
theorem history_reach {C : Node → Event → Prop} {start : Node} (h0 : History cfg start)
    (hr : Reach (step cfg) C start s) : History cfg s :=
  hr.invariant h0 fun _ _ _ _ hi _ hs => history_step hi (step_spec hs)

end Node

end ReservationSystem
