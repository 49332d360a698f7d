import ReservationSystem.Client.Modify
import ReservationSystem.Node.Decisions

/-!
# When a modification loses nothing

The node carries out a request at one step, whether or not its answer arrives. `Careful` says of
each step of the client that it fits what the node has done. What is shown is about the moment at
which the client returns: the node takes no step after that.
-/

namespace ReservationSystem

open Machine

/-! ## What must not be lost -/

/-- The same reservation, made at another time. -/
def SameBooking (res res' : Reservation) : Prop :=
  res.tableId = res'.tableId ∧ res.date = res'.date ∧ res.timeslot = res'.timeslot ∧
    res.customerName = res'.customerName ∧ res.partySize = res'.partySize ∧
    res.contact = res'.contact

instance (res res' : Reservation) : Decidable (SameBooking res res') :=
  inferInstanceAs (Decidable (_ ∧ _))

def Modification.key (m : Modification) (res : Reservation) : Key :=
  (m.cfg.restaurantId, res.tableId, m.cfg.fstr res.date ++ "_" ++ m.cfg.fstr res.timeslot)

/-- The node has a reservation like `res`. -/
def Stands (m : Modification) (node : Node) (res : Reservation) : Prop :=
  ∃ r, node.reservations.get? (m.key res) = some r ∧ SameBooking r res

namespace Client

/-- What the customer keeps, what others keep, and what the customer is told. -/
structure Safe (m : Modification) (s : Client) : Prop where
  kept : s.stage.Finished → Stands m s.node m.existing ∨ ∃ t, Stands m s.node (m.modified t)
  others : ∀ h ∈ s.calls, ∀ op k old res, .changed h op k (some old) res ∈ s.node.log →
    SameBooking old m.existing
  told : restoredLine ∈ s.printed → Stands m s.node m.existing

/-! ## The condition -/

/-- The node has carried out the request that the client waits for. -/
def Done (s : Client) : Prop := ∃ h, s.call = some h ∧ s.node.wrote h = true

/-- The reservation that the customer has, or is to get, by the request of a stage. -/
def atStake (m : Modification) : Stage → Option Reservation
  | .cancelling | .restoring => some m.existing
  | .booking t => some (m.modified t)
  | .querying | .returned | .aborted => none

/-- A request of somebody else that is about to be carried out is not for the reservation at
stake. -/
def Spares (m : Modification) (s : Client) (e : Node.Event) : Prop :=
  ∀ h hd res, e = .act h .store → h ∉ s.calls → s.node.handlers h = some hd →
    atStake m s.stage = some res → Stands m s.node res → hd.request.key m.cfg ≠ m.key res

/-- No step of the client's leaves the customer without a reservation or with a false word. -/
def Careful (m : Modification) (s : Client) : Event → Prop
  | .node e => Spares m s e
  | .post _ | .offered _ => True
  | .answered => s.stage = .restoring → s.Done
  | .failed => (s.stage = .cancelling → ¬ s.Done) ∧ (s.stage = .restoring → s.Done)
  | .raised =>
    match s.stage with
    | .cancelling => ¬ s.Done
    | .querying => False
    | .booking _ => s.Done
    | .restoring => s.Done ∨ ∃ t, Stands m s.node (m.modified t)
    | .returned | .aborted => True

/-! ## Requests -/

section
variable (m : Modification)

theorem cancelRequest_key : m.cancelRequest.key m.cfg = m.key m.existing := rfl

theorem bookRequest_key (res : Reservation) :
    (Modification.bookRequest res).key m.cfg = m.key res := rfl

theorem newReservation_same {res : Reservation} {msg : Msg} (now ts : Nat)
    (h : Modification.bookRequest res = .book msg) :
    SameBooking (newReservation m.cfg msg now ts) res := by
  obtain rfl := Request.book.inj h
  exact ⟨rfl, rfl, rfl, rfl, rfl, rfl⟩

end

theorem request_own {m : Modification} {stage : Stage} {req : Request}
    (h : request m stage = some req) :
    req = m.cancelRequest ∨ ∃ res, req = Modification.bookRequest res := by
  cases stage with
  | cancelling => exact .inl (Option.some.inj h).symm
  | booking t => exact .inr ⟨m.modified t, (Option.some.inj h).symm⟩
  | restoring => exact .inr ⟨m.existing, (Option.some.inj h).symm⟩
  | querying | returned | aborted => simp [request] at h

theorem request_cancel {m : Modification} {stage : Stage}
    (h : request m stage = some m.cancelRequest) : stage = .cancelling := by
  cases stage with
  | cancelling => rfl
  | booking t | restoring =>
    simp [request, Modification.bookRequest, Modification.cancelRequest] at h
  | querying | returned | aborted => simp [request] at h

/-! ## One step of the node -/

section
variable {m : Modification} {node node' : Node} {e : Node.Event} {h : Thread} {hd : Handler}
  {res : Reservation}

theorem wrote_store (hs : Node.Steps m.cfg node (.act h .store) node') :
    node'.wrote h = true := by
  cases hs with
  | act h hd a node' hh ha =>
    obtain ⟨p, hp⟩ := ha.handlers_self
    exact Node.wrote_iff.mpr ⟨_, hp, ha.stores hp⟩

theorem stands_step (hs : Node.Steps m.cfg node e node') (hst : Stands m node res)
    (hne : ∀ h hd, e = .act h .store → node.handlers h = some hd →
      hd.request.key m.cfg ≠ m.key res) : Stands m node' res := by
  obtain ⟨r, hr, hsame⟩ := hst
  refine ⟨r, ?_, hsame⟩
  rcases hs.write (m.key res) with ⟨-, hstore, -⟩ | ⟨h, hd, res', hh, he, -, hstore, -⟩
  · rw [hstore, hr]
  · rw [hstore, get?_write, if_neg (hne h hd he hh).symm, hr]

/-- A booking is carried out under a free key, and then it stands there. -/
theorem book_store (hw : Node.Wf m.cfg node) (hst : Node.Stamped m.cfg node)
    (hs : Node.Steps m.cfg node (.act h .store) node') (hh : node.handlers h = some hd)
    (hreq : hd.request = Modification.bookRequest res) :
    node.reservations.get? (m.key res) = none ∧ Stands m node' res := by
  have hc : hd.request.IsClient := by rw [hreq]; trivial
  rcases hs.write (m.key res) with ⟨hno, -⟩ | ⟨h', hd', r, hh', he, hwr, hstore, -⟩
  · exact absurd rfl (hno h)
  · obtain ⟨rfl, -⟩ := Node.Event.act.inj he
    obtain rfl := Option.some.inj (hh.symm.trans hh')
    obtain ⟨old, hp⟩ := hwr.of_client hc
    have hold : hd.phase.old? = some old := by rw [hp]; rfl
    have hfree := hw.found hh hold
    obtain ⟨now, ts, hrec⟩ := hst h hd old r hh hc hold (by rw [hp]; rfl)
    rw [hreq] at hrec hfree hstore
    refine ⟨hfree, r, ?_, ?_⟩
    · rw [hstore, get?_write, bookRequest_key, if_pos rfl]
      rfl
    · obtain rfl := Option.some.inj hrec
      exact newReservation_same m now ts rfl

theorem receive_new {req : Request} (hs : Node.Steps m.cfg node (.receive h req) node') :
    node.handlers h = none ∧ ∃ hd, node'.handlers h = some hd ∧ hd.request = req ∧
      ¬ node'.wrote h = true := by
  cases hs with
  | receive h req hnew hadm =>
    refine ⟨hnew, _, Function.update_self .., rfl, fun hw => ?_⟩
    obtain ⟨hd, hh, hp⟩ := Node.wrote_iff.mp hw
    obtain rfl := Node.handler_moved node h hh
    exact hp
  | refuse h req resp hnew hadm herr =>
    refine ⟨hnew, _, Function.update_self .., rfl, fun hw => ?_⟩
    obtain ⟨hd, hh, hp⟩ := Node.wrote_iff.mp hw
    obtain rfl := Node.handler_moved node h hh
    simp [herr] at hp

theorem changed_new (hs : Node.Steps m.cfg node e node') {op : Op} {k : Key}
    {old : Option Reservation} (hx : .changed h op k old res ∈ node'.log) :
    .changed h op k old res ∈ node.log ∨
      ∃ hd, e = .act h .store ∧ node.handlers h = some hd ∧ k = hd.request.key m.cfg ∧
        old = node.reservations.get? k := by
  cases hs with
  | receive | refuse => simpa using hx
  | promote => exact .inl (by rwa [Node.promote_log] at hx)
  | act h' hd a node' hh ha =>
    cases ha with
    | store old' res' resp hc hp | apply msg resp hreq hp =>
      rw [Node.store_log, List.mem_append, List.mem_singleton] at hx
      refine hx.imp_right fun heq => ?_
      obtain ⟨rfl, -, rfl, rfl, -⟩ := Entry.changed.inj heq
      exact ⟨hd, rfl, hh, rfl, rfl⟩
    | _ => simpa using hx

end

/-! ## The invariant -/

structure Inv (m : Modification) (s : Client) : Prop where
  wf : Node.Wf m.cfg s.node
  history : Node.History m.cfg s.node
  stamped : Node.Stamped m.cfg s.node
  own : ∀ h ∈ s.calls, ∃ hd, s.node.handlers h = some hd ∧
    (hd.request = m.cancelRequest ∨ ∃ res, hd.request = Modification.bookRequest res)
  current : ∀ h, s.call = some h → h ∈ s.calls ∧ ∃ hd, s.node.handlers h = some hd ∧
    request m s.stage = some hd.request
  cancels : ¬ s.stage.Finished → ∀ h ∈ s.calls, ∀ hd, s.node.handlers h = some hd →
    hd.request = m.cancelRequest →
      s.node.wrote h = true ∨ s.stage = .cancelling ∧ s.call = some h
  original : s.stage = .cancelling → ¬ s.Done → Stands m s.node m.existing
  asked : s.stage ≠ .cancelling → ∀ res, atStake m s.stage = some res → s.Done →
    Stands m s.node res
  told : restoredLine ∈ s.printed → s.stage = .returned
  safe : Safe m s

section
variable {m : Modification} {s s' : Client} {node : Node} {e : Node.Event} {h : Thread}
  {res : Reservation}

/-- A thread of the client's that is about to write has found what it looked for. -/
theorem own_store (hi : Inv m s) (hf : ¬ s.stage.Finished) (hs : Node.Steps m.cfg s.node e node)
    (he : e = .act h .store) (hmem : h ∈ s.calls) :
    (s.stage = .cancelling ∧ s.call = some h ∧ Stands m s.node m.existing ∧
      ∃ hd, s.node.handlers h = some hd ∧ hd.request = m.cancelRequest) ∨
    ∃ hd res, s.node.handlers h = some hd ∧ hd.request = Modification.bookRequest res ∧
      s.node.reservations.get? (m.key res) = none ∧ Stands m node res := by
  subst he
  obtain ⟨hd, hh, hreq | ⟨res, hreq⟩⟩ := hi.own h hmem
  · have hnot : ¬ s.node.wrote h = true := by
      rcases hs.write (m.key m.existing) with ⟨hno, -⟩ | ⟨h', hd', r, hh', he, hwr, -⟩
      · exact absurd rfl (hno h)
      · obtain ⟨rfl, -⟩ := Node.Event.act.inj he
        rw [Node.wrote_iff]
        rintro ⟨hd'', hh'', hp⟩
        obtain rfl := Option.some.inj (hh'.symm.trans hh'')
        exact hwr.not_written hp
    obtain ⟨hstage, hcall⟩ := (hi.cancels hf h hmem hd hh hreq).resolve_left hnot
    have hdone : ¬ s.Done := by
      rintro ⟨h', hcall', hw⟩
      obtain rfl := Option.some.inj (hcall.symm.trans hcall')
      exact hnot hw
    exact .inl ⟨hstage, hcall, hi.original hstage hdone, hd, hh, hreq⟩
  · obtain ⟨hfree, hst⟩ := book_store hi.wf hi.stamped hs hh hreq
    exact .inr ⟨hd, res, hh, hreq, hfree, hst⟩

/-- What is at stake stands through a step of the node, unless the client's own cancel takes it
away. -/
theorem stake_step (hi : Inv m s) (hf : ¬ s.stage.Finished) (hs : Node.Steps m.cfg s.node e node)
    (hspares : Spares m s e) (hstake : atStake m s.stage = some res) (hst : Stands m s.node res) :
    Stands m node res ∨
      ∃ h, e = .act h .store ∧ s.stage = .cancelling ∧ s.call = some h := by
  by_cases hown : ∃ h, e = .act h .store ∧ s.stage = .cancelling ∧ s.call = some h
  · exact .inr hown
  · refine .inl (stands_step hs hst fun h hd he hh => ?_)
    by_cases hmem : h ∈ s.calls
    · rcases own_store hi hf hs he hmem with ⟨hstage, hcall, -⟩ | ⟨hd', res', hh', hreq, hfree, -⟩
      · exact absurd ⟨h, he, hstage, hcall⟩ hown
      · obtain rfl := Option.some.inj (hh.symm.trans hh')
        obtain ⟨r, hr, -⟩ := hst
        rw [hreq, bookRequest_key]
        intro heq
        rw [heq, hr] at hfree
        simp at hfree
    · exact hspares h hd res he hmem hh hstake hst

theorem atStake_request (hne : s.stage ≠ .cancelling) (hstake : atStake m s.stage = some res) :
    request m s.stage = some (Modification.bookRequest res) := by
  cases hstage : s.stage with
  | cancelling => exact absurd hstage hne
  | booking t | restoring =>
    rw [hstage] at hstake
    obtain rfl := Option.some.inj hstake
    rfl
  | querying | returned | aborted =>
    rw [hstage] at hstake
    simp [atStake] at hstake

theorem handler_still (hs : Node.Steps m.cfg node e node') (hh : node.handlers h = some hd) :
    ∃ hd', node'.handlers h = some hd' ∧ hd'.request = hd.request := by
  rcases hs.handler_next hh with hh' | ⟨a, p, -, -, hh'⟩
  · exact ⟨hd, hh', rfl⟩
  · exact ⟨_, hh', rfl⟩

/-- Until the cancel is carried out, no step takes the original away. -/
theorem original_node (hi : Inv m s) (hf : ¬ s.stage.Finished)
    (hs : Node.Steps m.cfg s.node e node) (hspares : Spares m s e) (hstage : s.stage = .cancelling)
    (hnot : ¬ Done { s with node := node }) : Stands m node m.existing := by
  have hbefore : ¬ s.Done := by
    rintro ⟨h, hcall, hw⟩
    exact hnot ⟨h, hcall, Node.wrote_after hs hw⟩
  have hst := hi.original hstage hbefore
  rcases stake_step hi hf hs hspares (by rw [hstage]; rfl) hst with hst | ⟨h, rfl, -, hcall⟩
  · exact hst
  · exact absurd ⟨h, hcall, wrote_store hs⟩ hnot

/-- A booking of the client's stands from the step that carries it out. -/
theorem asked_node (hi : Inv m s) (hf : ¬ s.stage.Finished) (hs : Node.Steps m.cfg s.node e node)
    (hspares : Spares m s e) (hne : s.stage ≠ .cancelling) (hstake : atStake m s.stage = some res)
    (hd : Done { s with node := node }) : Stands m node res := by
  obtain ⟨h, hcall, hw⟩ := hd
  rcases Node.wrote_before hs hw with hw | rfl
  · have hst := hi.asked hne res hstake ⟨h, hcall, hw⟩
    rcases stake_step hi hf hs hspares hstake hst with hst | ⟨_, -, hstage, -⟩
    · exact hst
    · exact absurd hstage hne
  · obtain ⟨hmem, hd, hh, hreq⟩ := hi.current h hcall
    rw [atStake_request hne hstake] at hreq
    exact (book_store hi.wf hi.stamped hs hh (Option.some.inj hreq).symm).2

/-- The client's own requests replace nothing but the original. -/
theorem others_node (hi : Inv m s) (hf : ¬ s.stage.Finished) (hs : Node.Steps m.cfg s.node e node)
    (hmem : h ∈ s.calls) {op : Op} {k : Key} {old res : Reservation}
    (hx : .changed h op k (some old) res ∈ node.log) : SameBooking old m.existing := by
  rcases changed_new hs hx with hx | ⟨hd, he, hh, rfl, hold⟩
  · exact hi.safe.others h hmem op k old res hx
  · rcases own_store hi hf hs he hmem with
      ⟨-, -, ⟨r, hr, hsame⟩, hd', hh', hreq⟩ | ⟨hd', res', hh', hreq, hfree, -⟩
    · obtain rfl := Option.some.inj (hh.symm.trans hh')
      rw [hreq, cancelRequest_key, hr] at hold
      obtain rfl := Option.some.inj hold
      exact hsame
    · obtain rfl := Option.some.inj (hh.symm.trans hh')
      rw [hreq, bookRequest_key, hfree] at hold
      simp at hold

theorem inv_node (hi : Inv m s) (hf : ¬ s.stage.Finished) (hstep : s.node.step m.cfg e = some node)
    (hspares : Spares m s e) : Inv m { s with node := node } := by
  have hs := Node.step_spec hstep
  exact
    { wf := Node.wf_step hi.wf hs
      history := Node.history_step hi.history hs
      stamped := Node.stamped_step hi.stamped hstep
      own := fun h hmem => by
        obtain ⟨hd, hh, hreq⟩ := hi.own h hmem
        obtain ⟨hd', hh', heq⟩ := handler_still hs hh
        exact ⟨hd', hh', heq ▸ hreq⟩
      current := fun h hcall => by
        obtain ⟨hmem, hd, hh, hreq⟩ := hi.current h hcall
        obtain ⟨hd', hh', heq⟩ := handler_still hs hh
        exact ⟨hmem, hd', hh', heq ▸ hreq⟩
      cancels := fun hf h hmem hd' hh' hreq => by
        obtain ⟨hd, hh, -⟩ := hi.own h hmem
        obtain ⟨hd'', hh'', heq⟩ := handler_still hs hh
        obtain rfl := Option.some.inj (hh'.symm.trans hh'')
        exact (hi.cancels hf h hmem hd hh (heq ▸ hreq)).imp_left (Node.wrote_after hs)
      original := fun hstage hnot => original_node hi hf hs hspares hstage hnot
      asked := fun hne _ hstake hd => asked_node hi hf hs hspares hne hstake hd
      told := hi.told
      safe :=
        { kept := fun h => absurd h hf
          told := fun h => absurd (hi.told h ▸ trivial) hf
          others := fun _ hmem _ _ _ _ hx => others_node hi hf hs hmem hx } }

theorem request_unfinished {stage : Stage} {req : Request} (hreq : request m stage = some req) :
    ¬ stage.Finished := by
  cases stage with
  | returned | aborted => simp [request] at hreq
  | cancelling | querying | booking t | restoring => exact id

/-- A thread that has taken one of the client's requests does not move while another takes the
next. -/
theorem own_receive {req : Request} (hi : Inv m s)
    (hs : Node.Steps m.cfg s.node (.receive h req) node) {h' : Thread} (hmem : h' ∈ s.calls) :
    ∃ hd, s.node.handlers h' = some hd ∧ node.handlers h' = some hd ∧
      (hd.request = m.cancelRequest ∨ ∃ res, hd.request = Modification.bookRequest res) := by
  obtain ⟨hd, hh, hown⟩ := hi.own h' hmem
  rcases hs.handler_next hh with hsame | ⟨a, p, he, -⟩
  · exact ⟨hd, hh, hsame, hown⟩
  · simp at he

theorem others_post {req : Request} (hi : Inv m s)
    (hs : Node.Steps m.cfg s.node (.receive h req) node) {h' : Thread} (hmem : h' ∈ h :: s.calls)
    {op : Op} {k : Key} {old res : Reservation}
    (hx : .changed h' op k (some old) res ∈ node.log) : SameBooking old m.existing := by
  rcases changed_new hs hx with hold | ⟨_, he, -⟩
  · rcases List.mem_cons.mp hmem with rfl | hmem
    · obtain ⟨hnew, -⟩ := receive_new hs
      obtain ⟨hd, hh, -⟩ := hi.history.fits _ hold
      simp [Entry.thread, hnew] at hh
    · exact hi.safe.others h' hmem op k old res hold
  · simp at he

theorem inv_post {req : Request} (hi : Inv m s) (hcall : s.call = none)
    (hreq : request m s.stage = some req)
    (hstep : s.node.step m.cfg (.receive h req) = some node) :
    Inv m { s with node := node, call := some h, calls := h :: s.calls } := by
  have hs := Node.step_spec hstep
  have hf := request_unfinished hreq
  obtain ⟨hnew, hd, hh, hreq', hnot⟩ := receive_new hs
  have hfresh : ¬ Done { s with node := node, call := some h, calls := h :: s.calls } := by
    rintro ⟨h', hcall', hw⟩
    obtain rfl := Option.some.inj hcall'
    exact hnot hw
  exact
    { wf := Node.wf_step hi.wf hs
      history := Node.history_step hi.history hs
      stamped := Node.stamped_step hi.stamped hstep
      own := fun h' hmem => by
        rcases List.mem_cons.mp hmem with rfl | hmem
        · exact ⟨hd, hh, hreq' ▸ request_own hreq⟩
        · obtain ⟨hd', -, hh', hown⟩ := own_receive hi hs hmem
          exact ⟨hd', hh', hown⟩
      current := fun h' hcall' => by
        obtain rfl := Option.some.inj hcall'
        exact ⟨List.mem_cons_self, hd, hh, hreq' ▸ hreq⟩
      cancels := fun _ h' hmem hd' hh' hcancel => by
        rcases List.mem_cons.mp hmem with rfl | hmem
        · obtain rfl := Option.some.inj (hh.symm.trans hh')
          exact .inr ⟨request_cancel (hreq.trans (congrArg some (hreq'.symm.trans hcancel))), rfl⟩
        · obtain ⟨hd'', hh'', hsame, -⟩ := own_receive hi hs hmem
          obtain rfl := Option.some.inj (hsame.symm.trans hh')
          rcases hi.cancels hf h' hmem hd'' hh'' hcancel with hw | ⟨-, hc⟩
          · exact .inl (Node.wrote_after hs hw)
          · simp [hcall] at hc
      original := fun hstage _ =>
        stands_step hs (hi.original hstage (by simp [Done, hcall])) fun _ _ he => by simp at he
      asked := fun _ _ _ hd => absurd hd hfresh
      told := hi.told
      safe :=
        { kept := fun h => absurd h hf
          told := fun h => absurd (hi.told h ▸ trivial) hf
          others := fun _ hmem _ _ _ _ hx => others_post hi hs hmem hx } }

theorem inv_goTo {stage : Stage} {lines : List String} (hi : Inv m s)
    (hne : stage ≠ .cancelling)
    (hcancel : s.stage = .cancelling → ¬ stage.Finished → s.Done)
    (hf : ¬ s.stage.Finished)
    (hkept : stage.Finished → Stands m s.node m.existing ∨ ∃ t, Stands m s.node (m.modified t))
    (hline : restoredLine ∈ lines → stage = .returned ∧ Stands m s.node m.existing) :
    Inv m (s.goTo stage lines) := by
  have hnone : ¬ (s.goTo stage lines).Done := by simp [Done, goTo]
  have htold : restoredLine ∈ s.printed ++ lines →
      stage = .returned ∧ Stands m s.node m.existing := by
    intro hmem
    rcases List.mem_append.mp hmem with h | h
    · exact absurd (hi.told h ▸ trivial) hf
    · exact hline h
  exact
    { wf := hi.wf
      history := hi.history
      stamped := hi.stamped
      own := hi.own
      current := fun h hcall => by simp [goTo] at hcall
      cancels := fun hnf h hmem hd hh hreq => by
        rcases hi.cancels hf h hmem hd hh hreq with hw | ⟨hstage, hcall⟩
        · exact .inl hw
        · obtain ⟨h', hcall', hw⟩ := hcancel hstage hnf
          obtain rfl := Option.some.inj (hcall.symm.trans hcall')
          exact .inl hw
      original := fun hstage => absurd hstage hne
      asked := fun _ _ _ hd => absurd hd hnone
      told := fun h => (htold h).1
      safe :=
        { kept := hkept
          others := hi.safe.others
          told := fun h => (htold h).2 } }

theorem inv_resume {status : Status} (hi : Inv m s) (hok : status = .ok → s.Done)
    (herr : status = .error → s.stage = .cancelling → ¬ s.Done)
    (hrest : s.stage = .restoring → s.Done) (hs : s.resume status = some s') : Inv m s' := by
  unfold resume at hs
  split at hs
  case h_1 hstage =>
    obtain rfl := Option.some.inj hs
    exact inv_goTo hi (by simp) (fun _ _ => hok rfl) (by simp [hstage, Stage.Finished])
      (fun h => h.elim) (by simp)
  case h_2 hstage =>
    obtain rfl := Option.some.inj hs
    exact inv_goTo hi (by simp) (fun _ h => absurd trivial h) (by simp [hstage, Stage.Finished])
      (fun _ => .inl (hi.original hstage (herr rfl hstage))) (by simp)
  case h_3 t hstage =>
    obtain rfl := Option.some.inj hs
    have hst := hi.asked (by simp [hstage]) (m.modified t) (by rw [hstage]; rfl) (hok rfl)
    exact inv_goTo hi (by simp) (fun _ h => absurd trivial h) (by simp [hstage, Stage.Finished])
      (fun _ => .inr ⟨t, hst⟩) (by simp)
  case h_4 t hstage =>
    obtain rfl := Option.some.inj hs
    exact inv_goTo hi (by simp) (by simp [hstage]) (by simp [hstage, Stage.Finished])
      (fun h => h.elim) (by simp [restoredLine])
  case h_5 hstage =>
    obtain rfl := Option.some.inj hs
    have hst := hi.asked (by simp [hstage]) m.existing (by rw [hstage]; rfl) (hrest hstage)
    exact inv_goTo hi (by simp) (fun _ h => absurd trivial h) (by simp [hstage, Stage.Finished])
      (fun _ => .inl hst) (fun _ => ⟨rfl, hst⟩)
  all_goals simp at hs

theorem inv_raised (hi : Inv m s) (hf : ¬ s.stage.Finished) (hc : Careful m s .raised) :
    Inv m (s.goTo .aborted []) := by
  refine inv_goTo hi (by simp) (fun _ h => absurd trivial h) hf (fun _ => ?_) (by simp)
  unfold Careful at hc
  cases hstage : s.stage with
  | cancelling =>
    rw [hstage] at hc
    exact .inl (hi.original hstage hc)
  | querying =>
    rw [hstage] at hc
    exact hc.elim
  | booking t =>
    rw [hstage] at hc
    exact .inr ⟨t, hi.asked (by simp [hstage]) _ (by rw [hstage]; rfl) hc⟩
  | restoring =>
    rw [hstage] at hc
    refine hc.imp_left fun hd => ?_
    exact hi.asked (by simp [hstage]) _ (by rw [hstage]; rfl) hd
  | returned | aborted => simp [hstage, Stage.Finished] at hf

theorem done_iff_status {hd : Handler} {resp : Response} (hcall : s.call = some h)
    (hh : s.node.handlers h = some hd) (hp : hd.phase = .done resp) :
    s.Done ↔ resp.status = .ok := by
  constructor
  · rintro ⟨h', hcall', hw⟩
    obtain rfl := Option.some.inj (hcall.symm.trans hcall')
    obtain ⟨hd', hh', hwritten⟩ := Node.wrote_iff.mp hw
    obtain rfl := Option.some.inj (hh.symm.trans hh')
    rwa [hp] at hwritten
  · intro hok
    exact ⟨h, hcall, Node.wrote_iff.mpr ⟨hd, hh, by rwa [hp]⟩⟩

theorem inv_answered (hi : Inv m s) (hc : Careful m s .answered)
    (hs : step m s .answered = some s') : Inv m s' := by
  simp only [step, Option.bind_eq_some_iff] at hs
  obtain ⟨h, hcall, hd, hh, hs⟩ := hs
  cases hp : hd.phase with
  | done resp =>
    rw [hp] at hs
    have hiff := done_iff_status hcall hh hp
    refine inv_resume hi hiff.mpr (fun herr _ hd => ?_) hc hs
    rw [hiff.mp hd] at herr
    simp at herr
  | _ => simp [hp] at hs

theorem inv_failed (hi : Inv m s) (hc : Careful m s .failed) (hs : step m s .failed = some s') :
    Inv m s' := by
  have hs : s.resume .error = some s' := hs
  refine inv_resume hi (fun hok => ?_) (fun _ => hc.1) hc.2 hs
  simp at hok

theorem inv_offered {tables : List TableOffer} (hi : Inv m s)
    (hs : step m s (.offered tables) = some s') : Inv m s' := by
  simp only [step] at hs
  split at hs
  case h_1 hstage _ _ =>
    obtain rfl := Option.some.inj hs
    exact inv_goTo hi (by simp) (by simp [hstage]) (by simp [hstage, Stage.Finished])
      (fun h => h.elim) (by simp [restoredLine])
  case h_2 best hstage _ _ =>
    obtain rfl := Option.some.inj hs
    exact inv_goTo hi (by simp) (by simp [hstage]) (by simp [hstage, Stage.Finished])
      (fun h => h.elim) (by simp)
  case h_3 => simp at hs

theorem inv_step {e : Event} (hi : Inv m s) (hc : Careful m s e) (hs : step m s e = some s') :
    Inv m s' := by
  cases e with
  | node e =>
    simp only [step] at hs
    split_ifs at hs with hf
    obtain ⟨node, hnode, rfl⟩ := Option.map_eq_some_iff.mp hs
    exact inv_node hi hf hnode hc
  | post h =>
    simp only [step] at hs
    split_ifs at hs with hcall
    obtain ⟨req, hreq, hs⟩ := Option.bind_eq_some_iff.mp hs
    obtain ⟨node, hnode, rfl⟩ := Option.map_eq_some_iff.mp hs
    exact inv_post hi hcall hreq hnode
  | answered => exact inv_answered hi hc hs
  | failed => exact inv_failed hi hc hs
  | offered tables => exact inv_offered hi hs
  | raised =>
    simp only [step] at hs
    split_ifs at hs with hf
    obtain rfl := Option.some.inj hs
    exact inv_raised hi hf hc

end

/-- The states in which a modification can begin: the node has the reservation. -/
structure Begins (m : Modification) (node : Node) : Prop where
  reached : ∃ backUp, Reach (Node.step m.cfg) (fun _ _ => True) (.start m.cfg backUp) node
  stands : Stands m node m.existing

theorem inv_start {m : Modification} {node : Node} (hb : Begins m node) : Inv m (start node) := by
  obtain ⟨backUp, hr⟩ := hb.reached
  exact
    { wf := Node.wf_reach (Node.wf_start m.cfg backUp) hr
      history := Node.history_reach (Node.history_start m.cfg backUp) hr
      stamped := hr.invariant (Node.stamped_start m.cfg backUp)
        fun _ _ _ _ hi _ hs => Node.stamped_step hi hs
      own := by simp [start]
      current := by simp [start]
      cancels := by simp [start]
      original := fun _ _ => hb.stands
      asked := fun h => absurd rfl h
      told := by simp [start]
      safe := ⟨fun h => h.elim, by simp [start], by simp [start]⟩ }

/-- A modification whose steps are careful loses nothing and says nothing false, whatever other
clients do. -/
theorem modification_safe {m : Modification} {node : Node} {s : Client} (hb : Begins m node)
    (hs : Reach (step m) (Careful m) (start node) s) : Safe m s :=
  (hs.invariant (inv_start hb) fun _ _ _ _ hi hc hs => inv_step hi hc hs).safe

/-! ## Two runs -/

/-- The node, once Alice has table `T1`. -/
def aliceBooks : List Node.Event :=
  .receive (.client 0) (.book (dinner "T1" "Alice")) ::
    Node.acts (.client 0) [.acquire, .check, .stamp 0, .send, .returned .acked, .store, .release]

def aliceNode : Node :=
  (exec (Node.step urbanPlates) (.start urbanPlates false) aliceBooks).getD
    (.start urbanPlates false)

/-- What Alice wants, when she types a date and nothing else. -/
def aliceAsks (date : String) : Modification where
  cfg := urbanPlates
  existing := newReservation urbanPlates (dinner "T1" "Alice") 0 1
  newDate := orOld date (.str "2026-05-01")
  newTimeslot := .str "18:00"
  newParty := .int 2

theorem alice_typed (date : String) :
    Typed.modification ⟨date, "", .empty⟩ urbanPlates (aliceAsks date).existing =
      some (aliceAsks date) := rfl

theorem alice_begins (date : String) : Begins (aliceAsks date) aliceNode := by
  have hm : Meets (Node.step urbanPlates) (fun _ _ => True) (.start urbanPlates false)
      aliceBooks := meets_of_forall fun _ _ _ => trivial
  refine ⟨⟨false, reach_of_exec hm rfl⟩, (aliceAsks date).existing, rfl, ?_⟩
  exact ⟨rfl, rfl, rfl, rfl, rfl, rfl⟩

/-- Request `n` of the client, and its handler from start to end. -/
def served (n : Nat) : List Event :=
  .post (.client n) :: (Node.acts (.client n)
    [.acquire, .check, .stamp n, .send, .returned .acked, .store, .release]).map .node

/-- She types a date with a blank. The table is cancelled, and then the URL is refused. -/
theorem alice_loses_table : ∃ s,
    exec (step (aliceAsks "2 May")) (start aliceNode) (served 1 ++ [.answered, .raised]) = some s ∧
      s.stage = .aborted ∧ s.node.reservations = .empty :=
  ⟨_, rfl, rfl, rfl⟩

theorem modification_loses : ¬ ∀ (typed : Typed) (cfg : Service) (existing : Reservation)
    (m : Modification) (node : Node) (s : Client), typed.modification cfg existing = some m →
      Begins m node → Reach (step m) (fun _ _ => True) (start node) s → Safe m s := by
  intro hall
  obtain ⟨s, hs, hstage, hempty⟩ := alice_loses_table
  have hm : Meets (step (aliceAsks "2 May")) (fun _ _ => True) (start aliceNode)
      (served 1 ++ [.answered, .raised]) := meets_of_forall fun _ _ _ => trivial
  have hsafe := hall _ _ _ _ _ s (alice_typed "2 May") (alice_begins _) (reach_of_exec hm hs)
  have hgone (res : Reservation) : ¬ Stands (aliceAsks "2 May") s.node res := by
    rintro ⟨r, hr, -⟩
    simp [hempty] at hr
  rcases hsafe.kept (by rw [hstage]; trivial) with h | ⟨t, h⟩
  · exact hgone _ h
  · exact hgone _ h

/-- No answer to her query is possible. -/
example : sendable (aliceAsks "2 May").availabilityPath = false := by decide

/-! ## A modification that goes well -/

section
variable {m : Modification} {s : Client} {h : Thread}

theorem meets_acts (hmem : h ∈ s.calls) (as : List Action) :
    Meets (step m) (Careful m) s ((Node.acts h as).map .node) := by
  induction as generalizing s with
  | nil => trivial
  | cons a as ih =>
    intro s' hs
    refine ⟨fun h' hd res he hnot => ?_, ?_⟩
    · obtain ⟨rfl, -⟩ := Node.Event.act.inj he
      exact absurd hmem hnot
    · simp only [step] at hs
      split_ifs at hs
      obtain ⟨node, -, rfl⟩ := Option.map_eq_some_iff.mp hs
      exact ih hmem

theorem meets_served (n : Nat) : Meets (step m) (Careful m) s (served n) := by
  intro s' hs
  refine ⟨trivial, meets_acts ?_ _⟩
  simp only [step] at hs
  split_ifs at hs
  obtain ⟨req, -, hs⟩ := Option.bind_eq_some_iff.mp hs
  obtain ⟨node, -, rfl⟩ := Option.map_eq_some_iff.mp hs
  exact List.mem_cons_self

end

/-- She moves to the next day, and gets table `T2`. -/
def aliceMoves : List Event :=
  served 1 ++ .answered :: .offered [⟨"T2", 2, "window"⟩] :: (served 2 ++ [.answered])

theorem aliceMoves_careful : Meets (step (aliceAsks "2026-05-02"))
    (Careful (aliceAsks "2026-05-02")) (start aliceNode) aliceMoves := by
  refine meets_append (meets_served 1) fun s hs => ?_
  obtain rfl := Option.some.inj hs
  refine fun s hs => ⟨nofun, fun s' hs' => ⟨trivial, ?_⟩⟩
  obtain rfl := Option.some.inj hs
  obtain rfl := Option.some.inj hs'
  refine meets_append (meets_served 2) fun s hs => ?_
  obtain rfl := Option.some.inj hs
  exact fun _ _ => ⟨nofun, trivial⟩

theorem modification_safe_alice : ∃ s,
    exec (step (aliceAsks "2026-05-02")) (start aliceNode) aliceMoves = some s ∧
      s.stage = .returned ∧ Safe (aliceAsks "2026-05-02") s :=
  ⟨_, rfl, rfl, modification_safe (alice_begins _) (reach_of_exec aliceMoves_careful rfl)⟩

end Client

end ReservationSystem
