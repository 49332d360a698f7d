import ReservationSystem.Node.Spec

/-!
# What one step can do

`act_spec` says it once. Every invariant of a node is proved from it.
-/

namespace ReservationSystem

/-! ## Phases -/

/-- The handler holds the lock of its table. -/
@[simp]
def Phase.HoldsLock : Phase → Prop
  | .received | .done _ => False
  | _ => True

/-- The entry under the handler's key, when the handler relies on it. -/
@[simp]
def Phase.old? : Phase → Option (Option Reservation)
  | .checked old | .stamped old _ | .replicating old _ | .replicated old _ => some old
  | _ => none

/-- The record that the handler is about to write. -/
@[simp]
def Phase.res? : Phase → Option Reservation
  | .stamped _ res | .replicating _ res | .replicated _ res => some res
  | _ => none

/-- The answer of a handler that has made up its mind. -/
@[simp]
def Phase.resp? : Phase → Option Response
  | .leaving resp | .done resp => some resp
  | _ => none

/-- The handler has written, and leaves with status ok. -/
@[simp]
def Phase.Written : Phase → Prop
  | .leaving resp | .done resp => resp.status = .ok
  | _ => False

instance (p : Phase) : Decidable p.Written :=
  match p with
  | .leaving resp | .done resp => inferInstanceAs (Decidable (resp.status = .ok))
  | .received | .locked | .checked _ | .stamped _ _ | .replicating _ _ | .replicated _ _
  | .advanced => isFalse id

theorem Phase.written_of_resp? {p : Phase} {resp : Response} (hr : p.resp? = some resp)
    (hok : resp.status = .ok) : p.Written := by
  cases p <;> simp_all

/-- No handler is in such a phase from its start. -/
structure Phase.Earned (P : Phase → Prop) : Prop where
  received : ¬ P .received
  turnedDown : ∀ resp, resp.status = .error → ¬ P (.done resp)

theorem Phase.written_earned : Earned Written := by constructor <;> simp +contextual

/-- What `_bookTable` and `_cancelReservation` want to find under the key. -/
def Op.Expects {ρ : Type*} : Op → Option ρ → Prop
  | .book, old => old = none
  | .cancel, old => old ≠ none

namespace Node

/-! ## Updates -/

section
variable (s : Node) (h h' : Thread) (hd : Handler) (p : Phase) (es : List Entry)

@[simp]
theorem moveTo_log : (s.moveTo h hd p es).log = s.log ++ es := rfl

variable (k : Key) (op : Op) (old : Option Reservation) (res : Reservation) (resp : Response)

@[simp]
theorem stamp_log : (s.stamp h hd k old res).log = s.log ++ [.stamped h k old res] := rfl
@[simp]
theorem store_log :
    (s.store h hd op k res resp).log =
      s.log ++ [.changed h op k (s.reservations.get? k) res] := rfl
@[simp]
theorem release_log : (s.release h hd resp).log = s.log ++ [.answered h resp] := rfl
@[simp]
theorem turnDown_log : (s.turnDown h hd resp).log = s.log ++ [.answered h resp] := rfl

end

/-! ## One handler -/

/-- The steps that the handler `hd` of thread `h` can take, guards included. -/
inductive Acts (cfg : Service) (s : Node) (h : Thread) (hd : Handler) : Action → Node → Prop
  | acquire (hp : hd.phase = .received) (hfree : s.tableLocks hd.request.table = none) :
      Acts cfg s h hd .acquire
        { s.moveTo h hd .locked [.acquired h hd.request.table] with
          tableLocks := Function.update s.tableLocks hd.request.table (some h) }
  | lockTimeout (resp : Response) (hp : hd.phase = .received) (herr : resp.status = .error) :
      Acts cfg s h hd .lockTimeout (s.turnDown h hd resp)
  | checkFails (resp : Response) (hp : hd.phase = .locked) (herr : resp.status = .error) :
      Acts cfg s h hd .check (s.moveTo h hd (.leaving resp) [])
  | checkPasses (old : Option Reservation) (hc : hd.request.IsClient) (hp : hd.phase = .locked)
      (hk : s.reservations.get? (hd.request.key cfg) = old) (hold : hd.request.op.Expects old) :
      Acts cfg s h hd .check (s.moveTo h hd (.checked old) [])
  | stamp (now : Nat) (old : Option Reservation) (res : Reservation)
      (hp : hd.phase = .checked old) (hts : res.lamportTs = nextLamport s.logicalClock) :
      Acts cfg s h hd (.stamp now) (s.stamp h hd (hd.request.key cfg) old res)
  | skip (old : Option Reservation) (res : Reservation) (hp : hd.phase = .stamped old res)
      (hr : s.replicates = false) :
      Acts cfg s h hd .skipReplication (s.moveTo h hd (.replicated old res) [])
  | send (old : Option Reservation) (res : Reservation) (hp : hd.phase = .stamped old res)
      (hr : s.replicates = true) :
      Acts cfg s h hd .send (s.moveTo h hd (.replicating old res)
        [.sent h ⟨hd.request.op, keyToList (hd.request.key cfg), res⟩])
  | acked (old : Option Reservation) (res : Reservation) (hp : hd.phase = .replicating old res) :
      Acts cfg s h hd (.returned .acked) (s.moveTo h hd (.replicated old res) [.acked h])
  | refused (o : Outcome) (resp : Response) (old : Option Reservation) (res : Reservation)
      (hp : hd.phase = .replicating old res) (ho : o ≠ .acked) (herr : resp.status = .error) :
      Acts cfg s h hd (.returned o) (s.moveTo h hd (.leaving resp) [])
  | advance (msg : ReplicationMsg) (hreq : hd.request = .applyReplication msg)
      (hp : hd.phase = .locked) :
      Acts cfg s h hd .advance
        { s.moveTo h hd .advanced [] with
          logicalClock := advanceLamportFromPeer s.logicalClock msg.reservation.lamportTs }
  | store (old : Option Reservation) (res : Reservation) (resp : Response)
      (hc : hd.request.IsClient) (hp : hd.phase = .replicated old res)
      (hok : resp.status = .ok) (hres : resp.record = some res) :
      Acts cfg s h hd .store (s.store h hd hd.request.op (hd.request.key cfg) res resp)
  | apply (msg : ReplicationMsg) (resp : Response) (hreq : hd.request = .applyReplication msg)
      (hp : hd.phase = .advanced) (hok : resp.status = .ok) :
      Acts cfg s h hd .store
        (s.store h hd msg.operation (hd.request.key cfg) msg.reservation resp)
  | release (resp : Response) (hp : hd.phase = .leaving resp) :
      Acts cfg s h hd .release (s.release h hd resp)

section
variable {cfg : Service} {s s' : Node} {h : Thread} {hd : Handler} {a : Action}

theorem acquire_spec (hp : hd.phase = .received) (hs : s.acquire h hd = some s') :
    Acts cfg s h hd .acquire s' := by
  unfold acquire at hs
  split_ifs at hs with hfree
  obtain rfl := Option.some.inj hs
  exact .acquire hp hfree

theorem replicate_spec
    (hs : s.replicate h hd hd.request.op (hd.request.key cfg) hd.phase a = some s') :
    Acts cfg s h hd a s' := by
  unfold replicate at hs
  split at hs
  case h_1 old res hp =>
    split_ifs at hs with hr
    obtain rfl := Option.some.inj hs
    exact .skip old res hp (by simpa using hr)
  case h_2 old res hp =>
    split_ifs at hs with hr
    obtain rfl := Option.some.inj hs
    exact .send old res hp hr
  case h_3 old res hp =>
    obtain rfl := Option.some.inj hs
    exact .acked old res hp
  case h_4 old res hp =>
    obtain rfl := Option.some.inj hs
    exact .refused _ _ old res hp nofun rfl
  case h_5 old res text hp =>
    obtain rfl := Option.some.inj hs
    exact .refused _ _ old res hp nofun rfl
  case h_6 => simp at hs

theorem bookTable_spec {msg : Msg} (hreq : hd.request = .book msg)
    (hs : s.bookTable cfg h hd msg (hd.request.key cfg) a = some s') :
    Acts cfg s h hd a s' := by
  have hc : hd.request.IsClient := by rw [hreq]; trivial
  have hop : hd.request.op = .book := by rw [hreq]; rfl
  unfold bookTable at hs
  split at hs
  case h_1 hp => exact acquire_spec hp hs
  case h_2 hp =>
    obtain rfl := Option.some.inj hs
    exact .lockTimeout _ hp rfl
  case h_3 hp =>
    split at hs
    · obtain rfl := Option.some.inj hs
      exact .checkFails _ hp rfl
    · obtain rfl := Option.some.inj hs
      exact .checkPasses none hc hp ‹_› (by rw [hop]; rfl)
  case h_4 old now hp =>
    obtain rfl := Option.some.inj hs
    exact .stamp now old _ hp rfl
  case h_5 old res hp =>
    obtain rfl := Option.some.inj hs
    rw [← hop]
    exact .store old res _ hc hp rfl rfl
  case h_6 resp hp =>
    obtain rfl := Option.some.inj hs
    exact .release resp hp
  case h_7 =>
    rw [← hop] at hs
    exact replicate_spec hs

theorem cancelReservation_spec {msg : Msg} (hreq : hd.request = .cancel msg)
    (hs : s.cancelReservation h hd (hd.request.key cfg) a = some s') :
    Acts cfg s h hd a s' := by
  have hc : hd.request.IsClient := by rw [hreq]; trivial
  have hop : hd.request.op = .cancel := by rw [hreq]; rfl
  unfold cancelReservation at hs
  split at hs
  case h_1 hp => exact acquire_spec hp hs
  case h_2 hp =>
    obtain rfl := Option.some.inj hs
    exact .lockTimeout _ hp rfl
  case h_3 hp =>
    split at hs
    · obtain rfl := Option.some.inj hs
      exact .checkFails _ hp rfl
    · obtain rfl := Option.some.inj hs
      exact .checkPasses _ hc hp ‹_› (by rw [hop]; exact nofun)
  case h_4 old now hp =>
    obtain rfl := Option.some.inj hs
    exact .stamp now (some old) _ hp rfl
  case h_5 old res hp =>
    obtain rfl := Option.some.inj hs
    rw [← hop]
    exact .store old res _ hc hp rfl rfl
  case h_6 resp hp =>
    obtain rfl := Option.some.inj hs
    exact .release resp hp
  case h_7 =>
    rw [← hop] at hs
    exact replicate_spec hs

theorem applyReplication_spec {msg : ReplicationMsg} (hreq : hd.request = .applyReplication msg)
    (hs : s.applyReplication h hd msg (hd.request.key cfg) a = some s') :
    Acts cfg s h hd a s' := by
  unfold applyReplication at hs
  split at hs
  case h_1 hp => exact acquire_spec hp hs
  case h_2 hp =>
    obtain rfl := Option.some.inj hs
    exact .lockTimeout _ hp rfl
  case h_3 hp =>
    obtain rfl := Option.some.inj hs
    exact .advance msg hreq hp
  case h_4 hp =>
    obtain rfl := Option.some.inj hs
    exact .apply msg _ hreq hp rfl
  case h_5 resp hp =>
    obtain rfl := Option.some.inj hs
    exact .release resp hp
  case h_6 => simp at hs

theorem act_spec (hs : s.act cfg h hd a = some s') : Acts cfg s h hd a s' := by
  unfold act at hs
  split at hs
  case h_1 msg hreq => exact bookTable_spec hreq hs
  case h_2 msg hreq => exact cancelReservation_spec hreq hs
  case h_3 msg hreq => exact applyReplication_spec hreq hs

/-! ## One node -/

/-- The steps of a node. -/
inductive Steps (cfg : Service) (s : Node) : Event → Node → Prop
  | receive (h : Thread) (req : Request) (hnew : s.handlers h = none)
      (hadm : cfg.precheck req = none) :
      Steps cfg s (.receive h req) (s.moveTo h ⟨req, .received⟩ .received [.received h req])
  | refuse (h : Thread) (req : Request) (resp : Response) (hnew : s.handlers h = none)
      (hadm : cfg.precheck req = some resp) (herr : resp.status = .error) :
      Steps cfg s (.receive h req)
        (s.moveTo h ⟨req, .received⟩ (.done resp) [.received h req, .answered h resp])
  | act (h : Thread) (hd : Handler) (a : Action) (s' : Node) (hh : s.handlers h = some hd)
      (ha : Acts cfg s h hd a s') : Steps cfg s (.act h a) s'
  | promote : Steps cfg s .promote (s.promoteToPrimary cfg)

theorem refuse_status {tableId : Json} {resp : Response} (h : cfg.refuse tableId = some resp) :
    resp.status = .error := by
  unfold Service.refuse at h
  split at h
  case h_3 =>
    split_ifs at h
    obtain rfl := Option.some.inj h
    rfl
  all_goals
    obtain rfl := Option.some.inj h
    rfl

theorem precheck_status {req : Request} {resp : Response} (h : cfg.precheck req = some resp) :
    resp.status = .error := by
  unfold Service.precheck at h
  split at h
  case h_1 => exact refuse_status h
  case h_2 => exact refuse_status h
  case h_3 =>
    split at h
    · split_ifs at h
      obtain rfl := Option.some.inj h
      rfl
    · obtain rfl := Option.some.inj h
      rfl

theorem step_spec {e : Event} (hs : s.step cfg e = some s') : Steps cfg s e s' := by
  cases e with
  | receive h req =>
    simp only [step, receive] at hs
    split at hs
    · simp at hs
    · obtain rfl := Option.some.inj hs
      exact .refuse h req _ ‹_› ‹_› (precheck_status ‹_›)
    · obtain rfl := Option.some.inj hs
      exact .receive h req ‹_› ‹_›
  | act h a =>
    simp only [step, Option.bind_eq_some_iff] at hs
    obtain ⟨hd, hh, ha⟩ := hs
    exact .act h hd a s' hh (act_spec ha)
  | promote =>
    obtain rfl := Option.some.inj hs
    exact .promote

end

end Node

end ReservationSystem
