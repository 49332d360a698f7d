import ReservationSystem.Node.History

/-!
# The writes of one key

A step writes nothing, or one handler writes the key that it has locked.
-/

namespace ReservationSystem

/-- A write of one key: the thread that made it, and its record. -/
structure Change where
  thread : Thread
  op : Op
  res : Reservation

def Entry.change? (k : Key) : Entry → Option Change
  | .changed h op k' _ res => if k' = k then some ⟨h, op, res⟩ else none
  | _ => none

/-- The writes of a key, in the order in which they were made. -/
def changesOf (k : Key) (log : List Entry) : List Change := log.filterMap (Entry.change? k)

theorem mem_changesOf {k : Key} {log : List Entry} {c : Change} :
    c ∈ changesOf k log ↔ ∃ old, .changed c.thread c.op k old c.res ∈ log := by
  simp only [changesOf, List.mem_filterMap]
  constructor
  · rintro ⟨x, hx, hc⟩
    cases x <;> simp only [Entry.change?, reduceCtorEq] at hc
    split_ifs at hc with hk
    subst hk
    obtain rfl := Option.some.inj hc
    exact ⟨_, hx⟩
  · rintro ⟨old, hx⟩
    exact ⟨_, hx, by simp [Entry.change?]⟩

theorem changesOf_append (k : Key) (log es : List Entry) :
    changesOf k (log ++ es) = changesOf k log ++ changesOf k es := List.filterMap_append

/-- The handler is about to write `res`. -/
inductive Handler.Writes (hd : Handler) : Reservation → Prop
  | client (old : Option Reservation) (res : Reservation) (hc : hd.request.IsClient)
      (hp : hd.phase = .replicated old res) : hd.Writes res
  | replica (msg : ReplicationMsg) (hreq : hd.request = .applyReplication msg)
      (hp : hd.phase = .advanced) : hd.Writes msg.reservation

theorem Handler.Writes.of_client {hd : Handler} {res : Reservation} (hw : hd.Writes res)
    (hc : hd.request.IsClient) : ∃ old, hd.phase = .replicated old res := by
  cases hw with
  | client old res _ hp => exact ⟨old, hp⟩
  | replica msg hreq => simp [hreq, Request.IsClient] at hc

theorem Handler.Writes.resp? {hd : Handler} {res : Reservation} (hw : hd.Writes res) :
    hd.phase.resp? = none := by
  cases hw with
  | client old res _ hp => rw [hp]; rfl
  | replica msg _ hp => rw [hp]; rfl

theorem Handler.Writes.not_written {hd : Handler} {res : Reservation} (hw : hd.Writes res) :
    ¬ hd.phase.Written := by
  cases hw with
  | client old res _ hp => simp [hp]
  | replica msg _ hp => simp [hp]

namespace Node

theorem Steps.write {cfg : Service} {s s' : Node} {e : Event} (k : Key)
    (hs : Steps cfg s e s') :
    ((∀ h, e ≠ .act h .store) ∧ s'.reservations = s.reservations ∧
        changesOf k s'.log = changesOf k s.log) ∨
      ∃ h hd res, s.handlers h = some hd ∧ e = .act h .store ∧ hd.Writes res ∧
        s'.reservations = hd.request.op.write s.reservations (hd.request.key cfg) res ∧
        changesOf k s'.log = changesOf k s.log ++
          if hd.request.key cfg = k then [⟨h, hd.request.op, res⟩] else [] := by
  have hone (h : Thread) (op : Op) (k' : Key) (old : Option Reservation) (res : Reservation) :
      changesOf k (s.log ++ [.changed h op k' old res]) =
        changesOf k s.log ++ if k' = k then [⟨h, op, res⟩] else [] := by
    rw [changesOf_append]
    split_ifs with hk <;> simp [changesOf, Entry.change?, hk]
  cases hs with
  | receive | refuse => exact .inl ⟨nofun, rfl, by simp [changesOf, Entry.change?]⟩
  | act h hd a s' hh ha =>
    cases ha with
    | store old res resp hc hp =>
      exact .inr ⟨h, hd, res, hh, rfl, .client old res hc hp, rfl, hone ..⟩
    | apply msg resp hreq hp =>
      rw [show msg.operation = hd.request.op by rw [hreq]; rfl]
      exact .inr ⟨h, hd, _, hh, rfl, .replica msg hreq hp, rfl, hone ..⟩
    | _ => exact .inl ⟨by simp, rfl, by simp [changesOf, Entry.change?]⟩
  | promote => exact .inl ⟨nofun, promote_reservations cfg s, by rw [promote_log]⟩

end Node

end ReservationSystem
