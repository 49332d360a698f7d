import ReservationSystem.Node.Changes
import ReservationSystem.Slot

/-!
# One node without replication messages: every key is a slot

The node's store refines `Slot`: under each key, the clients' operations that were answered
with status ok are the uses of one slot.
-/

namespace ReservationSystem

def usesOf (k : Key) (log : List Entry) : List (Op × Reservation) :=
  (changesOf k log).map fun c => (c.op, c.res)

namespace Node

open Machine

variable {cfg : Service} {s s' : Node} {h : Thread} {hd : Handler} {a : Action} {e : Event}
  {k : Key}

/-- The event is not the arrival of a replication message. -/
def NoReplication : Event → Prop
  | .receive _ req => req.IsClient
  | _ => True

/-! ## One step -/

theorem uses_step (hw : Wf cfg s) (hs : Steps cfg s e s')
    (hclient : ∀ h hd, s.handlers h = some hd → hd.request.IsClient)
    (hu : Slot.Uses (usesOf k s.log) (s.reservations.get? k)) :
    Slot.Uses (usesOf k s'.log) (s'.reservations.get? k) := by
  rcases hs.write k with ⟨-, hres, hlog⟩ | ⟨h, hd, res, hh, -, hwr, hres, hlog⟩
  · rwa [usesOf, hres, hlog]
  · obtain ⟨old, hp⟩ := hwr.of_client (hclient h hd hh)
    rw [usesOf, hres, hlog, get?_write]
    by_cases hk : hd.request.key cfg = k
    · subst hk
      have hexp := hw.found hh (by rw [hp]; rfl)
      rw [if_pos rfl, if_pos rfl, List.map_append]
      refine Slot.uses_snoc hu ?_
      -- A booking found the slot free and a cancel found it taken.
      cases hop : hd.request.op with
      | book =>
        rw [hop] at hexp
        rw [show s.reservations.get? (hd.request.key cfg) = none from hexp]
        rfl
      | cancel =>
        rw [hop] at hexp
        obtain ⟨r, hr⟩ := Option.ne_none_iff_exists'.mp hexp
        rw [hr]
        rfl
    · rw [if_neg hk, if_neg (Ne.symm hk), List.append_nil]
      exact hu

theorem changesOf_nodup_step (hi : History cfg s) (hs : Steps cfg s e s')
    (hn : ((changesOf k s.log).map Change.thread).Nodup) :
    ((changesOf k s'.log).map Change.thread).Nodup := by
  rcases hs.write k with ⟨-, -, hlog⟩ | ⟨h, hd, res, hh, -, hwr, -, hlog⟩
  · rwa [hlog]
  · rw [hlog]
    split_ifs with hk
    · rw [List.map_append, List.nodup_append]
      refine ⟨hn, List.nodup_singleton _, ?_⟩
      rintro h' hmem h'' hmem' rfl
      -- A thread that has written is on its way out, and this one is not.
      obtain ⟨c, hc, rfl⟩ := List.mem_map.mp hmem
      obtain ⟨old', hold'⟩ := mem_changesOf.mp hc
      obtain ⟨hd', hh', -, -, resp, hresp, -⟩ := hi.fits _ hold'
      obtain rfl : c.thread = h := by simpa using hmem'
      obtain rfl := Option.some.inj (hh.symm.trans hh')
      rw [hwr.resp?] at hresp
      simp at hresp
    · simpa using hn

theorem clients_step (hs : Steps cfg s e s') (he : NoReplication e)
    (hclient : ∀ h hd, s.handlers h = some hd → hd.request.IsClient) (h' : Thread) (hd' : Handler)
    (hh' : s'.handlers h' = some hd') : hd'.request.IsClient := by
  rcases hs.handler hh' with hh | ⟨-, rfl, -⟩ | ⟨hd, a, p, -, hh, -, rfl⟩
  · exact hclient h' hd' hh
  · exact he
  · exact hclient h' hd hh

/-! ## Runs -/

section
variable {backUp : Bool} (hr : Reach (step cfg) (fun _ e => NoReplication e) (start cfg backUp) s)
include hr

theorem clients_reach : ∀ h hd, s.handlers h = some hd → hd.request.IsClient := by
  refine hr.invariant (P := fun s => ∀ h hd, s.handlers h = some hd → hd.request.IsClient)
    ?_ fun s e s' _ hc he hs => ?_
  · simp [start]
  · exact clients_step (step_spec hs) he hc

/-- The store of a node refines the slots. -/
theorem uses_reach (k : Key) : Slot.Uses (usesOf k s.log) (s.reservations.get? k) := by
  refine hr.invariant (P := fun s => Slot.Uses (usesOf k s.log) (s.reservations.get? k))
    ?_ fun s e s' hr hu _ hs => ?_
  · exact Slot.uses_nil
  · exact uses_step (wf_reach (wf_start cfg backUp) hr) (step_spec hs) (clients_reach hr) hu

theorem changesOf_nodup_reach (k : Key) : ((changesOf k s.log).map Change.thread).Nodup := by
  refine hr.invariant (P := fun s => ((changesOf k s.log).map Change.thread).Nodup)
    ?_ fun s e s' hr hn _ hs => ?_
  · exact List.nodup_nil
  · exact changesOf_nodup_step (history_reach (history_start cfg backUp) hr) (step_spec hs) hn

end

/-- What the clients of one key can rely on. -/
structure SlotSafe (cfg : Service) (s : Node) (k : Key) : Prop where
  /-- The operations that changed the store are book, cancel, book, ... -/
  alternate : ((changesOf k s.log).map Change.op).IsChain (· ≠ ·)
  first : ∀ op ∈ ((changesOf k s.log).map Change.op).head?, op = .book
  /-- The key is stored exactly when the last of them is a booking, with that record. -/
  stored : s.reservations.get? k =
    (changesOf k s.log).getLast?.bind fun c => c.op.effect c.res
  /-- Each of them is one handler's, and its answer is ok and returns the record. -/
  once : ((changesOf k s.log).map Change.thread).Nodup
  confirmed : ∀ c ∈ changesOf k s.log, ∃ hd resp, s.handlers c.thread = some hd ∧
    hd.phase.resp? = some resp ∧ resp.status = .ok ∧ resp.record = some c.res
  /-- Every operation that was answered ok is one of them, and none that was answered with
  an error. -/
  ok : ∀ h req resp, .received h req ∈ s.log → .answered h resp ∈ s.log → req.key cfg = k →
    resp.status = .ok → ∃ c ∈ changesOf k s.log, c.thread = h ∧ c.op = req.op ∧
      resp.record = some c.res
  error : ∀ h resp, .answered h resp ∈ s.log → resp.status = .error →
    ∀ c ∈ changesOf k s.log, c.thread ≠ h

/-- Per-slot safety of one node, whatever its handlers do at the same time. -/
theorem slot_safe {backUp : Bool}
    (hr : Reach (step cfg) (fun _ e => NoReplication e) (start cfg backUp) s) (k : Key) :
    SlotSafe cfg s k := by
  have hi := history_reach (history_start cfg backUp) hr
  have hu := uses_reach hr k
  have hops : (usesOf k s.log).map Prod.fst = (changesOf k s.log).map Change.op := by
    simp [usesOf, Function.comp_def]
  have hconf : ∀ c ∈ changesOf k s.log, ∃ hd resp, s.handlers c.thread = some hd ∧
      hd.phase.resp? = some resp ∧ resp.status = .ok ∧ resp.record = some c.res := by
    intro c hc
    obtain ⟨old, hold⟩ := mem_changesOf.mp hc
    obtain ⟨hd, hh, -, -, resp, hresp, hok, hrec⟩ := hi.fits _ hold
    exact ⟨hd, resp, hh, hresp, hok, hrec (clients_reach hr _ hd hh)⟩
  constructor
  case alternate => rw [← hops]; exact hu.alternate.1
  case first => rw [← hops]; exact hu.alternate.2
  case stored => simpa [usesOf, Option.bind_map, Function.comp_def] using hu.slot_eq
  case once => exact changesOf_nodup_reach hr k
  case confirmed => exact hconf
  case ok =>
    intro h req resp hrec hans hk hok
    obtain ⟨hd, hh, rfl⟩ := hi.fits _ hrec
    obtain ⟨hd', hh', hdone⟩ := hi.fits _ hans
    obtain rfl := Option.some.inj (hh.symm.trans hh')
    obtain ⟨old, res, hch⟩ := (hi.past h hd hh).changed resp (by rw [hdone]; rfl) hok
    rw [hk] at hch
    have hmem : ⟨h, hd.request.op, res⟩ ∈ changesOf k s.log := mem_changesOf.mpr ⟨old, hch⟩
    obtain ⟨hd', resp', hh', hresp', -, hrec'⟩ := hconf _ hmem
    obtain rfl := Option.some.inj (hh.symm.trans hh')
    rw [hdone] at hresp'
    obtain rfl := Option.some.inj hresp'
    exact ⟨_, hmem, rfl, rfl, hrec'⟩
  case error =>
    rintro h resp hans herr c hc rfl
    obtain ⟨hd, hh, hdone⟩ := hi.fits _ hans
    obtain ⟨hd', resp', hh', hresp', hok, -⟩ := hconf c hc
    obtain rfl := Option.some.inj (hh.symm.trans hh')
    rw [hdone] at hresp'
    obtain rfl := Option.some.inj hresp'
    rw [herr] at hok
    simp at hok

/-- Bob waits in vain while Alice books, and then her cancel ends in an exception. -/
def aliceAndBob : List Event :=
  .receive (.client 0) (.book (dinner "T1" "Alice")) ::
  .receive (.client 1) (.book (dinner "T1" "Bob")) ::
  acts (.client 0) [.acquire, .check, .stamp 0, .send] ++
  acts (.client 1) [.lockTimeout] ++
  acts (.client 0) [.returned .acked, .store, .release] ++
  .receive (.client 2) (.cancel (dinner "T1" "Alice")) ::
  acts (.client 2) [.acquire, .check, .stamp 5, .send, .returned (.raised "timed out"), .release]

theorem slot_safe_aliceAndBob :
    ∃ s, exec (step urbanPlates) (start urbanPlates false) aliceAndBob = some s ∧
      SlotSafe urbanPlates s (dinnerKey "T1") := by
  have hm : Meets (step urbanPlates) (fun _ e => NoReplication e) (start urbanPlates false)
      aliceAndBob :=
    meets_of_forall (by simp [aliceAndBob, acts, NoReplication, Request.IsClient])
  exact ⟨_, rfl, slot_safe (reach_of_exec hm rfl) _⟩

end Node

end ReservationSystem
