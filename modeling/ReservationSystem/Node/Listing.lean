import ReservationSystem.Lib.EntryArray
import ReservationSystem.Node.Changes
import ReservationSystem.Node.Queries

/-!
# A listing while others write

`_listReservations` takes no lock. Its loop visits one entry of the dict after the other, and
handlers that write can run in between.
-/

namespace ReservationSystem

open EntryArray Machine

/-- How far the handler is. -/
inductive ListPhase
  | waiting
  | looping (cursor : Cursor) (results : List Reservation)
  | answered (reply : Reply)

/-- A node and one handler of `list_reservations`. `slots` is the array behind the node's dict,
and `moments` are the stores that the node has had while the loop was running. -/
structure Listing where
  node : Node
  slots : List (Option (Key × Reservation))
  phase : ListPhase
  moments : List (Dict Key Reservation)

namespace Listing

/-- `compact` says whether CPython moves the entries together, should the step insert one. -/
inductive Event
  | node (e : Node.Event) (compact : Bool)
  | begin
  | next

/-- The loop goes on with this record. -/
def keeps (msg : Msg) (res : Reservation) : Bool :=
  !((msg.get "date").truthy && !res.date.equals (msg.get "date"))

/-- The records that the loop picks from a part of the array. -/
def picked (msg : Msg) (slots : List (Option (Key × Reservation))) : List Reservation :=
  ((entries slots).map Prod.snd).filter (keeps msg)

/-- What a step of the node does to the array. -/
def rearrange (cfg : Service) (s s' : Node) (slots : List (Option (Key × Reservation)))
    (compact : Bool) : Node.Event → List (Option (Key × Reservation))
  | .act h .store =>
    match s.handlers h with
    | some hd =>
      put compact (hd.request.key cfg) slots (s'.reservations.get? (hd.request.key cfg))
    | none => slots
  | _ => slots

def start (cfg : Service) (backUp : Bool) : Listing := ⟨.start cfg backUp, [], .waiting, []⟩

/-- The stores since the loop began, when the next one is `store`. -/
def seen (l : Listing) (store : Dict Key Reservation) : List (Dict Key Reservation) :=
  match l.phase with
  | .looping _ _ => l.moments ++ [store]
  | _ => l.moments

def step (cfg : Service) (msg : Msg) (l : Listing) : Event → Option Listing
  | .node e compact =>
    (l.node.step cfg e).map fun node =>
      { l with
        node := node
        slots := rearrange cfg l.node node l.slots compact e
        moments := l.seen node.reservations }
  | .begin =>
    match l.phase with
    | .waiting =>
      some { l with phase := .looping (.start l.slots) [], moments := [l.node.reservations] }
    | _ => none
  | .next =>
    match l.phase with
    | .looping cursor results =>
      match cursor.next l.slots with
      | .raises text => some { l with phase := .answered (.raised text) }
      | .stop => some { l with phase := .answered (.reservations results results.length) }
      | .yields e cursor =>
        some { l with
          phase := .looping cursor (if keeps msg e.2 then results ++ [e.2] else results) }
    | _ => none

/-- While the loop runs, a write leaves alone what the loop will still pick, or what it has
picked so far is what it would pick after the write. And the iterator does not raise. -/
def Undisturbed (cfg : Service) (msg : Msg) (l : Listing) (e : Event) : Prop :=
  match l.phase, e with
  | .looping cursor results, .node e compact => ∀ node ∈ l.node.step cfg e,
    picked msg ((rearrange cfg l.node node l.slots compact e).drop cursor.pos) =
        picked msg (l.slots.drop cursor.pos) ∨
      picked msg ((rearrange cfg l.node node l.slots compact e).take cursor.pos) = results
  | .looping cursor _, .next => (cursor.next l.slots).raised = false
  | _, _ => True

deriving instance DecidableEq for Reservation

instance (cfg : Service) (msg : Msg) (l : Listing) (e : Event) :
    Decidable (Undisturbed cfg msg l e) :=
  match hp : l.phase, e with
  | .looping cursor results, .node e compact =>
    decidable_of_iff (∀ node ∈ l.node.step cfg e,
      picked msg ((rearrange cfg l.node node l.slots compact e).drop cursor.pos) =
          picked msg (l.slots.drop cursor.pos) ∨
        picked msg ((rearrange cfg l.node node l.slots compact e).take cursor.pos) = results)
      (by simp only [Undisturbed, hp])
  | .looping cursor _, .next =>
    decidable_of_iff ((cursor.next l.slots).raised = false) (by simp only [Undisturbed, hp])
  | .looping _ _, .begin => isTrue (by simp only [Undisturbed, hp])
  | .waiting, _ | .answered _, _ => isTrue (by simp only [Undisturbed, hp])

/-- The answer is a listing of one store that the node had while the loop was running. -/
def Snapshot (msg : Msg) (l : Listing) : Prop :=
  ∀ reply, l.phase = .answered reply →
    ∃ store ∈ l.moments, reply = listReservations msg store

/-! ## The invariant -/

/-- What has been picked, and what is still to be picked, are the two parts of one store. -/
structure Consistent (msg : Msg) (l : Listing) : Prop where
  laid : entries l.slots = l.node.reservations.entries
  current : ∀ cursor results, l.phase = .looping cursor results →
    l.node.reservations ∈ l.moments
  parts : ∀ cursor results, l.phase = .looping cursor results →
    ∃ store ∈ l.moments, (store.entries.map Prod.snd).filter (keeps msg) =
      results ++ picked msg (l.slots.drop cursor.pos)
  snapshot : Snapshot msg l

section
variable {cfg : Service} {msg : Msg} {l l' : Listing} {e : Event}

theorem consistent_start (backUp : Bool) : Consistent msg (start cfg backUp) := by
  constructor <;> simp [start, entries, List.reduceOption, Node.start, Dict.empty, Snapshot]

theorem picked_split (laid : entries l.slots = l.node.reservations.entries) (n : Nat) :
    (l.node.reservations.entries.map Prod.snd).filter (keeps msg) =
      picked msg (l.slots.take n) ++ picked msg (l.slots.drop n) := by
  unfold picked
  rw [← laid, ← entries_take_drop n, List.map_append, List.filter_append]

theorem laid_step {s s' : Node} {slots : List (Option (Key × Reservation))} {e : Node.Event}
    {compact : Bool} (hs : s.step cfg e = some s') (laid : entries slots = s.reservations.entries) :
    entries (rearrange cfg s s' slots compact e) = s'.reservations.entries := by
  rcases (Node.step_spec hs).write ("", "", "") with
    ⟨hno, hsame, -⟩ | ⟨h, hd, res, hh, rfl, -, hwrite, -⟩
  · have hrest : rearrange cfg s s' slots compact e = slots := by
      unfold rearrange
      split
      · next h => exact absurd rfl (hno h)
      · rfl
    rw [hrest, hsame, laid]
  · simp only [rearrange, hh]
    rw [hwrite, get?_write, if_pos rfl]
    cases hd.request.op with
    | book => exact entries_put_some laid compact res
    | cancel => exact entries_put_none laid compact

theorem node_consistent {node : Node} {ne : Node.Event} {compact : Bool}
    (hi : Consistent msg l) (hc : Undisturbed cfg msg l (.node ne compact))
    (hs : l.node.step cfg ne = some node) :
    Consistent msg { l with
      node := node
      slots := rearrange cfg l.node node l.slots compact ne
      moments := l.seen node.reservations } := by
  have hlaid : entries (rearrange cfg l.node node l.slots compact ne) = _ :=
    laid_step hs hi.laid
  refine ⟨hlaid, ?_, ?_, ?_⟩
  · intro cursor results hphase
    replace hphase : l.phase = .looping cursor results := hphase
    simp [seen, hphase]
  · intro cursor results hphase
    replace hphase : l.phase = .looping cursor results := hphase
    simp only [Undisturbed, hphase] at hc
    rcases hc node hs with hsame | hpicked
    · obtain ⟨store, hmem, hstore⟩ := hi.parts cursor results hphase
      refine ⟨store, by simp [seen, hphase, hmem], ?_⟩
      rw [hstore]
      exact congrArg (results ++ ·) hsame.symm
    · refine ⟨node.reservations, by simp [seen, hphase], ?_⟩
      rw [← hpicked]
      exact @picked_split _ { l with
        node := node, slots := rearrange cfg l.node node l.slots compact ne } hlaid cursor.pos
  · intro reply hphase
    replace hphase : l.phase = .answered reply := hphase
    obtain ⟨store, hmem, hreply⟩ := hi.snapshot reply hphase
    exact ⟨store, by simp [seen, hphase, hmem], hreply⟩

theorem yields_consistent {cursor cursor' : Cursor} {results : List Reservation}
    {x : Key × Reservation} (hi : Consistent msg l) (hphase : l.phase = .looping cursor results)
    (hnext : cursor.next l.slots = .yields x cursor') :
    Consistent msg { l with
      phase := .looping cursor' (if keeps msg x.2 then results ++ [x.2] else results) } := by
  obtain ⟨-, hdrop, -⟩ := next_yields hnext
  refine ⟨hi.laid, fun _ _ _ => hi.current cursor results hphase, ?_, fun _ h => by simp at h⟩
  intro c r h
  obtain ⟨rfl, rfl⟩ := ListPhase.looping.inj h
  obtain ⟨store, hmem, hstore⟩ := hi.parts cursor results hphase
  refine ⟨store, hmem, ?_⟩
  rw [hstore, picked, picked, hdrop, List.map_cons, List.filter_cons]
  split_ifs <;> simp

theorem consistent_step (hi : Consistent msg l) (hc : Undisturbed cfg msg l e)
    (hs : step cfg msg l e = some l') : Consistent msg l' := by
  unfold step at hs
  split at hs
  case h_1 ne compact =>
    obtain ⟨node, hnode, rfl⟩ := Option.map_eq_some_iff.mp hs
    exact node_consistent hi hc hnode
  case h_2 =>
    split at hs
    case h_2 => simp at hs
    case h_1 hphase =>
      obtain rfl := Option.some.inj hs
      refine ⟨hi.laid, fun _ _ _ => by simp, ?_, fun _ h => by simp at h⟩
      intro c r h
      obtain ⟨rfl, rfl⟩ := ListPhase.looping.inj h
      exact ⟨l.node.reservations, by simp, picked_split hi.laid 0⟩
  case h_3 =>
    split at hs
    case h_2 => simp at hs
    case h_1 cursor results hphase =>
      split at hs
      case h_1 text hraises => simp [Undisturbed, hphase, hraises, Next.raised] at hc
      case h_2 hstop =>
        obtain rfl := Option.some.inj hs
        refine ⟨hi.laid, fun _ _ h => by simp at h, fun _ _ h => by simp at h, ?_⟩
        rintro reply h
        obtain rfl := ListPhase.answered.inj h
        obtain ⟨store, hmem, hstore⟩ := hi.parts cursor results hphase
        refine ⟨store, hmem, ?_⟩
        have hrest : picked msg (l.slots.drop cursor.pos) = [] := by
          rw [picked, next_stop hstop]
          rfl
        rw [hrest, List.append_nil] at hstore
        unfold listReservations
        rw [← hstore]
        rfl
      case h_3 x cursor' hyields =>
        obtain rfl := Option.some.inj hs
        exact yields_consistent hi hphase hyields

/-! ## The answer -/

/-- A step of the loop ends it, or brings it nearer to its end. -/
theorem next_progress {cursor : Cursor} {results : List Reservation}
    (hphase : l.phase = .looping cursor results) : ∃ l', step cfg msg l .next = some l' ∧
      ((∃ reply, l'.phase = .answered reply) ∨
        ∃ cursor' results', l'.phase = .looping cursor' results' ∧ cursor'.left < cursor.left) := by
  simp only [step, hphase]
  cases hnext : cursor.next l.slots with
  | raises text => exact ⟨_, rfl, .inl ⟨_, rfl⟩⟩
  | stop => exact ⟨_, rfl, .inl ⟨_, rfl⟩⟩
  | yields x cursor' => exact ⟨_, rfl, .inr ⟨cursor', _, rfl, (next_yields hnext).2.2⟩⟩

/-- In a run whose steps all leave the loop undisturbed, it comes to an end and its answer is a
snapshot. -/
theorem listing_snapshot {backUp : Bool}
    (hr : Reach (step cfg msg) (Undisturbed cfg msg) (start cfg backUp) l) :
    Snapshot msg l ∧ (∀ reply, l.phase = .answered reply → reply.status = .ok) ∧
      ∀ cursor results, l.phase = .looping cursor results →
        ∃ l', step cfg msg l .next = some l' ∧ ((∃ reply, l'.phase = .answered reply) ∨
          ∃ cursor' results', l'.phase = .looping cursor' results' ∧
            cursor'.left < cursor.left) := by
  have hi : Consistent msg l :=
    hr.invariant (consistent_start backUp) fun _ _ _ _ hi hc hs => consistent_step hi hc hs
  refine ⟨hi.snapshot, fun reply hphase => ?_, fun _ _ hphase => next_progress hphase⟩
  obtain ⟨store, -, rfl⟩ := hi.snapshot reply hphase
  rfl

end

def nodeSteps (es : List Node.Event) : List Event := es.map (.node · false)

def noDate : Msg := []

/-- The steps of a booking of `t` by thread `n`, up to its dict write. -/
def booking (n : Nat) (t name : String) : List Node.Event :=
  .receive (.client n) (.book (dinner t name)) ::
    Node.acts (.client n) [.acquire, .check, .stamp 0, .send, .returned .acked, .store]

/-- Bob books while the entries are listed, and the loop has not come to the end yet. -/
theorem listing_snapshot_bob : ∃ l reply,
    exec (step urbanPlates noDate) (start urbanPlates false)
        (nodeSteps (booking 0 "T1" "Alice") ++ [.begin, .next] ++
          nodeSteps ((booking 1 "T2" "Bob").take 6) ++ [.next]) = some l ∧
      l.phase = .answered reply ∧ reply.status = .ok ∧ Snapshot noDate l := by
  have hm : Meets (step urbanPlates noDate)
      (Undisturbed urbanPlates noDate) (start urbanPlates false)
        (nodeSteps (booking 0 "T1" "Alice") ++ [.begin, .next] ++
          nodeSteps ((booking 1 "T2" "Bob").take 6) ++ [.next]) := by decide
  obtain ⟨hsnap, hok, -⟩ := listing_snapshot (reach_of_exec hm rfl)
  exact ⟨_, _, rfl, rfl, hok _ rfl, hsnap⟩

/-- Alice books while an empty store is listed. -/
theorem listing_disturbed : ∃ l reply,
    exec (step urbanPlates noDate) (start urbanPlates false)
        (.begin :: nodeSteps (booking 0 "T1" "Alice") ++ [.next]) = some l ∧
      l.phase = .answered reply ∧ reply.status = .error ∧ ¬ Snapshot noDate l := by
  refine ⟨_, _, rfl, rfl, rfl, fun hs => ?_⟩
  obtain ⟨store, -, hreply⟩ := hs _ rfl
  simp [Reply.raised, listReservations] at hreply

end Listing

end ReservationSystem
