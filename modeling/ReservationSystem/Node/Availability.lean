import ReservationSystem.Lib.Scan
import ReservationSystem.Node.Changes
import ReservationSystem.Node.Queries

/-!
# Availability while others write

`_checkAvailability` takes no lock either. It looks up one table after the other, and handlers
that write can run in between.
-/

namespace ReservationSystem

open Machine

/-- How far the handler is. `todo` are the tables that the loop has not come to. -/
inductive CheckPhase
  | waiting
  | looping (todo : List (TableId × TableInfo)) (available : List TableOffer)
  | answered (reply : Reply)

/-- A node and one handler of `check_availability`. `moments` are the stores that the node has had
since the loop began. -/
structure Checking where
  node : Node
  phase : CheckPhase
  moments : List (Dict Key Reservation)

namespace Checking

inductive Event
  | node (e : Node.Event)
  | begin
  | next

/-- `key in self.reservations`, for the key on `t`. -/
def taken (cfg : Service) (msg : Msg) (store : Dict Key Reservation) (t : TableId) : Bool :=
  (store.get? (cfg.slotKey msg t)).isSome

def start (cfg : Service) (backUp : Bool) : Checking := ⟨.start cfg backUp, .waiting, []⟩

/-- The stores since the loop began, when the next one is `store`. -/
def seen (c : Checking) (store : Dict Key Reservation) : List (Dict Key Reservation) :=
  match c.phase with
  | .looping _ _ => c.moments ++ [store]
  | _ => c.moments

def step (cfg : Service) (msg : Msg) (c : Checking) : Event → Option Checking
  | .node e =>
    (c.node.step cfg e).map fun node =>
      { c with node := node, moments := c.seen node.reservations }
  | .begin =>
    match c.phase with
    | .waiting =>
      some { c with phase := .looping cfg.tables.entries [], moments := [c.node.reservations] }
    | _ => none
  | .next =>
    match c.phase with
    | .looping [] available =>
      some { c with
        phase := .answered
          (.availability cfg.restaurantId (msg.get "date") (msg.get "timeslot") available) }
    | .looping ((t, table) :: todo) available =>
      match tooSmall table.capacity (msg.getD "party_size" (.int 1)) with
      | .error text => some { c with phase := .answered (.raised text) }
      | .ok true => some { c with phase := .looping todo available }
      | .ok false =>
        some { c with
          phase := .looping todo
            (if taken cfg msg c.node.reservations t then available
              else available ++ [table.offer t]) }
    | _ => none

/-- While the loop runs, no table is booked or freed at the slot asked for, unless this is the
first time. -/
def OneChange (cfg : Service) (msg : Msg) (c : Checking) : Event → Prop
  | .node e =>
    match c.phase with
    | .looping _ _ => ∀ node ∈ c.node.step cfg e,
      (∀ t ∈ cfg.tables.keys, taken cfg msg node.reservations t =
        taken cfg msg c.node.reservations t) ∨
      ∀ store ∈ c.moments, ∀ t ∈ cfg.tables.keys,
        taken cfg msg store t = taken cfg msg c.node.reservations t
    | _ => True
  | _ => True

instance (cfg : Service) (msg : Msg) (c : Checking) (e : Event) :
    Decidable (OneChange cfg msg c e) :=
  match hp : c.phase, e with
  | .looping _ _, .node e =>
    decidable_of_iff (∀ node ∈ c.node.step cfg e,
      (∀ t ∈ cfg.tables.keys, taken cfg msg node.reservations t =
        taken cfg msg c.node.reservations t) ∨
      ∀ store ∈ c.moments, ∀ t ∈ cfg.tables.keys,
        taken cfg msg store t = taken cfg msg c.node.reservations t)
      (by simp only [OneChange, hp])
  | .looping _ _, .begin | .looping _ _, .next => isTrue trivial
  | .waiting, .node _ | .answered _, .node _ => isTrue (by simp only [OneChange, hp])
  | .waiting, .begin | .waiting, .next | .answered _, .begin | .answered _, .next => isTrue trivial

/-! ## What the loop has looked up -/

section
variable {cfg : Service} {cat : Catalogue} {msg : Msg} {partySize : Json}
  {read read' : TableId → Bool} {done rest : List (TableId × TableInfo)}
  {offers : List TableOffer} {c c' : Checking} {e : Event}

/-- The loop depends on what it reads for its own tables. -/
theorem offers_congr (h : ∀ e ∈ done, read e.1 = read' e.1) :
    availableTables partySize read done = availableTables partySize read' done := by
  induction done with
  | nil => rfl
  | cons e done ih =>
    unfold availableTables
    rw [h e List.mem_cons_self, ih fun e' he' => h e' (List.mem_cons_of_mem e he')]

/-- The first part of the loop, and then the rest of it. -/
theorem offers_append (h : availableTables partySize read done = .ok offers) :
    availableTables partySize read (done ++ rest) =
      (availableTables partySize read rest).map (offers ++ ·) := by
  induction done generalizing offers with
  | nil =>
    obtain rfl := Except.ok.inj h
    rw [List.nil_append]
    cases availableTables partySize read rest <;> rfl
  | cons e done ih =>
    obtain ⟨t, table⟩ := e
    simp only [List.cons_append, availableTables] at h ⊢
    cases hsmall : tooSmall table.capacity partySize with
    | error text => simp [hsmall] at h
    | ok small =>
      simp only [hsmall] at h ⊢
      cases small with
      | true => exact ih h
      | false =>
        cases htaken : read t with
        | true =>
          simp only [htaken, if_true] at h ⊢
          exact ih h
        | false =>
          cases hdone : availableTables partySize read done with
          | error text => simp [htaken, hdone, Except.map] at h
          | ok offers' =>
            simp only [htaken, hdone, Except.map, Bool.false_eq_true, if_false] at h ⊢
            obtain rfl := Except.ok.inj h
            rw [ih hdone]
            cases availableTables partySize read rest <;> rfl

theorem offers_snoc {t : TableId} {table : TableInfo}
    (h : availableTables partySize read done = .ok offers)
    (hsmall : tooSmall table.capacity partySize = .ok false) :
    availableTables partySize read (done ++ [(t, table)]) =
      .ok (if read t then offers else offers ++ [table.offer t]) := by
  rw [offers_append h]
  simp only [availableTables, hsmall]
  cases read t with
  | true => exact congrArg Except.ok (List.append_nil offers)
  | false => rfl

theorem offers_skip {t : TableId} {table : TableInfo}
    (h : availableTables partySize read done = .ok offers)
    (hsmall : tooSmall table.capacity partySize = .ok true) :
    availableTables partySize read (done ++ [(t, table)]) = .ok offers := by
  rw [offers_append h]
  simp only [availableTables, hsmall]
  exact congrArg Except.ok (List.append_nil offers)

theorem offers_stop {t : TableId} {table : TableInfo} {text : String}
    (h : availableTables partySize read done = .ok offers)
    (hsmall : tooSmall table.capacity partySize = .error text) :
    availableTables partySize read (done ++ (t, table) :: rest) = .error text := by
  rw [offers_append h]
  simp only [availableTables, hsmall]
  rfl

/-- A property of what was looked up so far, and of the tables to come, that every step of the
loop keeps, and every step of the node that meets `C`. -/
structure Keeps (cfg : Service) (msg : Msg) (C : Checking → Event → Prop)
    (K : List (Dict Key Reservation) → List TableId → List TableId → (TableId → Bool) →
      Dict Key Reservation → Prop) : Prop where
  begin : ∀ store read, K [store] [] cfg.tables.keys read store
  look : ∀ moments done t todo read store, t ∉ done → K moments done (t :: todo) read store →
    K moments (done ++ [t]) todo (Function.update read t (taken cfg msg store t)) store
  write : ∀ c todo available e node done rest read, c.phase = .looping todo available →
    C c (.node e) → c.node.step cfg e = some node → done ++ rest = cfg.tables.keys →
    K c.moments done rest read c.node.reservations →
    K (c.moments ++ [node.reservations]) done rest read node.reservations

variable {C : Checking → Event → Prop}
  {K : List (Dict Key Reservation) → List TableId → List TableId → (TableId → Bool) →
    Dict Key Reservation → Prop}

/-- How the answer, or what there is of it, comes from what was looked up. -/
structure Looked (cfg : Service) (msg : Msg)
    (K : List (Dict Key Reservation) → List TableId → List TableId → (TableId → Bool) →
      Dict Key Reservation → Prop) (c : Checking) : Prop where
  looping : ∀ todo available, c.phase = .looping todo available → ∃ done read,
    done ++ todo = cfg.tables.entries ∧
      availableTables (msg.getD "party_size" (.int 1)) read done = .ok available ∧
      K c.moments (done.map Prod.fst) (todo.map Prod.fst) read c.node.reservations
  answered : ∀ reply, c.phase = .answered reply → ∃ read store,
    reply = cfg.checkAvailability msg read ∧ K c.moments cfg.tables.keys [] read store

theorem fresh_table {t : TableId} {table : TableInfo}
    (hsplit : done ++ (t, table) :: rest = cfg.tables.entries) : t ∉ done.map Prod.fst := by
  have hnodup : (done.map Prod.fst ++ t :: rest.map Prod.fst).Nodup := by
    simpa [← hsplit] using cfg.tables.nodup
  exact fun h => List.disjoint_of_nodup_append hnodup h List.mem_cons_self

/-- The tables that an exception spares could be looked up at once. -/
theorem Keeps.skipRest (hk : Keeps cfg msg C K) {moments : List (Dict Key Reservation)}
    {seen todo : List TableId} {store : Dict Key Reservation} (hnodup : (seen ++ todo).Nodup)
    (h : K moments seen todo read store) :
    ∃ read', K moments (seen ++ todo) [] read' store ∧ ∀ t ∈ seen, read' t = read t := by
  induction todo generalizing seen read with
  | nil => exact ⟨read, by rwa [List.append_nil], fun _ _ => rfl⟩
  | cons t todo ih =>
    have hnew : t ∉ seen := fun h' => List.disjoint_of_nodup_append hnodup h' List.mem_cons_self
    obtain ⟨read', hread, hold⟩ := ih (by rwa [List.append_assoc])
      (hk.look moments seen t todo read store hnew h)
    rw [List.append_assoc] at hread
    refine ⟨read', hread, fun t' ht' => ?_⟩
    have hne : t' ≠ t := fun heq => hnew (heq ▸ ht')
    rw [hold t' (List.mem_append_left _ ht'), Function.update_of_ne hne]

theorem looked_start (backUp : Bool) : Looked cfg msg K (start cfg backUp) :=
  ⟨nofun, nofun⟩

theorem looked_node {ne : Node.Event} {node : Node} (hk : Keeps cfg msg C K)
    (hi : Looked cfg msg K c) (hc : C c (.node ne)) (hs : c.node.step cfg ne = some node) :
    Looked cfg msg K { c with node := node, moments := c.seen node.reservations } := by
  constructor
  · intro todo available hphase
    replace hphase : c.phase = .looping todo available := hphase
    obtain ⟨done, read, hsplit, hoffers, hread⟩ := hi.looping todo available hphase
    refine ⟨done, read, hsplit, hoffers, ?_⟩
    have hkeys : done.map Prod.fst ++ todo.map Prod.fst = cfg.tables.keys := by
      rw [← List.map_append, hsplit]
      rfl
    simp only [seen, hphase]
    exact hk.write c todo available ne node _ _ read hphase hc hs hkeys hread
  · intro reply hphase
    replace hphase : c.phase = .answered reply := hphase
    simp only [seen, hphase]
    exact hi.answered reply hphase

theorem looked_next {todo : List (TableId × TableInfo)} {available : List TableOffer}
    (hk : Keeps cfg msg C K) (hi : Looked cfg msg K c)
    (hphase : c.phase = .looping todo available) (hs : step cfg msg c .next = some c') :
    Looked cfg msg K c' := by
  obtain ⟨done, read, hsplit, hoffers, hread⟩ := hi.looping todo available hphase
  have hkeys : (done ++ todo).map Prod.fst = cfg.tables.keys := congrArg (List.map Prod.fst) hsplit
  cases todo with
  | nil =>
    simp only [step, hphase] at hs
    obtain rfl := Option.some.inj hs
    refine ⟨nofun, ?_⟩
    rintro reply h
    obtain rfl := CheckPhase.answered.inj h
    rw [List.append_nil] at hsplit hkeys
    refine ⟨read, c.node.reservations, ?_, hkeys ▸ hread⟩
    simp only [Service.checkAvailability, ← hsplit, hoffers]
  | cons e todo =>
    obtain ⟨t, table⟩ := e
    have hnew : t ∉ done.map Prod.fst := fresh_table hsplit
    have hlooked := hk.look _ _ _ _ _ _ hnew hread
    have hsame : ∀ e ∈ done, Function.update read t (taken cfg msg c.node.reservations t) e.1 =
        read e.1 := by
      intro e he
      have hne : e.1 ≠ t := fun heq => hnew (heq ▸ List.mem_map_of_mem he)
      exact Function.update_of_ne hne ..
    rw [← offers_congr hsame] at hoffers
    have hstep : done ++ [(t, table)] ++ todo = cfg.tables.entries := by
      rw [List.append_assoc]
      exact hsplit
    have hids : (done ++ [(t, table)]).map Prod.fst = done.map Prod.fst ++ [t] := List.map_append
    simp only [step, hphase] at hs
    cases hsmall : tooSmall table.capacity (msg.getD "party_size" (.int 1)) with
    | error text =>
      rw [hsmall] at hs
      obtain rfl := Option.some.inj hs
      refine ⟨nofun, ?_⟩
      rintro reply h
      obtain rfl := CheckPhase.answered.inj h
      obtain ⟨read', hread', hold⟩ := hk.skipRest
        (by rw [← List.map_append, hkeys]; exact cfg.tables.nodup) hread
      rw [← List.map_append, hkeys] at hread'
      refine ⟨read', c.node.reservations, ?_, hread'⟩
      have hdone : availableTables (msg.getD "party_size" (.int 1)) read' done = .ok available :=
        (offers_congr fun e he =>
          (hold e.1 (List.mem_map_of_mem he)).trans (hsame e he).symm).trans hoffers
      simp only [Service.checkAvailability, ← hsplit, offers_stop hdone hsmall]
    | ok small =>
      rw [hsmall] at hs
      cases small with
      | true =>
        obtain rfl := Option.some.inj hs
        refine ⟨?_, nofun⟩
        rintro todo' available' h
        obtain ⟨rfl, rfl⟩ := CheckPhase.looping.inj h
        exact ⟨_, _, hstep, offers_skip hoffers hsmall, hids ▸ hlooked⟩
      | false =>
        obtain rfl := Option.some.inj hs
        refine ⟨?_, nofun⟩
        rintro todo' available' h
        obtain ⟨rfl, rfl⟩ := CheckPhase.looping.inj h
        refine ⟨_, _, hstep, ?_, hids ▸ hlooked⟩
        rw [offers_snoc hoffers hsmall, Function.update_self]

theorem looked_step (hk : Keeps cfg msg C K) (hi : Looked cfg msg K c) (hc : C c e)
    (hs : step cfg msg c e = some c') : Looked cfg msg K c' := by
  cases e with
  | node ne =>
    obtain ⟨node, hnode, rfl⟩ := Option.map_eq_some_iff.mp hs
    exact looked_node hk hi hc hnode
  | begin =>
    cases hphase : c.phase with
    | waiting =>
      simp only [step, hphase] at hs
      obtain rfl := Option.some.inj hs
      refine ⟨?_, nofun⟩
      rintro todo available h
      obtain ⟨rfl, rfl⟩ := CheckPhase.looping.inj h
      exact ⟨[], fun _ => false, rfl, rfl, hk.begin _ _⟩
    | looping todo available => simp [step, hphase] at hs
    | answered reply => simp [step, hphase] at hs
  | next =>
    cases hphase : c.phase with
    | looping todo available => exact looked_next hk hi hphase hs
    | waiting => simp [step, hphase] at hs
    | answered reply => simp [step, hphase] at hs

theorem looked_reach {backUp : Bool} (hk : Keeps cfg msg C K)
    (hr : Reach (step cfg msg) C (start cfg backUp) c) : Looked cfg msg K c :=
  hr.invariant (looked_start backUp) fun _ _ _ _ hi hc hs => looked_step hk hi hc hs

/-! ## The answer -/

/-- The loop ends: each of its steps takes a table away, or is the last. -/
theorem next_table {todo : List (TableId × TableInfo)} {available : List TableOffer}
    (hphase : c.phase = .looping todo available) : ∃ c', step cfg msg c .next = some c' ∧
      ((∃ reply, c'.phase = .answered reply) ∨
        ∃ available', c'.phase = .looping todo.tail available' ∧ todo ≠ []) := by
  cases todo with
  | nil =>
    simp only [step, hphase]
    exact ⟨_, rfl, .inl ⟨_, rfl⟩⟩
  | cons e todo =>
    obtain ⟨t, table⟩ := e
    simp only [step, hphase]
    rcases tooSmall table.capacity (msg.getD "party_size" (.int 1)) with text | _ | _
    · exact ⟨_, rfl, .inl ⟨_, rfl⟩⟩
    · exact ⟨_, rfl, .inr ⟨_, rfl, nofun⟩⟩
    · exact ⟨_, rfl, .inr ⟨_, rfl, nofun⟩⟩

theorem keeps_seen (cfg : Service) (msg : Msg) : Keeps cfg msg (fun _ _ => True)
    fun moments done _ read store =>
      moments.getLast? = some store ∧ Scan.Seen (taken cfg msg) moments done read where
  begin _ _ := ⟨rfl, Scan.seen_nil ..⟩
  look _ _ _ _ _ _ hnew h := ⟨h.1, h.2.look h.1 hnew⟩
  write _ _ _ _ _ _ _ _ _ _ _ _ h := ⟨List.getLast?_concat, h.2.happen _⟩

/-- Whatever is written meanwhile, the answer tells of each table what was so at some moment of
the loop, and of a later table at no earlier moment. -/
theorem availability_regular {backUp : Bool}
    (hr : Reach (step cfg msg) (fun _ _ => True) (start cfg backUp) c) :
    (∀ reply, c.phase = .answered reply → ∃ read, reply = cfg.checkAvailability msg read ∧
      Scan.Seen (taken cfg msg) c.moments cfg.tables.keys read) ∧
      ∀ todo available, c.phase = .looping todo available →
        ∃ c', step cfg msg c .next = some c' ∧ ((∃ reply, c'.phase = .answered reply) ∨
          ∃ available', c'.phase = .looping todo.tail available' ∧ todo ≠ []) := by
  have hi := looked_reach (keeps_seen cfg msg) hr
  refine ⟨fun reply hphase => ?_, fun _ _ => next_table⟩
  obtain ⟨read, store, hreply, -, hseen⟩ := hi.answered reply hphase
  exact ⟨read, hreply, hseen⟩

/-- A step writes to one key at most, which is the key of one table at most. -/
theorem taken_step {s s' : Node} {ne : Node.Event} (hs : s.step cfg ne = some s') :
    ∃ t, ∀ t' ≠ t, taken cfg msg s'.reservations t' = taken cfg msg s.reservations t' := by
  rcases (Node.step_spec hs).write ("", "", "") with
    ⟨-, hsame, -⟩ | ⟨h, hd, res, -, -, -, hwrite, -⟩
  · exact ⟨"", fun _ _ => by rw [hsame]⟩
  · refine ⟨(hd.request.key cfg).2.1, fun t' hne => ?_⟩
    have hkey : cfg.slotKey msg t' ≠ hd.request.key cfg := fun heq => hne (congrArg (·.2.1) heq)
    unfold taken
    rw [hwrite, get?_write, if_neg hkey]

theorem keeps_one (cfg : Service) (msg : Msg) : Keeps cfg msg (OneChange cfg msg)
    fun moments done todo read store =>
      Scan.InOne (taken cfg msg) moments done todo read store where
  begin _ _ := Scan.inOne_start ..
  look _ _ _ _ _ _ hnew h := h.look hnew
  write c todo available e node done rest read hphase hc hs hkeys h := by
    simp only [OneChange, hphase] at hc
    have hmem (t : TableId) : t ∈ done ∨ t ∈ rest → t ∈ cfg.tables.keys := by
      rw [← hkeys, List.mem_append]
      exact id
    rcases hc node hs with hsame | hfirst
    · exact h.unchanged fun t ht => hsame t (hmem t (.inr ht))
    · obtain ⟨t, hone⟩ := taken_step hs
      have hnodup : (done ++ rest).Nodup := hkeys ▸ cfg.tables.nodup
      exact h.change (List.disjoint_of_nodup_append hnodup)
        (fun store hstore t' ht' => hfirst store hstore t' (hmem t' (.inl ht'))) hone

/-- A node that nobody writes to meanwhile looks up the same. -/
theorem read_taken (s : Node) :
    s.read cfg cat (.checkAvailability msg) =
      cfg.checkAvailability msg (taken cfg msg s.reservations) := by
  have htaken (t : TableId) : decide (cfg.slotKey msg t ∈ s.reservations.keys) =
      taken cfg msg s.reservations t := by
    unfold taken
    rw [Bool.eq_iff_iff, decide_eq_true_eq, Option.isSome_iff_ne_none, ne_eq,
      ← Dict.not_mem_keys_iff, not_not]
  unfold Node.read
  simp only [htaken]

/-- If no more than one table is booked or freed at the slot while the loop runs, the answer is
the one that a single moment of the loop calls for. -/
theorem availability_snapshot {backUp : Bool}
    (hr : Reach (step cfg msg) (OneChange cfg msg) (start cfg backUp) c) {reply : Reply}
    (hphase : c.phase = .answered reply) :
    ∃ store ∈ c.moments,
      reply = { c.node with reservations := store }.read cfg cat (.checkAvailability msg) := by
  obtain ⟨read, -, rfl, store, hstore, hread, -⟩ :=
    (looked_reach (keeps_one cfg msg) hr).answered reply hphase
  refine ⟨store, hstore, ?_⟩
  rw [read_taken]
  unfold Service.checkAvailability
  rw [offers_congr fun e he => (hread e.1 (List.mem_map_of_mem he)).symm]

end

/-- The steps of a whole write by thread `n`. -/
def served (n : Nat) (req : Request) : List Event :=
  (.receive (.client n) req :: Node.acts (.client n)
    [.acquire, .check, .stamp 0, .send, .returned .acked, .store, .release]).map .node

/-- T1 is booked and T2 freed, after the loop has passed T1. Both are offered, though at no moment
both were free. -/
theorem availability_regular_torn : ∃ c reply,
    exec (step urbanPlates (dinner "" "")) (start urbanPlates false)
        (served 0 (.book (dinner "T2" "Alice")) ++ [.begin, .next] ++
          served 1 (.book (dinner "T1" "Bob")) ++ served 2 (.cancel (dinner "T2" "")) ++
          [.next, .next]) = some c ∧
      c.phase = .answered reply ∧
      (∃ read, reply = urbanPlates.checkAvailability (dinner "" "") read ∧
        Scan.Seen (taken urbanPlates (dinner "" "")) c.moments urbanPlates.tables.keys read) ∧
      ∀ store ∈ c.moments, ∃ t ∈ urbanPlates.tables.keys,
        taken urbanPlates (dinner "" "") store t = true ∧ reply.offersOn t ≠ .ok [] := by
  have hm : Meets (step urbanPlates (dinner "" "")) (fun _ _ => True)
      (start urbanPlates false)
        (served 0 (.book (dinner "T2" "Alice")) ++ [.begin, .next] ++
          served 1 (.book (dinner "T1" "Bob")) ++ served 2 (.cancel (dinner "T2" "")) ++
          [.next, .next]) := meets_of_forall fun _ _ _ => trivial
  exact ⟨_, _, rfl, rfl, (availability_regular (reach_of_exec hm rfl)).1 _ rfl, by decide⟩

/-- T1 is booked after the loop has passed it. -/
theorem availability_snapshot_bob : ∃ c reply,
    exec (step urbanPlates (dinner "" "")) (start urbanPlates false)
        (served 0 (.book (dinner "T2" "Alice")) ++ [.begin, .next] ++
          served 1 (.book (dinner "T1" "Bob")) ++ [.next, .next]) = some c ∧
      ∃ store ∈ c.moments, reply = { c.node with reservations := store }.read urbanPlates
        plainCatalogue (.checkAvailability (dinner "" "")) := by
  have hm : Meets (step urbanPlates (dinner "" ""))
      (OneChange urbanPlates (dinner "" "")) (start urbanPlates false)
        (served 0 (.book (dinner "T2" "Alice")) ++ [.begin, .next] ++
          served 1 (.book (dinner "T1" "Bob")) ++ [.next, .next]) := by decide
  exact ⟨_, _, rfl, availability_snapshot (reach_of_exec hm rfl) rfl⟩

end Checking

end ReservationSystem
