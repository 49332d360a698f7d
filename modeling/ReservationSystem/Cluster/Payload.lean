import ReservationSystem.Cluster.Transparency
import ReservationSystem.Lib.Raising
import ReservationSystem.Values

/-!
# What comes over the wire

`_applyReplication` on any JSON object. It checks the message only in part, and an exception
can leave it half way through.
-/

namespace ReservationSystem

open Raising

/-- `v or {}`. -/
def Json.orEmpty (v : Json) : Json := if v.truthy then v else .dict []

/-! ## The handler -/

abbrev WireKey := Json × Json × Json

/-- The node as the handler uses it. Its records are whatever objects came in. -/
structure WireNode where
  reservations : Dict WireKey Msg
  logicalClock : Int
  tableLocks : TableId → Option Thread

/-- A piece of a handler: what it does to the node stays done when it raises. -/
abbrev Handling := ExceptT String (StateM WireNode)

namespace WireNode

/-- `_advance_lamport_from_peer`. -/
def advanceLamportFromPeer (ts : Json) : Handling Unit :=
  if ts = .null then pure ()
  else
    match ts.toInt with
    | .ok t => modify fun s => { s with logicalClock := max s.logicalClock t + 1 }
    | .error .typeError | .error .valueError => pure ()
    | .error .overflowError => throw "cannot convert float infinity to integer"

/-- `tuple(key_parts)`, where it is hashed. -/
def hashKey (r t slot : Json) : Except String WireKey :=
  return (← r.hashed, ← t.hashed, ← slot.hashed)

/-- The `book` branch of `_applyReplication`. -/
def applyBook (r t slot : Json) (msg : Msg) : Handling Unit := do
  let reservation ← (msg.get "reservation").orEmpty.fields
  advanceLamportFromPeer (reservation.get "lamport_ts")
  let k ← hashKey r t slot
  modify fun s => { s with reservations := s.reservations.set k reservation }

/-- `self.reservations.pop(key, None)`. It hashes nothing when the dict is empty. -/
def pop (r t slot : Json) : Handling Unit := do
  if !(← get).reservations.entries.isEmpty then
    let k ← hashKey r t slot
    modify fun s => { s with reservations := s.reservations.erase k }

/-- `if isinstance(res, dict): ..`. -/
def advanceFromRecord : Json → Handling Unit
  | .dict fields => advanceLamportFromPeer (Msg.get fields "lamport_ts")
  | _ => pure ()

/-- The other branch of `_applyReplication`. -/
def applyCancel (r t slot : Json) (msg : Msg) : Handling Unit := do
  advanceFromRecord (msg.get "reservation")
  pop r t slot

def applyOperation (op : Op) (r t slot : Json) (msg : Msg) : Handling Response := do
  match op with
  | .book => applyBook r t slot msg
  | .cancel => applyCancel r t slot msg
  return ⟨.ok, "", none⟩

/-- `self.table_locks[table_id]`, if there is one. -/
def lockOf (cfg : Service) (tableId : Json) : Except String (Option TableId) := do
  match ← tableId.hashed with
  | .str t => return if t ∈ cfg.tables.keys then some t else none
  | _ => return none

/-- The lock is released however `body` ends. -/
def holding (h : Thread) (t : TableId) (body : Handling Response) : Handling Response := do
  modify fun s => { s with tableLocks := Function.update s.tableLocks t (some h) }
  try body
  finally modify fun s => { s with tableLocks := Function.update s.tableLocks t none }

def operation? : Json → Option Op
  | .str "book" => some .book
  | .str "cancel" => some .cancel
  | _ => none

/-- A list of three parts. -/
def keyParts? : Json → Option (Json × Json × Json)
  | .list [r, tableId, slot] => some (r, tableId, slot)
  | _ => none

/-- `_applyReplication`. It waits in vain for a lock that another thread holds. -/
def applyReplication (cfg : Service) (h : Thread) (msg : Msg) : Handling Response :=
  match operation? (msg.get "operation"), keyParts? (msg.get "key") with
  | some op, some (r, tableId, slot) => do
    match ← lockOf cfg tableId with
    | none => return errorAnswer "Unknown table"
    | some t =>
      if ((← get).tableLocks t).isSome then return errorAnswer "Lock timeout"
      holding h t (applyOperation op r tableId slot msg)
  | _, _ => return errorAnswer "Invalid replication payload"

/-- What `_handleClient` answers to a message with action `apply_replication`, and the node
that it leaves. -/
def handleClient (cfg : Service) (h : Thread) (msg : Msg) (s : WireNode) : Response × WireNode :=
  match (applyReplication cfg h msg).run.run s with
  | (.ok resp, s') => (resp, s')
  | (.error text, s') => (errorAnswer text, s')

/-! ## What the branches do -/

section
variable {α β : Type} {cfg : Service} {h : Thread} {msg : Msg} {s : WireNode} {r t slot ts : Json}
  {t' : TableId}

/-- The clock that `_advance_lamport_from_peer` leaves, if it does not raise. -/
def clockAfter (ts : Json) (clock : Int) : Except String Int :=
  match ts.toInt with
  | .ok n => .ok (max clock n + 1)
  | .error .overflowError => .error "cannot convert float infinity to integer"
  | .error _ => .ok clock

@[simp]
theorem run_advance : (advanceLamportFromPeer ts).run.run s =
    match clockAfter ts s.logicalClock with
    | .ok clock => (.ok (), { s with logicalClock := clock })
    | .error text => (.error text, s) := by
  unfold advanceLamportFromPeer clockAfter
  split_ifs with hts
  · subst hts
    rfl
  · cases ts.toInt with
    | ok n => rfl
    | error e => cases e <;> rfl

/-- The object whose `lamport_ts` is read. -/
def recordOf (op : Op) (v : Json) : Except String Msg :=
  match op with
  | .book => v.orEmpty.fields
  | .cancel =>
    match v with
    | .dict fields => .ok fields
    | _ => .ok []

/-- The dict that a branch leaves. -/
def written (op : Op) (key : Except String WireKey) (fields : Msg) (store : Dict WireKey Msg) :
    Except String (Dict WireKey Msg) :=
  match op with
  | .book => key.map (store.set · fields)
  | .cancel => if store.entries.isEmpty then .ok store else key.map store.erase

/-- What a branch does, all at once. -/
def branch (op : Op) (r t slot : Json) (msg : Msg) (s : WireNode) :
    Except String Unit × WireNode :=
  match recordOf op (msg.get "reservation") with
  | .error text => (.error text, s)
  | .ok fields =>
    match clockAfter (fields.get "lamport_ts") s.logicalClock,
      written op (hashKey r t slot) fields s.reservations with
    | .error text, _ => (.error text, s)
    | .ok clock, .error text => (.error text, { s with logicalClock := clock })
    | .ok clock, .ok store =>
      (.ok (), { s with logicalClock := clock, reservations := store })

theorem run_applyBook : (applyBook r t slot msg).run.run s = branch .book r t slot msg s := by
  unfold applyBook branch
  rw [run_bind, run_lift]
  simp only [recordOf, written]
  cases (msg.get "reservation").orEmpty.fields with
  | error text => rfl
  | ok reservation =>
    simp only [run_bind, run_advance, run_lift, run_modify]
    cases clockAfter (reservation.get "lamport_ts") s.logicalClock with
    | error text => rfl
    | ok clock => cases hashKey r t slot <;> rfl

theorem run_applyCancel : (applyCancel r t slot msg).run.run s = branch .cancel r t slot msg s := by
  unfold applyCancel branch
  rw [run_bind]
  cases msg.get "reservation" with
  | dict fields =>
    simp only [recordOf, written, advanceFromRecord, run_advance]
    cases clockAfter (Msg.get fields "lamport_ts") s.logicalClock with
    | error text => rfl
    | ok clock =>
      unfold pop
      simp only [run_bind, run_get]
      cases s.reservations.entries.isEmpty with
      | true => rfl
      | false => cases hashKey r t slot <;> rfl
  | _ =>
    unfold pop
    simp only [recordOf, written, advanceFromRecord, run_pure, run_bind, run_get]
    cases s.reservations.entries.isEmpty with
    | true => rfl
    | false => cases hashKey r t slot <;> rfl

theorem run_applyOperation {op : Op} : (applyOperation op r t slot msg).run.run s =
    ((branch op r t slot msg s).1.map fun _ => ⟨.ok, "", none⟩, (branch op r t slot msg s).2) := by
  unfold applyOperation
  cases op with
  | book =>
    simp only [run_bind, run_applyBook]
    rcases branch .book r t slot msg s with ⟨_ | _, s'⟩ <;> rfl
  | cancel =>
    simp only [run_bind, run_applyCancel]
    rcases branch .cancel r t slot msg s with ⟨_ | _, s'⟩ <;> rfl

theorem run_holding (body : Handling Response) : (holding h t' body).run.run s =
    match body.run.run { s with tableLocks := Function.update s.tableLocks t' (some h) } with
    | (res, s') => (res, { s' with tableLocks := Function.update s'.tableLocks t' none }) := by
  unfold holding
  rw [run_bind, run_modify]
  exact run_finally body _

theorem branch_locked {op : Op} (locks : TableId → Option Thread) :
    branch op r t slot msg { s with tableLocks := locks } =
      ((branch op r t slot msg s).1,
        { (branch op r t slot msg s).2 with tableLocks := locks }) := by
  unfold branch
  cases recordOf op (msg.get "reservation") with
  | error text => rfl
  | ok fields =>
    simp only
    cases clockAfter (fields.get "lamport_ts") s.logicalClock with
    | error text => rfl
    | ok clock => cases written op (hashKey r t slot) fields s.reservations <;> rfl

theorem branch_tableLocks {op : Op} :
    (branch op r t slot msg s).2.tableLocks = s.tableLocks :=
  congrArg (·.2.tableLocks) (branch_locked s.tableLocks)

/-- What the handler does, all at once. -/
theorem run_applyReplication : (applyReplication cfg h msg).run.run s =
    match operation? (msg.get "operation"), keyParts? (msg.get "key") with
    | some op, some (r, tableId, slot) =>
      match lockOf cfg tableId with
      | .error text => (.error text, s)
      | .ok none => (.ok (errorAnswer "Unknown table"), s)
      | .ok (some t) =>
        if (s.tableLocks t).isSome then (.ok (errorAnswer "Lock timeout"), s)
        else ((branch op r tableId slot msg s).1.map fun _ => ⟨.ok, "", none⟩,
          (branch op r tableId slot msg s).2)
    | _, _ => (.ok (errorAnswer "Invalid replication payload"), s) := by
  unfold applyReplication
  split
  case h_1 op r tableId slot hop hkey =>
    rw [run_bind, run_lift]
    rcases lockOf cfg tableId with text | (_ | t)
    · rfl
    · rfl
    · simp only [run_bind, run_get]
      split_ifs with hheld
      · rfl
      · have hfree : s.tableLocks t = none := by simpa using hheld
        rw [run_holding, run_applyOperation, branch_locked]
        simp only [Function.update_idem, ← hfree, Function.update_eq_self]
        rw [← @branch_tableLocks msg _ r tableId slot op]
  case h_2 => rfl

/-! ## What a rejected message leaves -/

/-- The message is for a known table whose lock is free. -/
structure Admits (cfg : Service) (s : WireNode) (msg : Msg) (op : Op) (r : Json) (t : TableId)
    (slot : Json) : Prop where
  operation : operation? (msg.get "operation") = some op
  key : msg.get "key" = .list [r, .str t, slot]
  table : t ∈ cfg.tables.keys
  free : s.tableLocks t = none

/-- The message is admitted and brings a time, so the clock moves, and then the key cannot be
hashed. A cancel hashes it unless the store is empty. -/
def FailsHalfway (cfg : Service) (s : WireNode) (msg : Msg) : Prop :=
  ∃ op r t slot fields n, Admits cfg s msg op r t slot ∧
    (msg.get "reservation").fields = .ok fields ∧ (fields.get "lamport_ts").toInt = .ok n ∧
    (op = .cancel → s.reservations.entries ≠ []) ∧ (r.Unhashable ∨ slot.Unhashable)

/-- The store, the clock and the locks are as before. -/
def Untouched (s s' : WireNode) : Prop :=
  s'.reservations = s.reservations ∧ s'.logicalClock = s.logicalClock ∧
    s'.tableLocks = s.tableLocks

theorem hashKey_error {t : TableId} : (∃ text, hashKey r (.str t) slot = .error text) ↔
    r.Unhashable ∨ slot.Unhashable := by
  rw [← Json.hashed_error, ← Json.hashed_error]
  unfold hashKey
  cases r.hashed <;> cases slot.hashed <;> simp [Json.hashed, bind, Except.bind, pure, Except.pure]

theorem written_error {op : Op} {key : Except String WireKey} {fields : Msg}
    {store : Dict WireKey Msg} : (∃ text, written op key fields store = .error text) ↔
      (op = .cancel → store.entries ≠ []) ∧ ∃ text, key = .error text := by
  unfold written
  cases op with
  | book => cases key <;> simp [Except.map]
  | cancel => cases hstore : store.entries <;> cases key <;> simp [Except.map]

/-- A time that `int` takes is that of an object in the message. -/
theorem recordOf_spec {op : Op} {v : Json} {fields : Msg} {n : Int}
    (hts : (fields.get "lamport_ts").toInt = .ok n) :
    recordOf op v = .ok fields ↔ v.fields = .ok fields := by
  have hne : fields ≠ [] := by
    rintro rfl
    simp [Msg.get, Msg.getD, Json.toInt] at hts
  unfold recordOf
  cases op with
  | book =>
    simp only [Json.orEmpty]
    split_ifs with hv
    · rfl
    · refine iff_of_false (fun h => hne (Except.ok.inj h).symm) ?_
      cases v with
      | dict fields' =>
        rintro h
        obtain rfl : fields' = fields := Except.ok.inj h
        exact hne (List.isEmpty_iff.mp (by simpa [Json.truthy] using hv))
      | _ => simp [Json.fields]
  | cancel =>
    cases v with
    | dict fields' => rfl
    | _ => exact iff_of_false (fun h => hne (Except.ok.inj h).symm) (by simp [Json.fields])

theorem clockAfter_ne {clock clock' : Int} (h : clockAfter ts clock = .ok clock') :
    clock' ≠ clock ↔ ∃ n, ts.toInt = .ok n := by
  unfold clockAfter at h
  split at h
  case h_1 n hts =>
    obtain rfl := Except.ok.inj h
    exact iff_of_true (by omega) ⟨n, hts⟩
  case h_2 => simp at h
  case h_3 e _ hts =>
    obtain rfl := Except.ok.inj h
    simp [hts]

/-- When a branch raises, and the clock has moved. -/
theorem branch_fails {op : Op} :
    (∃ text, (branch op r t slot msg s).1 = .error text) ∧
        ¬ Untouched s (branch op r t slot msg s).2 ↔
      ∃ fields n, (msg.get "reservation").fields = .ok fields ∧
        (fields.get "lamport_ts").toInt = .ok n ∧
          ∃ text, written op (hashKey r t slot) fields s.reservations = .error text := by
  have hsame : Untouched s s := ⟨rfl, rfl, rfl⟩
  unfold branch
  cases hrec : recordOf op (msg.get "reservation") with
  | error text =>
    refine iff_of_false (fun h => h.2 hsame) ?_
    rintro ⟨fields, n, hv, hts, -⟩
    simp [(recordOf_spec hts).mpr hv] at hrec
  | ok fields =>
    simp only
    cases hclock : clockAfter (fields.get "lamport_ts") s.logicalClock with
    | error text =>
      refine iff_of_false (fun h => h.2 hsame) ?_
      rintro ⟨fields', n, hv, hts, -⟩
      obtain rfl := Except.ok.inj (hrec.symm.trans ((recordOf_spec hts).mpr hv))
      simp [clockAfter, hts] at hclock
    | ok clock =>
      have hmoved := clockAfter_ne hclock
      have huntouched : Untouched s { s with logicalClock := clock } ↔
          ¬ ∃ n, (fields.get "lamport_ts").toInt = .ok n := by
        rw [← hmoved, not_not]
        exact ⟨fun h => h.2.1, fun h => ⟨rfl, h, rfl⟩⟩
      cases hw : written op (hashKey r t slot) fields s.reservations with
      | error text =>
        simp only [huntouched, not_not]
        constructor
        · rintro ⟨-, n, hts⟩
          exact ⟨fields, n, (recordOf_spec hts).mp hrec, hts, text, hw⟩
        · rintro ⟨fields', n, hv, hts, -⟩
          obtain rfl := Except.ok.inj (hrec.symm.trans ((recordOf_spec hts).mpr hv))
          exact ⟨⟨text, rfl⟩, n, hts⟩
      | ok store =>
        refine iff_of_false (fun h => by simp at h) ?_
        rintro ⟨fields', n, hv, hts, text, hw'⟩
        obtain rfl := Except.ok.inj (hrec.symm.trans ((recordOf_spec hts).mpr hv))
        simp [hw] at hw'

theorem keyParts?_eq_some {v : Json} :
    keyParts? v = some (r, t, slot) ↔ v = .list [r, t, slot] := by
  unfold keyParts?
  split
  · simp
  · next hno => exact iff_of_false (by simp) fun h => hno _ _ _ h

theorem lockOf_eq_some {tableId : Json} {t : TableId} :
    lockOf cfg tableId = .ok (some t) ↔ tableId = .str t ∧ t ∈ cfg.tables.keys := by
  unfold lockOf
  cases tableId with
  | str t' =>
    simp only [Json.hashed, bind, Except.bind, pure, Except.pure]
    split_ifs with ht
    · simp only [Except.ok.injEq, Option.some.injEq, Json.str.injEq]
      exact ⟨fun h => ⟨h, h ▸ ht⟩, And.left⟩
    · refine iff_of_false (by simp) ?_
      rintro ⟨h, ht'⟩
      obtain rfl := Json.str.inj h
      exact ht ht'
  | float x =>
    have hx : ∃ v, (Json.float x).hashed = .ok v ∧ ∀ t, v ≠ .str t := by
      simp only [Json.hashed]
      split
      · split_ifs <;> exact ⟨_, rfl, by simp⟩
      · exact ⟨_, rfl, by simp⟩
    obtain ⟨v, hv, hne⟩ := hx
    refine iff_of_false ?_ (by simp)
    rw [hv]
    cases v with
    | str t' => exact absurd rfl (hne t')
    | _ => simp [bind, Except.bind, pure, Except.pure]
  | _ => simp [Json.hashed, bind, Except.bind, pure, Except.pure]

theorem Admits.handleClient {op : Op} {t : TableId} (ha : Admits cfg s msg op r t slot) :
    handleClient cfg h msg s =
      (match (branch op r (.str t) slot msg s).1 with
        | .ok _ => ⟨.ok, "", none⟩
        | .error text => errorAnswer text,
      (branch op r (.str t) slot msg s).2) := by
  unfold WireNode.handleClient
  rw [run_applyReplication, ha.operation, keyParts?_eq_some.mpr ha.key]
  simp only [lockOf_eq_some.mpr ⟨rfl, ha.table⟩, ha.free]
  rcases branch op r (.str t) slot msg s with ⟨_ | _, s'⟩ <;> rfl

theorem handleClient_refused (hno : ∀ op r t slot, ¬ Admits cfg s msg op r t slot) :
    (handleClient cfg h msg s).2 = s := by
  unfold handleClient
  rw [run_applyReplication]
  cases hop : operation? (msg.get "operation") with
  | none => rfl
  | some op =>
    rcases hkey : keyParts? (msg.get "key") with _ | ⟨r, tableId, slot⟩
    · rfl
    · simp only
      rcases hlock : lockOf cfg tableId with text | (_ | t)
      · rfl
      · rfl
      · obtain ⟨rfl, ht⟩ := lockOf_eq_some.mp hlock
        have hheld : (s.tableLocks t).isSome := by
          rw [Option.isSome_iff_ne_none]
          exact fun hfree => hno op r t slot ⟨hop, keyParts?_eq_some.mp hkey, ht, hfree⟩
        simp only [hheld, if_true]

/-- The handler turns a message down without a trace, unless it fails half way. -/
theorem rejected_untouched_iff :
    ((handleClient cfg h msg s).1.status ≠ .ok → Untouched s (handleClient cfg h msg s).2) ↔
      ¬ FailsHalfway cfg s msg := by
  by_cases hadm : ∃ op r t slot, Admits cfg s msg op r t slot
  · obtain ⟨op, r, t, slot, ha⟩ := hadm
    have hfails : FailsHalfway cfg s msg ↔
        ∃ fields n, (msg.get "reservation").fields = .ok fields ∧
          (fields.get "lamport_ts").toInt = .ok n ∧
          ∃ text, written op (hashKey r (.str t) slot) fields s.reservations = .error text := by
      simp only [written_error, hashKey_error]
      constructor
      · rintro ⟨op', r', t', slot', fields, n, ha', hfields, hts, hstore, hkey⟩
        obtain rfl := Option.some.inj (ha.operation.symm.trans ha'.operation)
        obtain ⟨rfl, rfl, rfl⟩ : r = r' ∧ t = t' ∧ slot = slot' := by
          simpa using ha.key.symm.trans ha'.key
        exact ⟨fields, n, hfields, hts, hstore, hkey⟩
      · rintro ⟨fields, n, hfields, hts, hstore, hkey⟩
        exact ⟨op, r, t, slot, fields, n, ha, hfields, hts, hstore, hkey⟩
    rw [hfails, ← branch_fails, ha.handleClient]
    cases (branch op r (.str t) slot msg s).1 <;> simp
  · refine iff_of_true (fun _ => ?_) ?_
    · rw [handleClient_refused fun op r t slot ha => hadm ⟨op, r, t, slot, ha⟩]
      exact ⟨rfl, rfl, rfl⟩
    · rintro ⟨op, r, t, slot, fields, n, ha, -⟩
      exact hadm ⟨op, r, t, slot, ha⟩

/-- The key of this message is not a key: the clock has moved all the same. -/
def oddKey : Msg :=
  [("action", .str "apply_replication"), ("operation", .str "book"),
    ("key", .list [.list [], .str "T1", .str "2026-05-01_18:00"]),
    ("reservation", .dict [("lamport_ts", .int 5)])]

/-- A backup that has just started. -/
def fresh : WireNode := ⟨.empty, 0, fun _ => none⟩

theorem oddKey_moves_clock :
    (handleClient urbanBackup (.replica 0) oddKey fresh).1.status = .error ∧
      ¬ Untouched fresh (handleClient urbanBackup (.replica 0) oddKey fresh).2 := by
  have ha : Admits urbanBackup fresh oddKey .book (.list []) "T1" (.str "2026-05-01_18:00") :=
    ⟨rfl, rfl, by decide, rfl⟩
  rw [ha.handleClient]
  refine ⟨rfl, fun h => ?_⟩
  have hclock : (6 : Int) = 0 := h.2.1
  omega

end

end WireNode

/-! ## The messages of a primary -/

/-- A record as it is sent. `time n` is the number that `time.time()` has returned. -/
def Reservation.encode (time : Nat → Json) (res : Reservation) : Msg :=
  [("restaurant_id", .str res.restaurantId), ("table_id", .str res.tableId), ("date", res.date),
    ("timeslot", res.timeslot), ("customer_name", res.customerName),
    ("party_size", res.partySize), ("contact", res.contact), ("created_at", time res.createdAt),
    ("lamport_ts", .int res.lamportTs)]

def Op.text : Op → String
  | .book => "book"
  | .cancel => "cancel"

def ReplicationMsg.encode (time : Nat → Json) (msg : ReplicationMsg) : Msg :=
  [("action", .str "apply_replication"), ("operation", .str msg.operation.text),
    ("key", .list (msg.key.map .str)), ("reservation", .dict (msg.reservation.encode time))]

def Key.encode (k : Key) : WireKey := (.str k.1, .str k.2.1, .str k.2.2)

theorem Key.encode_injective : Function.Injective Key.encode := by
  rintro ⟨r, t, slot⟩ ⟨r', t', slot'⟩ h
  simpa [Key.encode] using h

namespace WireNode

variable {cfg : Service} {s : Node} {h : Thread} {msg : ReplicationMsg} {time : Nat → Json}

/-- What the wire sees of a node whose records were all sent by primaries. -/
def ofNode (time : Nat → Json) (s : Node) : WireNode where
  reservations := s.reservations.transport Key.encode_injective (·.encode time)
  logicalClock := s.logicalClock
  tableLocks := s.tableLocks

variable (time) in
theorem clockAfter_encode (clock : Nat) (res : Reservation) :
    clockAfter ((res.encode time).get "lamport_ts") clock =
      .ok (Node.advanceLamportFromPeer clock res.lamportTs : Int) := by
  have hts : ((res.encode time).get "lamport_ts").toInt = .ok (res.lamportTs : Int) := rfl
  unfold clockAfter Node.advanceLamportFromPeer
  rw [hts]
  simp only [Except.ok.injEq]
  omega

variable (time) in
theorem written_encode (op : Op) (k : Key) (res : Reservation) (d : Dict Key Reservation) :
    written op (.ok k.encode) (res.encode time)
        (d.transport Key.encode_injective (·.encode time)) =
      .ok ((op.write d k res).transport Key.encode_injective (·.encode time)) := by
  unfold written
  cases op with
  | book => simp only [Op.write, Dict.transport_set, Except.map]
  | cancel =>
    simp only [Op.write, Dict.transport_erase, Except.map]
    split_ifs with hempty
    · rw [Dict.erase_of_not_mem]
      simp [Dict.keys, List.isEmpty_iff.mp hempty]
    · rfl

/-- The branch of `msg.operation`, after the node has taken the lock. -/
theorem branch_encode (k : Key) :
    branch msg.operation (.str k.1) (.str k.table) (.str k.2.2) (msg.encode time)
        (ofNode time s) =
      (.ok (), { ofNode time s with
        reservations := (msg.operation.write s.reservations k msg.reservation).transport
          Key.encode_injective (·.encode time)
        logicalClock :=
          Node.advanceLamportFromPeer s.logicalClock msg.reservation.lamportTs }) := by
  have hfields : ((msg.encode time).get "reservation").fields =
      .ok (msg.reservation.encode time) := rfl
  have hts : ((msg.reservation.encode time).get "lamport_ts").toInt =
      .ok (msg.reservation.lamportTs : Int) := rfl
  have hkey : hashKey (.str k.1) (.str k.table) (.str k.2.2) = .ok k.encode := rfl
  have hclock := clockAfter_encode time s.logicalClock msg.reservation
  have hwritten := written_encode time msg.operation k msg.reservation s.reservations
  unfold branch ofNode
  rw [(recordOf_spec hts).mpr hfields]
  simp only [hkey, hwritten, hclock]

/-- On the messages of a primary the handler does the steps of `Node.applyReplication`. -/
theorem handleClient_encode (hnew : s.handlers h = none)
    (hpre : cfg.precheck (.applyReplication msg) = none)
    (hfree : s.tableLocks (Request.applyReplication msg).table = none) : ∃ s',
    Machine.exec (Node.step cfg) s (.receive h (.applyReplication msg) ::
        Node.acts h [.acquire, .advance, .store, .release]) = some s' ∧
      handleClient cfg h (msg.encode time) (ofNode time s) = (⟨.ok, "", none⟩, ofNode time s') := by
  obtain ⟨es, hexec⟩ := Node.exec_apply hnew hpre hfree
  refine ⟨_, hexec, ?_⟩
  obtain ⟨hkey, ht⟩ := message_admitted hpre
  rw [← key_table cfg] at ht hfree
  generalize (Request.applyReplication msg).key cfg = k at *
  have ha : Admits cfg (ofNode time s) (msg.encode time) msg.operation (.str k.1) k.table
      (.str k.2.2) := by
    refine ⟨?_, ?_, ht, hfree⟩
    · show operation? (.str msg.operation.text) = _
      cases msg.operation <;> rfl
    · show Json.list (msg.key.map .str) = _
      rw [hkey]
      rfl
  rw [ha.handleClient, branch_encode]
  rfl

end WireNode

end ReservationSystem
