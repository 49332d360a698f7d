import Mathlib.Data.List.Induction
import ReservationSystem.Cluster.Transparency

/-!
# The order in which messages arrive

The primary sends the messages of different tables concurrently, so the backup can receive
them in any order. Only the last message for a key decides what is stored under it.
-/

namespace ReservationSystem

open Machine Node

variable {cfg : Service} {s₀ s s' : Node} {msgs msgs' : List ReplicationMsg}
  {msg : ReplicationMsg}

/-- The same messages, with those for one key in the same order. -/
structure Rearranged (msgs msgs' : List ReplicationMsg) : Prop where
  perm : msgs.Perm msgs'
  order : ∀ key, msgs.filter (·.key = key) = msgs'.filter (·.key = key)

/-- The last message for a key. -/
def latest (key : List String) (msgs : List ReplicationMsg) : Option ReplicationMsg :=
  (msgs.filter (·.key = key)).getLast?

/-- No lock is held, and there are threads left for messages. -/
structure Ready (s : Node) : Prop where
  free : ∀ t, s.tableLocks t = none
  fresh : ∃ n, ∀ m, n ≤ m → s.handlers (.replica m) = none

/-- Two backups that differ in nothing but their clocks, and what may come to them again. -/
structure SameStores (cfg : Service) (msgs : List ReplicationMsg) (s s' : Node) : Prop where
  stores : ∀ k, s.reservations.get? k = s'.reservations.get? k
  availability : ∀ cat msg, s.read cfg cat (.checkAvailability msg) =
    s'.read cfg cat (.checkAvailability msg)
  clocks : ∀ msg ∈ msgs, msg.reservation.lamportTs < s.logicalClock ∧
    msg.reservation.lamportTs < s'.logicalClock
  redelivered : ∀ key msg t, latest key msgs = some msg →
    (Applies cfg s [msg] t → t.reservations = s.reservations) ∧
      (Applies cfg s' [msg] t → t.reservations = s'.reservations)

/-! ## One message -/

theorem latest_snoc (key : List String) :
    latest key (msgs ++ [msg]) = if msg.key = key then some msg else latest key msgs := by
  unfold latest
  rw [List.filter_append]
  split_ifs with h <;> simp [h]

theorem Node.Serves.admitted {h : Thread} {req : Request} {as : List Action} {resp : Response}
    (hs : Serves cfg s h req as s' resp) (hok : resp.status = .ok) :
    cfg.precheck req = none := by
  obtain ⟨he, hd⟩ := hs
  simp only [exec, Option.bind_eq_some_iff] at he
  obtain ⟨s₁, hs₁, he⟩ := he
  cases step_spec hs₁ with
  | receive h req hnew hpre => exact hpre
  | refuse h req resp' hnew hpre herr =>
    obtain rfl := exec_done (Function.update_self ..) he
    obtain rfl := Option.some.inj he
    have := Phase.done.inj (congrArg Handler.phase (handler_moved s h hd))
    simp [this, herr] at hok

/-- What an applied message has done. -/
theorem Node.Serves.applies {h : Thread} {as : List Action} {resp : Response}
    (hs : Serves cfg s h (.applyReplication msg) as s' resp) (hok : resp.status = .ok) :
    msg.key = keyToList ((Request.applyReplication msg).key cfg) ∧
      s'.reservations = msg.operation.write s.reservations
        ((Request.applyReplication msg).key cfg) msg.reservation ∧
      s'.logicalClock = advanceLamportFromPeer s.logicalClock msg.reservation.lamportTs := by
  obtain ⟨-, es, rfl⟩ := hs.applied hok
  exact ⟨(message_admitted (hs.admitted hok)).1, rfl, rfl⟩

theorem Ready.applies (hr : Ready s) (hpre : cfg.precheck (.applyReplication msg) = none) :
    ∃ h as s' resp, Serves cfg s h (.applyReplication msg) as s' resp ∧ resp.status = .ok ∧
      Ready s' := by
  obtain ⟨n, hn⟩ := hr.fresh
  obtain ⟨es, he⟩ := exec_apply (hn n (Nat.le_refl n)) hpre (hr.free _)
  refine ⟨_, _, _, _, ⟨he, Function.update_self ..⟩, rfl, hr.free, n + 1, fun m hm => ?_⟩
  have hne : m ≠ n := by omega
  simp [after, hne, hn m (by omega)]

/-! ## All messages -/

theorem applies_exists (hr : Ready s₀)
    (hpre : ∀ msg ∈ msgs, cfg.precheck (.applyReplication msg) = none) :
    ∃ s, Applies cfg s₀ msgs s ∧ Ready s := by
  induction msgs using List.reverseRecOn with
  | nil => exact ⟨s₀, .nil, hr⟩
  | append_singleton msgs msg ih =>
    obtain ⟨s, ha, hrs⟩ := ih fun m hm => hpre m (List.mem_append_left _ hm)
    obtain ⟨h, as, s', resp, hs, hok, hr'⟩ := hrs.applies (hpre msg (by simp))
    exact ⟨s', ha.snoc hs hok, hr'⟩

/-- The last message for a key decides what is stored under it. -/
theorem Applies.get? (ha : Applies cfg s₀ msgs s) (k : Key) :
    s.reservations.get? k =
      ((latest (keyToList k) msgs).map (·.effect)).getD (s₀.reservations.get? k) := by
  induction ha with
  | nil => rfl
  | @snoc msgs msg s s' h as resp _ hs hok ih =>
    obtain ⟨hkey, hstore, -⟩ := hs.applies hok
    rw [hstore, get?_write, latest_snoc, hkey]
    by_cases hk : k = (Request.applyReplication msg).key cfg
    · simp [hk, ReplicationMsg.effect]
    · have hne : keyToList ((Request.applyReplication msg).key cfg) ≠ keyToList k :=
        fun h => hk (keyToList_inj h).symm
      rw [if_neg hk, if_neg hne]
      exact ih

theorem Applies.clock_eq (ha : Applies cfg s₀ msgs s) :
    s.logicalClock = msgs.foldl
      (fun clock msg => advanceLamportFromPeer clock msg.reservation.lamportTs)
      s₀.logicalClock := by
  induction ha with
  | nil => rfl
  | snoc _ hs hok ih =>
    obtain ⟨-, -, hclock⟩ := hs.applies hok
    rw [hclock, ih, List.foldl_append]
    rfl

theorem Applies.clock_lt (ha : Applies cfg s₀ msgs s) :
    ∀ msg ∈ msgs, msg.reservation.lamportTs < s.logicalClock := by
  induction ha with
  | nil => simp
  | snoc _ hs hok ih =>
    obtain ⟨-, -, hclock⟩ := hs.applies hok
    intro m hm
    rw [hclock]
    unfold advanceLamportFromPeer
    rcases List.mem_append.mp hm with hm | hm
    · have := ih m hm
      omega
    · obtain rfl := List.mem_singleton.mp hm
      omega

/-- Availability depends on which keys are taken, not on the order of the entries. -/
theorem read_checkAvailability_congr (h : ∀ k, s.reservations.get? k = s'.reservations.get? k)
    (cat : Catalogue) (msg : Msg) :
    s.read cfg cat (.checkAvailability msg) = s'.read cfg cat (.checkAvailability msg) := by
  have hkeys (k : Key) : k ∈ s.reservations.keys ↔ k ∈ s'.reservations.keys := by
    rw [← not_iff_not, Dict.not_mem_keys_iff, Dict.not_mem_keys_iff, h k]
  simp only [Node.read, hkeys]

theorem write_again {op : Op} {store : Dict Key Reservation} {k : Key} {res : Reservation}
    (h : store.get? k = op.effect res) : op.write store k res = store := by
  cases op with
  | book => exact Dict.set_of_get? h
  | cancel => exact Dict.erase_of_not_mem ((Dict.not_mem_keys_iff store k).mpr h)

/-- A message that comes once more, when no later one for its key has come. -/
theorem Applies.again {key : List String} {t : Node} (ha : Applies cfg s₀ msgs s)
    (hlast : latest key msgs = some msg) (hb : Applies cfg s [msg] t) :
    t.reservations = s.reservations := by
  replace hb : Applies cfg s ([] ++ [msg]) t := hb
  obtain ⟨s₁, h, as, resp, hs₁, hs, hok⟩ := hb.snoc_inv
  obtain rfl := hs₁.nil_inv
  obtain ⟨hkey, hstore, -⟩ := hs.applies hok
  have hmem : msg ∈ msgs.filter (·.key = key) := List.mem_of_getLast? hlast
  obtain rfl : msg.key = key := by simpa using (List.mem_filter.mp hmem).2
  rw [hstore]
  refine write_again ?_
  rw [ha.get?, ← hkey, hlast]
  rfl

theorem Rearranged.latest (hr : Rearranged msgs msgs') (key : List String) :
    latest key msgs = latest key msgs' := congrArg List.getLast? (hr.order key)

/-- Messages for different keys commute. -/
theorem arrivals_commute (hr : Rearranged msgs msgs') :
    (Ready s₀ → (∀ msg ∈ msgs, cfg.precheck (.applyReplication msg) = none) →
        (∃ s, Applies cfg s₀ msgs s) ∧ ∃ s', Applies cfg s₀ msgs' s') ∧
      ∀ s s', Applies cfg s₀ msgs s → Applies cfg s₀ msgs' s' → SameStores cfg msgs s s' := by
  refine ⟨fun hready hpre => ?_, fun s s' hs hs' => ?_⟩
  · obtain ⟨s, hs, -⟩ := applies_exists hready hpre
    obtain ⟨s', hs', -⟩ := applies_exists hready fun msg hmsg => hpre msg (hr.perm.mem_iff.mpr hmsg)
    exact ⟨⟨s, hs⟩, s', hs'⟩
  · have hstores (k : Key) : s.reservations.get? k = s'.reservations.get? k := by
      rw [hs.get?, hs'.get?, hr.latest]
    refine ⟨hstores, read_checkAvailability_congr hstores, fun msg hmsg => ?_, ?_⟩
    · exact ⟨hs.clock_lt msg hmsg, hs'.clock_lt msg (hr.perm.mem_iff.mp hmsg)⟩
    · intro key msg t hlast
      exact ⟨fun ht => hs.again hlast ht, fun ht => hs'.again (hr.latest key ▸ hlast) ht⟩

/-- A booking of `t` that was stamped with `ts`. -/
def booked (t : String) (ts : Nat) : ReplicationMsg :=
  ⟨.book, keyToList (dinnerKey t), newReservation urbanPlates (dinner t "Alice") 5 ts⟩

/-- Two bookings that arrive in either order. The clocks differ in the end. -/
theorem arrivals_commute_two : ∃ s s',
    Applies urbanBackup (.start urbanBackup true) [booked "T1" 5, booked "T2" 1] s ∧
      Applies urbanBackup (.start urbanBackup true) [booked "T2" 1, booked "T1" 5] s' ∧
      SameStores urbanBackup [booked "T1" 5, booked "T2" 1] s s' ∧
      s.logicalClock = 7 ∧ s'.logicalClock = 6 := by
  have hr : Rearranged [booked "T1" 5, booked "T2" 1] [booked "T2" 1, booked "T1" 5] := by
    refine ⟨List.Perm.swap .., fun key => ?_⟩
    have hne : (booked "T1" 5).key ≠ (booked "T2" 1).key := by decide
    by_cases h1 : (booked "T1" 5).key = key
    · have h2 : (booked "T2" 1).key ≠ key := fun h => hne (h1.trans h.symm)
      simp [h1, h2]
    · simp [List.filter_cons, h1]
  have hready : Ready (.start urbanBackup true) := ⟨fun _ => rfl, 0, fun _ _ => rfl⟩
  obtain ⟨hex, hsame⟩ := @arrivals_commute urbanBackup (.start urbanBackup true) _ _ hr
  obtain ⟨⟨s, hs⟩, s', hs'⟩ := hex hready (by decide)
  refine ⟨s, s', hs, hs', hsame s s' hs hs', ?_, ?_⟩
  · rw [hs.clock_eq]
    rfl
  · rw [hs'.clock_eq]
    rfl

end ReservationSystem
