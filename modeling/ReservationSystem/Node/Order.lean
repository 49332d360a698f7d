import ReservationSystem.Lib.Log
import ReservationSystem.Node.Slots

/-!
# Lamport timestamps order the writes of one node

A handler stamps while it holds the lock of its table. So of two handlers on one table the
one that had the lock first has the smaller time, and so has a write that was answered
before the other one was asked for.
-/

namespace ReservationSystem

def Entry.stamp? : Entry → Option Nat
  | .stamped _ _ _ res => some res.lamportTs
  | _ => none

/-- The times that were given out, in order. -/
def stampsOf (log : List Entry) : List Nat := log.filterMap Entry.stamp?

theorem mem_stampsOf {h : Thread} {k : Key} {old : Option Reservation} {res : Reservation}
    {log : List Entry} (hx : .stamped h k old res ∈ log) : res.lamportTs ∈ stampsOf log :=
  List.mem_filterMap.mpr ⟨_, hx, rfl⟩

/-- A handler that stamps has the lock; one that sends or writes has stamped. -/
def Entry.Backed (log : List Entry) : Entry → Prop
  | .stamped h k _ _ => .acquired h k.table ∈ log
  | .sent h msg => ∃ k old, msg.key = keyToList k ∧ .stamped h k old msg.reservation ∈ log
  | .changed h _ k _ res => ∃ old, .stamped h k old res ∈ log
  | _ => True

theorem Entry.Backed.mono {log log' : List Entry} (hsub : log ⊆ log') {x : Entry}
    (hx : x.Backed log) : x.Backed log' := by
  cases x with
  | stamped => exact hsub hx
  | sent =>
    obtain ⟨k, old, hk, hst⟩ := hx
    exact ⟨k, old, hk, hsub hst⟩
  | changed =>
    obtain ⟨old, hst⟩ := hx
    exact ⟨old, hsub hst⟩
  | _ => trivial

namespace Node

open Machine Log

variable {cfg : Service} {s s' : Node} {h h₁ h₂ : Thread} {hd : Handler} {a : Action}
  {e : Event}

/-! ## The clock gives out rising times -/

theorem stamps_step (hs : Steps cfg s e s') :
    stampsOf s'.log = stampsOf s.log ∨
      stampsOf s'.log = stampsOf s.log ++ [s.logicalClock + 1] ∧
        s'.logicalClock = s.logicalClock + 1 := by
  cases hs with
  | receive | refuse => exact .inl (by simp [stampsOf, Entry.stamp?])
  | act h hd a s' hh ha =>
    cases ha with
    | stamp now old res hp hts =>
      exact .inr ⟨by simp [stampsOf, Entry.stamp?, hts, nextLamport], rfl⟩
    | _ => exact .inl (by simp [stampsOf, Entry.stamp?])
  | promote => exact .inl (by rw [promote_log])

theorem stamps_reach {C : Node → Event → Prop} {backUp : Bool}
    (hr : Reach (step cfg) C (start cfg backUp) s) :
    (stampsOf s.log).Pairwise (· < ·) ∧ ∀ t ∈ stampsOf s.log, t ≤ s.logicalClock := by
  refine hr.invariant (P := fun s => (stampsOf s.log).Pairwise (· < ·) ∧
    ∀ t ∈ stampsOf s.log, t ≤ s.logicalClock) ?_ fun s e s' _ hi _ hs => ?_
  · exact ⟨List.Pairwise.nil, by simp [stampsOf, start]⟩
  · obtain ⟨hsorted, hle⟩ := hi
    have hclock := (step_spec hs).logicalClock_le
    rcases stamps_step (step_spec hs) with hlog | ⟨hlog, hc⟩
    · rw [hlog]
      exact ⟨hsorted, fun t ht => (hle t ht).trans hclock⟩
    · rw [hlog, hc, List.pairwise_append]
      refine ⟨⟨hsorted, List.pairwise_singleton .., fun t ht u hu => ?_⟩, fun t ht => ?_⟩
      · rw [List.mem_singleton.mp hu]
        exact Nat.lt_succ_of_le (hle t ht)
      · rcases List.mem_append.mp ht with ht | ht
        · exact (hle t ht).trans (Nat.le_succ _)
        · exact (List.mem_singleton.mp ht).le

/-! ## One handler after another -/

/-- `h₁` was done with its table before `h₂` had it, or answered before `h₂` was asked. -/
def Served (log : List Entry) (h₁ h₂ : Thread) : Prop :=
  (∃ t, Before log (.acquired h₁ t) (.acquired h₂ t)) ∨
    ∃ resp req, Before log (.answered h₁ resp) (.received h₂ req)

def IsDone (s : Node) (h : Thread) : Prop :=
  ∃ hd resp, s.handlers h = some hd ∧ hd.phase = .done resp

theorem Acts.not_done (ha : Acts cfg s h hd a s') {resp : Response} : hd.phase ≠ .done resp := by
  cases ha <;> simp [*]

theorem IsDone.step (hd : IsDone s h) (hs : Steps cfg s e s') : IsDone s' h := by
  obtain ⟨hd, resp, hh, hp⟩ := hd
  rcases hs.handler_next hh with hh' | ⟨a, p, -, ha, -⟩
  · exact ⟨hd, resp, hh', hp⟩
  · exact absurd hp ha.not_done

theorem History.isDone (hi : History cfg s) {resp : Response} (hx : .answered h resp ∈ s.log) :
    IsDone s h := by
  obtain ⟨hd, hh, hp⟩ := hi.fits _ hx
  exact ⟨hd, resp, hh, hp⟩

theorem History.not_stamped (hi : History cfg s) (hh : s.handlers h = none) (k : Key)
    (old : Option Reservation) (res : Reservation) : .stamped h k old res ∉ s.log := by
  intro hx
  obtain ⟨hd, hh', -⟩ := hi.fits _ hx
  rw [show (Entry.stamped h k old res).thread = h from rfl, hh] at hh'
  simp at hh'

/-- Whoever had a lock that is free has left. -/
theorem Wf.isDone_of_free (hw : Wf cfg s) (hi : History cfg s) {t : String}
    (hx : .acquired h t ∈ s.log) (hfree : s.tableLocks t = none) : IsDone s h := by
  obtain ⟨hd, hh, ht, hne⟩ := hi.fits _ hx
  cases hp : hd.phase with
  | done resp => exact ⟨hd, resp, hh, hp⟩
  | received => exact absurd hp hne
  | _ =>
    have := hw.holds _ _ hh (by simp [hp])
    rw [ht, hfree] at this
    simp at this

/-- When the log comes to say that `h₁` was served before `h₂`, `h₁` is done and `h₂` has not
stamped. -/
theorem served_step (hw : Wf cfg s) (hi : History cfg s) (hs : Steps cfg s e s')
    (hserved : Served s'.log h₁ h₂) :
    Served s.log h₁ h₂ ∨
      IsDone s h₁ ∧ ∀ k old res, .stamped h₂ k old res ∉ s'.log := by
  cases hs with
  | receive h req hnew | refuse h req _ hnew =>
    simp only [Served, moveTo_log, before_append] at hserved
    rcases hserved with ⟨t, hb | hb | hb⟩ | ⟨resp, req', hb | hb | hb⟩
    · exact .inl (.inl ⟨t, hb⟩)
    · simp at hb
    · simp [before_cons, not_before_nil] at hb
    · exact .inl (.inr ⟨resp, req', hb⟩)
    · obtain ⟨hx, hy⟩ := hb
      obtain ⟨rfl, rfl⟩ : h₂ = h ∧ req' = req := by simpa using hy
      exact .inr ⟨hi.isDone hx, fun k old res => by simpa using hi.not_stamped hnew k old res⟩
    · simp [before_cons, not_before_nil] at hb
  | promote => exact .inl (by rwa [promote_log] at hserved)
  | act h hd a s' hh ha =>
    cases ha with
    | acquire hp hfree =>
      simp only [Served, moveTo_log, before_append] at hserved
      rcases hserved with ⟨t, hb | hb | hb⟩ | ⟨resp, req', hb | hb | hb⟩
      · exact .inl (.inl ⟨t, hb⟩)
      · obtain ⟨hx, hy⟩ := hb
        obtain ⟨rfl, rfl⟩ : h₂ = h ∧ t = hd.request.table := by simpa using hy
        refine .inr ⟨hw.isDone_of_free hi hx hfree, fun k old res hst => ?_⟩
        have hst : .stamped h₂ k old res ∈ s.log := by simpa using hst
        obtain ⟨hd₂, hh₂, -, hfit⟩ := hi.fits _ hst
        obtain rfl := Option.some.inj (hh.symm.trans hh₂)
        simp [hp] at hfit
      · simp [before_cons, not_before_nil] at hb
      · exact .inl (.inr ⟨resp, req', hb⟩)
      · simp at hb
      · simp [before_cons, not_before_nil] at hb
    | _ => exact .inl (by simpa [Served, before_append, before_cons, not_before_nil] using hserved)

/-- Of two handlers that were served one after the other, the first is done and has the
smaller time. -/
theorem served_reach {C : Node → Event → Prop} {backUp : Bool}
    (hr : Reach (step cfg) C (start cfg backUp) s) (hserved : Served s.log h₁ h₂) :
    IsDone s h₁ ∧ ∀ k₁ old₁ res₁ k₂ old₂ res₂, .stamped h₁ k₁ old₁ res₁ ∈ s.log →
      .stamped h₂ k₂ old₂ res₂ ∈ s.log → res₁.lamportTs < res₂.lamportTs := by
  refine hr.invariant (P := fun s => Served s.log h₁ h₂ → IsDone s h₁ ∧
    ∀ k₁ old₁ res₁ k₂ old₂ res₂, .stamped h₁ k₁ old₁ res₁ ∈ s.log →
      .stamped h₂ k₂ old₂ res₂ ∈ s.log → res₁.lamportTs < res₂.lamportTs)
    ?_ (fun s e s' hr ih _ hs hserved => ?_) hserved
  · simp [Served, start, not_before_nil]
  · have hw := wf_reach (wf_start cfg backUp) hr
    have hi := history_reach (history_start cfg backUp) hr
    have hle := (stamps_reach hr).2
    rcases served_step hw hi (step_spec hs) hserved with hold | ⟨hdone, hno⟩
    · obtain ⟨hdone, hlt⟩ := ih hold
      refine ⟨hdone.step (step_spec hs), fun k₁ old₁ res₁ k₂ old₂ res₂ hx₁ hx₂ => ?_⟩
      have hnew {h} {k old res} (hx : .stamped h k old res ∈ s'.log) :
          .stamped h k old res ∈ s.log ∨
            ¬ IsDone s h ∧ res.lamportTs = s.logicalClock + 1 := by
        cases step_spec hs with
        | act h' hd a s' hh ha =>
          cases ha with
          | stamp now old' res' hp hts =>
            rw [stamp_log, List.mem_append, List.mem_singleton] at hx
            rcases hx with hx | hx
            · exact .inl hx
            · obtain ⟨rfl, -, -, rfl⟩ := Entry.stamped.inj hx
              refine .inr ⟨?_, hts⟩
              rintro ⟨hd', resp, hh', hp'⟩
              obtain rfl := Option.some.inj (hh.symm.trans hh')
              simp [hp] at hp'
          | _ => exact .inl (by simpa using hx)
        | promote => exact .inl (by rwa [promote_log] at hx)
        | _ => exact .inl (by simpa using hx)
      rcases hnew hx₁ with hx₁ | ⟨hnd, -⟩
      · rcases hnew hx₂ with hx₂ | ⟨-, hts⟩
        · exact hlt _ _ _ _ _ _ hx₁ hx₂
        · have := hle _ (mem_stampsOf hx₁)
          omega
      · exact absurd hdone hnd
    · exact ⟨hdone.step (step_spec hs),
        fun _ _ _ k₂ old₂ res₂ _ hx₂ => absurd hx₂ (hno k₂ old₂ res₂)⟩

/-! ## The order of writes and of messages on one table -/

theorem backed_step (hi : History cfg s) (hs : Steps cfg s e s')
    (hclient : ∀ h hd, s.handlers h = some hd → hd.request.IsClient)
    (hb : ∀ x ∈ s.log, x.Backed s.log) : ∀ x ∈ s'.log, x.Backed s'.log := by
  have hgrow {es : List Entry} (hes : ∀ x ∈ es, x.Backed s.log) :
      ∀ x ∈ s.log ++ es, x.Backed (s.log ++ es) := by
    intro x hx
    refine Entry.Backed.mono (List.subset_append_left _ _) ?_
    rcases List.mem_append.mp hx with hx | hx
    · exact hb x hx
    · exact hes x hx
  cases hs with
  | receive | refuse => exact hgrow (by simp [Entry.Backed])
  | promote => rwa [promote_log]
  | act h hd a s' hh ha =>
    have hp := hi.past h hd hh
    have hone {x : Entry} (hx : x.Backed s.log) : ∀ y ∈ s.log ++ [x], y.Backed (s.log ++ [x]) :=
      hgrow fun y hy => by rwa [List.mem_singleton.mp hy]
    cases ha with
    | stamp now old res hphase =>
      refine hone ?_
      rw [Entry.Backed, key_table]
      exact hp.acquired (by simp [hphase])
    | send old res hphase =>
      exact hone ⟨_, old, rfl, hp.stamped old res (by simp [hphase]) (by simp [hphase])⟩
    | store old res resp hc hphase =>
      exact hone ⟨old, hp.stamped old res (by simp [hphase]) (by simp [hphase])⟩
    | apply msg resp hreq =>
      have hc := hclient h hd hh
      simp [hreq, Request.IsClient] at hc
    | _ => exact hgrow (by simp [Entry.Backed])

section
variable {backUp : Bool} (hr : Reach (step cfg) (fun _ e => NoReplication e) (start cfg backUp) s)
include hr

theorem backed_reach : ∀ x ∈ s.log, x.Backed s.log := by
  refine hr.invariant (P := fun s => ∀ x ∈ s.log, x.Backed s.log) ?_ fun s e s' hr hb _ hs => ?_
  · simp [start]
  · exact backed_step (history_reach (history_start cfg backUp) hr) (step_spec hs)
      (clients_reach hr) hb

theorem stamped_once {k₁ k₂ : Key} {old₁ old₂ : Option Reservation} {res₁ res₂ : Reservation}
    (hx₁ : .stamped h k₁ old₁ res₁ ∈ s.log) (hx₂ : .stamped h k₂ old₂ res₂ ∈ s.log) :
    res₁ = res₂ := by
  refine hr.invariant (P := fun s => ∀ k₁ old₁ res₁ k₂ old₂ res₂, .stamped h k₁ old₁ res₁ ∈ s.log →
    .stamped h k₂ old₂ res₂ ∈ s.log → res₁ = res₂) ?_ (fun s e s' hr ih _ hs => ?_)
    k₁ old₁ res₁ k₂ old₂ res₂ hx₁ hx₂
  · simp [start]
  · cases step_spec hs with
    | act h' hd a s' hh ha =>
      cases ha with
      | stamp now old res hp =>
        -- The handler that stamps has not done so before.
        have hno {k old res} (hx : .stamped h' k old res ∈ s.log) : False := by
          obtain ⟨hd', hh', -, hfit⟩ := (history_reach (history_start cfg backUp) hr).fits _ hx
          obtain rfl := Option.some.inj (hh.symm.trans hh')
          simp [hp] at hfit
        intro k₁ old₁ res₁ k₂ old₂ res₂ hx₁ hx₂
        rw [stamp_log, List.mem_append, List.mem_singleton] at hx₁ hx₂
        rcases hx₁ with hx₁ | hx₁ <;> rcases hx₂ with hx₂ | hx₂
        · exact ih _ _ _ _ _ _ hx₁ hx₂
        · obtain ⟨rfl, -⟩ := Entry.stamped.inj hx₂
          exact (hno hx₁).elim
        · obtain ⟨rfl, -⟩ := Entry.stamped.inj hx₁
          exact (hno hx₂).elim
        · obtain ⟨-, -, -, rfl⟩ := Entry.stamped.inj hx₁
          obtain ⟨-, -, -, rfl⟩ := Entry.stamped.inj hx₂
          rfl
      | _ => simpa using ih
    | promote => rwa [promote_log]
    | _ => simpa using ih

theorem changed_of_sent {op : Op} {k : Key} {old : Option Reservation} {res : Reservation}
    {msg : ReplicationMsg} (hx : .sent h msg ∈ s.log) (hy : .changed h op k old res ∈ s.log) :
    msg = ⟨op, keyToList k, res⟩ := by
  have hi := history_reach (history_start cfg backUp) hr
  obtain ⟨hd, hh, hop, hkey, -⟩ := hi.fits _ hx
  obtain ⟨hd', hh', hop', hkey', -⟩ := hi.fits _ hy
  obtain rfl := Option.some.inj (hh.symm.trans hh')
  obtain ⟨k', old', -, hst⟩ := backed_reach hr _ hx
  obtain ⟨old'', hst'⟩ := backed_reach hr _ hy
  obtain rfl := stamped_once hr hst hst'
  rw [hop', hkey', ← hop, ← hkey]

theorem sent_once {msg₁ msg₂ : ReplicationMsg} (hx₁ : .sent h msg₁ ∈ s.log)
    (hx₂ : .sent h msg₂ ∈ s.log) : msg₁ = msg₂ := by
  have hi := history_reach (history_start cfg backUp) hr
  obtain ⟨hd, hh, hop₁, hkey₁, -⟩ := hi.fits _ hx₁
  obtain ⟨hd', hh', hop₂, hkey₂, -⟩ := hi.fits _ hx₂
  obtain rfl := Option.some.inj (hh.symm.trans hh')
  obtain ⟨k₁, old₁, -, hst₁⟩ := backed_reach hr _ hx₁
  obtain ⟨k₂, old₂, -, hst₂⟩ := backed_reach hr _ hx₂
  have hres := stamped_once hr hst₁ hst₂
  obtain ⟨op₁, key₁, res₁⟩ := msg₁
  obtain ⟨op₂, key₂, res₂⟩ := msg₂
  simp_all

/-- While `h₂` holds the lock of its table, whatever was stamped on that table before has a
smaller time than its own. -/
theorem stamped_lt {hd₂ : Handler} {k₁ : Key} {old₁ old₂ : Option Reservation}
    {res₁ res₂ : Reservation} (hh₂ : s.handlers h₂ = some hd₂)
    (hold : hd₂.phase.old? = some old₂) (hres : hd₂.phase.res? = some res₂)
    (hx₁ : .stamped h₁ k₁ old₁ res₁ ∈ s.log) (ht : k₁.table = hd₂.request.table) (hne : h₁ ≠ h₂) :
    res₁.lamportTs < res₂.lamportTs := by
  have hp := (history_reach (history_start cfg backUp) hr).past h₂ hd₂ hh₂
  have hl := Phase.holdsLock_of_old? hold
  have hacq₁ : .acquired h₁ hd₂.request.table ∈ s.log := ht ▸ backed_reach hr _ hx₁
  rcases before_total hacq₁ (hp.acquired hl) (by simpa using hne) with hb | hb
  · exact (served_reach hr (.inl ⟨_, hb⟩)).2 _ _ _ _ _ _ hx₁ (hp.stamped old₂ res₂ hold hres)
  · -- The other order would mean that `h₂` has already left.
    obtain ⟨⟨hd, resp, hh, hdone⟩, -⟩ := served_reach hr (.inl ⟨_, hb⟩)
    obtain rfl := Option.some.inj (hh₂.symm.trans hh)
    rw [hdone] at hl
    exact absurd hl id

theorem changed_lt {op₁ op₂ : Op} {k₁ k₂ : Key} {old₁ old₂ : Option Reservation}
    {res₁ res₂ : Reservation} (ht : k₁.table = k₂.table)
    (hb : Before s.log (.changed h₁ op₁ k₁ old₁ res₁) (.changed h₂ op₂ k₂ old₂ res₂)) :
    res₁.lamportTs < res₂.lamportTs := by
  refine hr.invariant (P := fun s => Before s.log (.changed h₁ op₁ k₁ old₁ res₁)
    (.changed h₂ op₂ k₂ old₂ res₂) → res₁.lamportTs < res₂.lamportTs)
    ?_ (fun s e s' hr ih _ hs hb => ?_) hb
  · simp [start, not_before_nil]
  · cases step_spec hs with
    | act h hd a s' hh ha =>
      cases ha with
      | store old res resp hc hp =>
        rw [store_log, before_append] at hb
        rcases hb with hb | ⟨hx₁, hx₂⟩ | hb
        · exact ih hb
        · obtain ⟨rfl, -, rfl, -, rfl⟩ := Entry.changed.inj (List.mem_singleton.mp hx₂)
          obtain ⟨old, hst⟩ := backed_reach hr _ hx₁
          refine stamped_lt hr hh (by rw [hp]; rfl) (by rw [hp]; rfl) hst (by simpa using ht) ?_
          rintro rfl
          obtain ⟨hd', hh', -, -, resp', hresp, -⟩ :=
            (history_reach (history_start cfg backUp) hr).fits _ hx₁
          obtain rfl := Option.some.inj (hh.symm.trans hh')
          simp [hp] at hresp
        · simp [before_cons, not_before_nil] at hb
      | apply msg resp hreq =>
        have hc := clients_reach hr h hd hh
        simp [hreq, Request.IsClient] at hc
      | _ => exact ih (by simpa [before_append, before_cons, not_before_nil] using hb)
    | promote => exact ih (by rwa [promote_log] at hb)
    | _ => exact ih (by simpa [before_append, before_cons, not_before_nil] using hb)

theorem sent_lt {msg₁ msg₂ : ReplicationMsg} {k₁ k₂ : Key} (hk₁ : msg₁.key = keyToList k₁)
    (hk₂ : msg₂.key = keyToList k₂) (ht : k₁.table = k₂.table)
    (hb : Before s.log (.sent h₁ msg₁) (.sent h₂ msg₂)) :
    msg₁.reservation.lamportTs < msg₂.reservation.lamportTs := by
  refine hr.invariant (P := fun s => Before s.log (.sent h₁ msg₁) (.sent h₂ msg₂) →
    msg₁.reservation.lamportTs < msg₂.reservation.lamportTs)
    ?_ (fun s e s' hr ih _ hs hb => ?_) hb
  · simp [start, not_before_nil]
  · cases step_spec hs with
    | act h hd a s' hh ha =>
      cases ha with
      | send old res hp =>
        rw [moveTo_log, before_append] at hb
        rcases hb with hb | ⟨hx₁, hx₂⟩ | hb
        · exact ih hb
        · obtain ⟨rfl, rfl⟩ := Entry.sent.inj (List.mem_singleton.mp hx₂)
          obtain ⟨k, old', hk, hst⟩ := backed_reach hr _ hx₁
          obtain rfl : k = k₁ := keyToList_inj (hk.symm.trans hk₁)
          obtain rfl : hd.request.key cfg = k₂ := keyToList_inj hk₂
          refine stamped_lt hr hh (by rw [hp]; rfl) (by rw [hp]; rfl) hst (by simpa using ht) ?_
          rintro rfl
          obtain ⟨hd', hh', -, -, hphase⟩ :=
            (history_reach (history_start cfg backUp) hr).fits _ hx₁
          obtain rfl := Option.some.inj (hh.symm.trans hh')
          simp [hp] at hphase
        · simp [before_cons, not_before_nil] at hb
      | _ => exact ih (by simpa [before_append, before_cons, not_before_nil] using hb)
    | promote => exact ih (by rwa [promote_log] at hb)
    | _ => exact ih (by simpa [before_append, before_cons, not_before_nil] using hb)

theorem sent_inj {msg₁ msg₂ : ReplicationMsg} (hx₁ : .sent h₁ msg₁ ∈ s.log)
    (hx₂ : .sent h₂ msg₂ ∈ s.log)
    (hts : msg₁.reservation.lamportTs = msg₂.reservation.lamportTs) : msg₁ = msg₂ := by
  obtain ⟨k₁, old₁, hk₁, hst₁⟩ := backed_reach hr _ hx₁
  obtain ⟨k₂, old₂, hk₂, hst₂⟩ := backed_reach hr _ hx₂
  have hlt {x y : Entry} {t u : Nat} (hb : Before s.log x y) (hx : x.stamp? = some t)
      (hy : y.stamp? = some u) : t < u := by
    have hsub := List.Sublist.filterMap Entry.stamp? hb
    rw [List.filterMap_cons_some hx, List.filterMap_cons_some hy] at hsub
    exact List.rel_of_pairwise_cons ((stamps_reach hr).1.sublist hsub) (by simp)
  have heq : Entry.stamped h₁ k₁ old₁ msg₁.reservation =
      .stamped h₂ k₂ old₂ msg₂.reservation := by
    by_contra hne
    rcases before_total hst₁ hst₂ hne with hb | hb
    · exact (hlt hb rfl rfl).ne hts
    · exact (hlt hb rfl rfl).ne hts.symm
  obtain ⟨rfl, -⟩ := Entry.stamped.inj heq
  exact sent_once hr hx₁ hx₂

end

/-- How the times of one node order its writes. -/
structure LamportOrdered (s : Node) : Prop where
  /-- The times rise in the order in which they are given out, so no two are equal. -/
  stamps : (stampsOf s.log).Pairwise (· < ·)
  /-- On each table they follow the order in which the handlers had the lock. -/
  locks : ∀ t h₁ h₂, Before s.log (.acquired h₁ t) (.acquired h₂ t) →
    ∀ k₁ old₁ res₁ k₂ old₂ res₂, .stamped h₁ k₁ old₁ res₁ ∈ s.log →
      .stamped h₂ k₂ old₂ res₂ ∈ s.log → res₁.lamportTs < res₂.lamportTs
  /-- And so do the writes of a table and its messages. -/
  writes : ∀ h₁ op₁ k₁ old₁ res₁ h₂ op₂ k₂ old₂ res₂,
    Before s.log (.changed h₁ op₁ k₁ old₁ res₁) (.changed h₂ op₂ k₂ old₂ res₂) →
      k₁.table = k₂.table → res₁.lamportTs < res₂.lamportTs
  messages : ∀ h₁ msg₁ k₁ h₂ msg₂ k₂, Before s.log (.sent h₁ msg₁) (.sent h₂ msg₂) →
    msg₁.key = keyToList k₁ → msg₂.key = keyToList k₂ → k₁.table = k₂.table →
      msg₁.reservation.lamportTs < msg₂.reservation.lamportTs
  /-- A write that was answered before another was asked for has the smaller time. -/
  realTime : ∀ h₁ resp h₂ req, Before s.log (.answered h₁ resp) (.received h₂ req) →
    ∀ k₁ old₁ res₁ k₂ old₂ res₂, .stamped h₁ k₁ old₁ res₁ ∈ s.log →
      .stamped h₂ k₂ old₂ res₂ ∈ s.log → res₁.lamportTs < res₂.lamportTs

theorem lamport_ordered {backUp : Bool}
    (hr : Reach (step cfg) (fun _ e => NoReplication e) (start cfg backUp) s) :
    LamportOrdered s where
  stamps := (stamps_reach hr).1
  locks _ _ _ hb := (served_reach hr (.inl ⟨_, hb⟩)).2
  writes _ _ _ _ _ _ _ _ _ _ hb ht := changed_lt hr ht hb
  messages _ _ _ _ _ _ hb hk₁ hk₂ ht := sent_lt hr hk₁ hk₂ ht hb
  realTime _ _ _ _ hb := (served_reach hr (.inr ⟨_, _, hb⟩)).2

/-- A replication fails, and of two tables the one that was stamped later stores first. -/
def outOfOrder : List Event :=
  .receive (.client 0) (.book (dinner "T1" "Alice")) ::
  acts (.client 0) [.acquire, .check, .stamp 0, .send, .returned .failed, .release] ++
  .receive (.client 1) (.book (dinner "T1" "Alice")) ::
  .receive (.client 2) (.book (dinner "T2" "Bob")) ::
  acts (.client 1) [.acquire, .check, .stamp 1, .send] ++
  acts (.client 2) [.acquire, .check, .stamp 2, .send, .returned .acked, .store, .release] ++
  acts (.client 1) [.returned .acked, .store, .release]

theorem lamport_ordered_outOfOrder :
    ∃ s, exec (step urbanPlates) (start urbanPlates false) outOfOrder = some s ∧
      LamportOrdered s ∧ stampsOf s.log = [1, 2, 3] ∧
        s.log.filterMap (fun
          | .changed _ _ _ _ res => some res.lamportTs
          | _ => none) = [3, 2] := by
  have hm : Meets (step urbanPlates) (fun _ e => NoReplication e) (start urbanPlates false)
      outOfOrder :=
    meets_of_forall (by simp [outOfOrder, acts, NoReplication, Request.IsClient])
  exact ⟨_, rfl, lamport_ordered (reach_of_exec hm rfl), rfl, rfl⟩

end Node

end ReservationSystem
