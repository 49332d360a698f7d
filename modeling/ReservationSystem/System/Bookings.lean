import ReservationSystem.Cluster.Copies
import ReservationSystem.System.Invariants

/-!
# When no slot is booked twice

The backup books tables of its own when the gateway comes to it, and the primary does not
hear of them. A cancel that the gateway has given up can still remove a later booking. And
two slots can share a key, since a key runs the texts of date and time together.
-/

namespace ReservationSystem

/-- The slot that a message is about. -/
def Msg.slot (msg : Msg) : Json × Json × Json :=
  (msg.get "table_id", msg.get "date", msg.get "timeslot")

theorem key_of_slot (cfg : Service) {msg msg' : Msg} (h : msg.slot = msg'.slot) :
    (Request.book msg).key cfg = (Request.book msg').key cfg := by
  simp only [Msg.slot, Prod.mk.injEq] at h
  simp only [Request.key, Request.table, h]

/-- Not a booking that a message has brought. -/
def Change.own : Change → Bool
  | ⟨.replica _, .book, _⟩ => false
  | _ => true

/-- The last booking of `k` that the node has made for a client, unless `k` was cancelled
since. -/
def ownBooking (k : Key) (log : List Entry) : Option Nat :=
  match ((changesOf k log).filter Change.own).getLast? with
  | some ⟨.client n, .book, _⟩ => some n
  | _ => none

theorem ownBooking_append (k : Key) {log es : List Entry} {cs : List Change}
    (h : changesOf k es = changesOf k log ++ cs) (hcs : cs.filter Change.own = []) :
    ownBooking k es = ownBooking k log := by
  rw [ownBooking, ownBooking, h, List.filter_append, hcs, List.append_nil]

theorem ownBooking_client (k : Key) {log es : List Entry} {n : Nat} {res : Reservation}
    (h : changesOf k es = changesOf k log ++ [⟨.client n, .book, res⟩]) :
    ownBooking k es = some n := by
  simp [ownBooking, h, Change.own]

/-- A client's handler comes to know its entry only by looking. -/
theorem Node.Acts.found_before {cfg : Service} {s s' : Node} {h : Thread} {hd hd' : Handler}
    {a : Action} (ha : Acts cfg s h hd a s') (hh' : s'.handlers h = some hd')
    (hc : hd.request.IsClient) (hold : hd.phase.old? = none) (hw : ¬ hd.phase.Written) :
    hd'.phase.old? = none ∧ ¬ hd'.phase.Written ∨
      a = .check ∧ hd.request.op.Expects (s.reservations.get? (hd.request.key cfg)) := by
  cases ha <;> obtain rfl := handler_moved s h hh' <;> simp_all [Request.IsClient]

namespace System

open Machine

variable {d : Deployment} {s s' : System} {e : Event} {n : Nat} {k : Key}

/-- Between two confirmed bookings of one slot, somebody asks for a cancel of that slot. The
gateway numbers the requests in the order in which they come. -/
def NoDoubleBooking (s : System) : Prop :=
  ∀ call call' resp resp' msg msg', .answered call resp ∈ s.log → .answered call' resp' ∈ s.log →
    resp.status = .ok → resp'.status = .ok → call.request = .book msg →
      call'.request = .book msg' → msg.slot = msg'.slot → call.number < call'.number →
        ∃ j msg'', .issued j (.cancel msg'') ∈ s.log ∧ msg''.slot = msg.slot ∧
          call.number < j ∧ j < call'.number

/-! ## Bookings that stand -/

/-- A cancel of `k` was issued after request `n`. -/
def cancelledSince (d : Deployment) (s : System) (k : Key) (n : Nat) : Bool :=
  s.log.any fun
    | .issued j (.cancel msg) => n < j ∧ (Request.cancel msg).key d.restaurant = k
    | _ => false

/-- The bookings of `k` that were confirmed or that the gateway works on, and after which no
cancel of `k` was issued. -/
def standing (d : Deployment) (s : System) (k : Key) : List Nat :=
  s.log.filterMap fun
    | .issued n (.book msg) =>
      if (Request.book msg).key d.restaurant = k ∧
          (s.confirmed n ∨ s.call.any (·.number = n)) ∧ ¬ s.cancelledSince d k n then some n
      else none
    | _ => none

/-- The conditions for no slot to be booked twice, at the three places where a slot can
become free for a second booking. -/
def guarded (d : Deployment) (s : System) : Event → Bool
  | .issue (.cancel msg) =>
    -- A cancel is for the slot of the booking that stands under its key.
    s.log.all fun
      | .issued n (.book msg') =>
        n ∈ s.standing d ((Request.cancel msg).key d.restaurant) → msg'.slot = msg.slot
      | _ => true
  | .cluster (.act .primary (.client n) .check) =>
    -- The primary finds the slot free, and the backup has no booking of its own that stands.
    match s.call with
    | some ⟨m, .book msg, .primary⟩ =>
      let k := (Request.book msg).key d.restaurant
      m = n → s.cluster.primary.reservations.get? k = none →
        (ownBooking k s.cluster.backup.log).all fun m => m ∉ s.standing d k
    | _ => true
  | .cluster (.act .backup h .store) =>
    -- The backup carries out a cancel, and no booking that was issued after it stands.
    match s.cluster.backup.handlers h with
    | some hd =>
      hd.request.op = .cancel →
        (s.standing d (hd.request.key d.restaurant)).all fun m => m ≤ h.number
    | none => true
  | _ => true

/-- What `standing` computes. -/
structure Stands (d : Deployment) (s : System) (k : Key) (n : Nat) : Prop where
  book : ∃ msg, .issued n (.book msg) ∈ s.log ∧ (Request.book msg).key d.restaurant = k
  kept : s.confirmed n = true ∨ ∃ call, s.call = some call ∧ call.number = n
  last : ∀ j msg, .issued j (.cancel msg) ∈ s.log → (Request.cancel msg).key d.restaurant = k →
    j ≤ n

theorem cancelledSince_iff : s.cancelledSince d k n = true ↔ ∃ j msg,
    .issued j (.cancel msg) ∈ s.log ∧ n < j ∧ (Request.cancel msg).key d.restaurant = k := by
  simp only [cancelledSince, List.any_eq_true]
  constructor
  · rintro ⟨m, hm, hx⟩
    split at hx
    · exact ⟨_, _, hm, by simpa using hx⟩
    · simp at hx
  · rintro ⟨j, msg, hm, hx⟩
    exact ⟨_, hm, by simpa using hx⟩

theorem mem_standing : n ∈ s.standing d k ↔ s.Stands d k n := by
  have hkept : (s.call.any (·.number = n)) = true ↔
      ∃ call, s.call = some call ∧ call.number = n := by
    cases s.call <;> simp
  have hlast : ¬ s.cancelledSince d k n = true ↔ ∀ j msg, .issued j (.cancel msg) ∈ s.log →
      (Request.cancel msg).key d.restaurant = k → j ≤ n := by
    rw [cancelledSince_iff]
    constructor
    · intro h j msg hj hk
      by_contra hlt
      exact h ⟨j, msg, hj, not_le.mp hlt, hk⟩
    · rintro h ⟨j, msg, hj, hlt, hk⟩
      exact absurd (h j msg hj hk) (not_le.mpr hlt)
  simp only [standing, List.mem_filterMap]
  constructor
  · rintro ⟨m, hm, hx⟩
    split at hx
    · split_ifs at hx with h
      obtain rfl := Option.some.inj hx
      exact ⟨⟨_, hm, h.1⟩, h.2.1.imp_right hkept.mp, hlast.mp h.2.2⟩
    · simp at hx
  · rintro ⟨⟨msg, hm, hk⟩, h, h'⟩
    exact ⟨_, hm, if_pos ⟨hk, h.imp_right hkept.mpr, hlast.mpr h'⟩⟩

theorem stands_before (hs : Steps d s e s') (h : s'.Stands d k n) :
    s.Stands d k n ∨ (∃ req, e = .issue req) ∧ n = s.count := by
  obtain ⟨⟨msg, hbook, hk⟩, hkept, hlast⟩ := h
  cases hs with
  | issue req =>
    by_cases hn : n = s.count
    · exact .inr ⟨⟨req, rfl⟩, hn⟩
    · refine .inl ⟨⟨msg, ?_, hk⟩, ?_, fun j msg hj => hlast j msg (List.mem_append_left _ hj)⟩
      · simpa [issue, hn] using hbook
      · refine hkept.imp (fun h => ?_) fun h => ?_
        · simpa [confirmed, issue] using h
        · obtain ⟨call, hcall, hnum⟩ := h
          obtain rfl := Option.some.inj hcall
          exact absurd hnum.symm hn
  | move e ev c hm hs => exact .inl ⟨⟨msg, hbook, hk⟩, hkept, hlast⟩
  | redirect => exact .inl ⟨⟨msg, hbook, hk⟩, hkept, hlast⟩
  | retry e call resp hcall =>
    refine .inl ⟨⟨msg, by simpa [retry] using hbook, hk⟩, ?_, fun j msg hj =>
      hlast j msg (List.mem_append_left _ hj)⟩
    refine hkept.imp (fun h => by simpa [confirmed, retry] using h) fun h => ?_
    obtain ⟨call', hcall', hnum⟩ := h
    obtain rfl := Option.some.inj hcall'
    exact ⟨call, hcall, hnum⟩
  | answer e call resp hcall =>
    refine .inl ⟨⟨msg, by simpa [answer] using hbook, hk⟩, ?_, fun j msg hj =>
      hlast j msg (List.mem_append_left _ hj)⟩
    rcases hkept with h | ⟨call', hcall', -⟩
    · obtain ⟨call', resp', hans, hnum, hok⟩ := confirmed_iff.mp h
      rw [answer, List.mem_append, List.mem_singleton] at hans
      rcases hans with hans | hans
      · exact .inl (confirmed_iff.mpr ⟨call', resp', hans, hnum, hok⟩)
      · obtain ⟨rfl, -⟩ := Mark.answered.inj hans
        exact .inr ⟨call', hcall, hnum⟩
    · simp [answer] at hcall'

/-! ## The invariant -/

structure Guarding (d : Deployment) (s : System) : Prop where
  own : ∀ k n, s.Stands d k n → s.cluster.backup.wrote (.client n) = true →
    ownBooking k s.cluster.backup.log = some n
  backup : ∀ k n, s.Stands d k n →
    s.cluster.backup.wrote (.client n) = true ∨ s.cluster.backup.wrote (.replica n) = true →
      s.cluster.backup.reservations.get? k ≠ none
  primary : ∀ k n, s.Stands d k n → s.cluster.primary.wrote (.client n) = true →
    s.cluster.primary.reservations.get? k ≠ none
  /-- While the primary is about to carry out a cancel, no later booking has been made there. -/
  late : ∀ j n hd, s.cluster.primary.handlers (.client j) = some hd → hd.request.op = .cancel →
    hd.phase.Sending → s.cluster.backup.wrote (.replica j) = true →
      s.Stands d (hd.request.key d.restaurant) n → j < n →
        s.cluster.primary.wrote (.client n) = false
  /-- A booking that the gateway works on has found no free slot while another one stands. -/
  alone : ∀ call msg n, s.call = some call → call.request = .book msg →
    s.Stands d ((Request.book msg).key d.restaurant) n → n ≠ call.number →
      s.cluster.backup.wrote (.client call.number) = false ∧
        (call.side = .primary → ∀ hd, s.cluster.primary.handlers (.client call.number) = some hd →
          hd.phase.old? = none ∧ ¬ hd.phase.Written)

theorem guarding_start (d : Deployment) : Guarding d (start d) where
  own k n h := by
    obtain ⟨⟨msg, hmsg, -⟩, -⟩ := h
    simp [start] at hmsg
  backup k n h := by
    obtain ⟨⟨msg, hmsg, -⟩, -⟩ := h
    simp [start] at hmsg
  primary k n h := by
    obtain ⟨⟨msg, hmsg, -⟩, -⟩ := h
    simp [start] at hmsg
  late j n hd hh := by simp [start, Cluster.start, Node.start] at hh
  alone call msg n hcall := by simp [start] at hcall

section
variable {C : System → Event → Prop} (hr : Reach (step d) C (start d) s)
include hr

theorem standing_key (side : Side) {h : Thread} {hd : Handler}
    (hh : (s.cluster.node side).handlers h = some hd) (hst : s.Stands d k h.number) :
    hd.request.op = .book ∧ hd.request.key d.restaurant = k := by
  obtain ⟨msg, hbook, rfl⟩ := hst.book
  obtain ⟨req, hissued, -, hop, hkey⟩ := origin hr side hh
  obtain rfl := (wf_reach hr).once _ _ _ hbook hissued
  exact ⟨hop.symm, hkey.symm⟩

theorem cancel_lt (side : Side) {h : Thread} {hd : Handler}
    (hh : (s.cluster.node side).handlers h = some hd) (hop : hd.request.op = .cancel)
    (hst : s.Stands d (hd.request.key d.restaurant) n) : h.number < n := by
  obtain ⟨req, hissued, hc, hop', hkey⟩ := origin hr side hh
  cases req with
  | book msg => exact absurd (hop'.trans hop) (by simp [Request.op])
  | applyReplication msg => exact hc.elim
  | cancel msg =>
    refine lt_of_le_of_ne (hst.last _ msg hissued hkey) ?_
    rintro rfl
    have := (standing_key hr side hh hst).1
    simp [hop] at this

theorem guarded_cancel {h : Thread} {hd : Handler}
    (he : guarded d s (.cluster (.act .backup h .store)) = true)
    (hh : s.cluster.backup.handlers h = some hd) (hop : hd.request.op = .cancel) :
    ¬ s.Stands d (hd.request.key d.restaurant) n := by
  intro hst
  have hlt := cancel_lt hr .backup hh hop hst
  simp only [guarded, hh, hop, decide_eq_true_eq, forall_const, List.all_eq_true] at he
  exact absurd (he n (mem_standing.mpr hst)) (not_le.mpr hlt)

/-- A booking of the backup finds no other one that is stored there. -/
theorem backup_books (hg : Guarding d s) {m : Nat} {hd : Handler} {res : Reservation}
    (hh : s.cluster.backup.handlers (.client m) = some hd) (hwr : hd.Writes res)
    (hop : hd.request.op = .book) (hst : s.Stands d (hd.request.key d.restaurant) n) :
    s.cluster.backup.wrote (.client n) = false := by
  refine eq_false_of_ne_true fun hw => ?_
  obtain ⟨old, hp⟩ := hwr.of_client (((node_keeping hr .backup).addressed _ hd hh).mpr ⟨m, rfl⟩)
  have hexp := (node_keeping hr .backup).wf.found hh (by rw [hp]; rfl)
  rw [hop, key_service] at hexp
  exact hg.backup _ n hst (.inl hw) hexp

/-- A write of the backup to the slot of a booking that stands is a booking. -/
theorem backup_slot (hg : Guarding d s) {h : Thread} {hd : Handler} {res : Reservation}
    {node : Node} (hn : s.cluster.backup.step d.backup (.act h .store) = some node)
    (he : guarded d s (.cluster (.act .backup h .store)) = true)
    (hh : s.cluster.backup.handlers h = some hd) (hwr : hd.Writes res)
    (hstore : node.reservations =
      hd.request.op.write s.cluster.backup.reservations (hd.request.key d.restaurant) res)
    (hch : changesOf (hd.request.key d.restaurant) node.log =
      changesOf (hd.request.key d.restaurant) s.cluster.backup.log ++ [⟨h, hd.request.op, res⟩])
    (hst : s.Stands d (hd.request.key d.restaurant) n) :
    (node.wrote (.client n) = true →
        ownBooking (hd.request.key d.restaurant) node.log = some n) ∧
      node.reservations.get? (hd.request.key d.restaurant) ≠ none := by
  cases hop : hd.request.op with
  | cancel => exact (guarded_cancel hr he hh hop hst).elim
  | book =>
    rw [hop] at hch
    rw [hstore, get?_write, if_pos rfl, hop]
    refine ⟨fun hw => ?_, by simp [Op.effect]⟩
    have hold := Node.wrote_before (Node.step_spec hn) hw
    cases h with
    | replica m =>
      rw [ownBooking_append _ hch rfl]
      exact hg.own _ n hst (hold.resolve_right (by simp))
    | client m =>
      rw [ownBooking_client _ hch]
      rcases hold with hw | heq
      · exact absurd ((backup_books hr hg hh hwr hop hst).symm.trans hw) (by simp)
      · obtain ⟨hmn, -⟩ := Node.Event.act.inj heq
        rw [Thread.client.inj hmn]

theorem backup_move (hg : Guarding d s) {ev : Cluster.Event} {c : Cluster} (hm : Moves s e ev)
    (hs : Cluster.Steps d s.cluster ev c) (he : guarded d s e = true) (hst : s.Stands d k n) :
    (c.backup.wrote (.client n) = true → ownBooking k c.backup.log = some n) ∧
      (c.backup.wrote (.client n) = true ∨ c.backup.wrote (.replica n) = true →
        c.backup.reservations.get? k ≠ none) := by
  have hown := hg.own k n hst
  have hback := hg.backup k n hst
  rcases hs.onNode .backup with heq | ⟨nev, -, hn, hact, -⟩
  · replace heq : c.backup = s.cluster.backup := heq
    rw [heq]
    exact ⟨hown, hback⟩
  replace hn : s.cluster.backup.step d.backup nev = some c.backup := hn
  have hold {h : Thread} (hwr : c.backup.wrote h = true) :
      s.cluster.backup.wrote h = true ∨ nev = .act h .store :=
    Node.wrote_before (Node.step_spec hn) hwr
  rcases (Node.step_spec hn).write k with
    ⟨hne, hstore, hch⟩ | ⟨h, hd, res, hh, rfl, hwr, hstore, hch⟩
  · -- Nothing is written.
    have hsame : ownBooking k c.backup.log = ownBooking k s.cluster.backup.log :=
      ownBooking_append k (hch.trans (List.append_nil _).symm) rfl
    rw [hstore, hsame]
    exact ⟨fun hw => hown ((hold hw).resolve_right (hne _)),
      fun hw => hback (hw.imp (fun hw => (hold hw).resolve_right (hne _))
        fun hw => (hold hw).resolve_right (hne _))⟩
  obtain rfl := hact _ _ rfl
  cases hm with
  | cluster =>
    have hkey : hd.request.key d.backup = hd.request.key d.restaurant := key_service d .backup _
    rw [hkey] at hstore hch
    by_cases hk : hd.request.key d.restaurant = k
    · subst hk
      rw [if_pos rfl] at hch
      obtain ⟨hbook, hslot⟩ := backup_slot hr hg hn he hh hwr hstore hch hst
      exact ⟨hbook, fun _ => hslot⟩
    · rw [if_neg hk] at hch
      rw [hstore, get?_write, if_neg (Ne.symm hk), ownBooking_append k hch rfl]
      -- A handler of the booking works on its key.
      have hother {h' : Thread} (hn : h'.number = n) (hw : c.backup.wrote h' = true) :
          s.cluster.backup.wrote h' = true := by
        refine (hold hw).resolve_right fun heq => hk ?_
        obtain ⟨rfl, -⟩ := Node.Event.act.inj heq
        exact (standing_key hr .backup hh (hn ▸ hst)).2
      exact ⟨fun hw => hown (hother rfl hw), fun hw => hback (hw.imp (hother rfl) (hother rfl))⟩

theorem primary_move (hg : Guarding d s) {ev : Cluster.Event} {c : Cluster}
    (hs : Cluster.Steps d s.cluster ev c) (hst : s.Stands d k n)
    (hw : c.primary.wrote (.client n) = true) : c.primary.reservations.get? k ≠ none := by
  have hprim := hg.primary k n hst
  rcases hs.onNode .primary with heq | ⟨nev, -, hn, -, -⟩
  · replace heq : c.primary = s.cluster.primary := heq
    rw [heq] at hw ⊢
    exact hprim hw
  replace hn : s.cluster.primary.step d.primary nev = some c.primary := hn
  have hold := Node.wrote_before (Node.step_spec hn) hw
  rcases (Node.step_spec hn).write k with
    ⟨hne, hstore, -⟩ | ⟨h, hd, res, hh, rfl, hwr, hstore, -⟩
  · rw [hstore]
    exact hprim (hold.resolve_right (hne _))
  have hkey : hd.request.key d.primary = hd.request.key d.restaurant := key_service d .primary _
  rw [hkey] at hstore
  by_cases hk : hd.request.key d.restaurant = k
  · subst hk
    rw [hstore, get?_write, if_pos rfl]
    cases hop : hd.request.op with
    | book => simp [Op.effect]
    | cancel =>
      -- The cancel is older than the booking, which cannot have been made here in between.
      have hlt := cancel_lt hr .primary hh hop hst
      obtain ⟨m, old, rfl, hp⟩ :=
        Node.writer_reach (Cluster.primary_reach (cluster_reach hr)) hh hwr
      have happ := Node.wrote_iff.mpr ((linked_reach hr).acked m hd hh (by simp [hp]))
      have hno := hg.late m n hd hh hop (by simp [hp]) happ hst hlt
      have hwrote := hold.resolve_right fun heq => by
        obtain ⟨hmn, -⟩ := Node.Event.act.inj heq
        obtain rfl := Thread.client.inj hmn
        exact lt_irrefl _ hlt
      simp [hno] at hwrote
  · rw [hstore, get?_write, if_neg (Ne.symm hk)]
    refine hprim (hold.resolve_right fun heq => hk ?_)
    obtain ⟨rfl, -⟩ := Node.Event.act.inj heq
    exact (standing_key hr .primary hh hst).2

/-- While a handler has the lock of a slot, no other one writes a booking there. -/
theorem locked_out {j : Nat} {hd : Handler} {node : Node}
    (hn : s.cluster.primary.step d.primary (.act (.client n) .store) = some node)
    (hh : s.cluster.primary.handlers (.client j) = some hd) (hl : hd.phase.HoldsLock)
    (hst : s.Stands d (hd.request.key d.restaurant) n) : j = n := by
  rcases (Node.step_spec hn).write (hd.request.key d.restaurant) with
    ⟨hne, -⟩ | ⟨h', hd', res, hh', heq, hwr, -⟩
  · exact absurd rfl (hne _)
  · obtain ⟨rfl, -⟩ := Node.Event.act.inj heq
    obtain ⟨-, old, -, hp⟩ := Node.writer_reach (Cluster.primary_reach (cluster_reach hr)) hh' hwr
    have hkey := (standing_key hr .primary hh' hst).2
    exact ((node_keeping hr .primary).wf.sender_eq hh hh' hl (by simp [hp])
      (by rw [key_service, key_service, hkey])).1

theorem late_move (hg : Guarding d s) {ev : Cluster.Event} {c : Cluster} (hm : Moves s e ev)
    (hs : Cluster.Steps d s.cluster ev c) (he : guarded d s e = true) {j : Nat} {hd' : Handler}
    (hh' : c.primary.handlers (.client j) = some hd') (hop : hd'.request.op = .cancel)
    (hp : hd'.phase.Sending) (happ : c.backup.wrote (.replica j) = true)
    (hst : s.Stands d (hd'.request.key d.restaurant) n) (hlt : j < n) :
    c.primary.wrote (.client n) = false := by
  rcases hs.sides with hP | hB
  · -- The backup does not apply the cancel now: the booking stands.
    rw [hP] at hh' ⊢
    rcases wrote_before hm hs .backup happ with happ | rfl
    · exact hg.late j n hd' hh' hop hp happ hst hlt
    · cases hm with
      | cluster =>
        rcases hs.backup_write with ⟨hne, -⟩ | ⟨h, hdb, res, heq, hhb, -⟩
        · exact absurd rfl (hne _)
        · obtain ⟨-, rfl, -⟩ := Cluster.Event.act.inj heq
          obtain ⟨req, hissued, -, hopb, hkeyb⟩ := origin hr .backup hhb
          obtain ⟨req', hissued', -, hop', hkey'⟩ := origin hr .primary hh'
          obtain rfl := (wf_reach hr).once _ _ _ hissued hissued'
          rw [← hkey', hkeyb] at hst
          exact (guarded_cancel hr he hhb (hopb.symm.trans (hop'.trans hop)) hst).elim
  · replace happ : s.cluster.backup.wrote (.replica j) = true := by rwa [hB] at happ
    refine eq_false_of_ne_true fun hw => ?_
    rcases hs.onNode .primary with heq | ⟨nev, -, hn, -, -⟩
    · replace heq : c.primary = s.cluster.primary := heq
      rw [heq] at hh' hw
      simp [hg.late j n hd' hh' hop hp happ hst hlt] at hw
    · replace hn : s.cluster.primary.step d.primary nev = some c.primary := hn
      obtain ⟨hd, hh, hreq, -, hback⟩ :=
        Cluster.sending_before (cluster_reach hr) hn hh' (.inl hp) (Node.wrote_iff.mp happ)
      rw [← hreq] at hop hst
      have hno := hg.late j n hd hh hop (hback hp) happ hst hlt
      rcases Node.wrote_before (Node.step_spec hn) hw with hw | rfl
      · simp [hno] at hw
      · exact absurd (locked_out hr hn hh (hback hp).sent.holdsLock hst) hlt.ne

theorem wrote_of_confirmed (hconf : s.confirmed n = true) :
    s.cluster.primary.wrote (.client n) = true ∨ s.cluster.backup.wrote (.client n) = true := by
  obtain ⟨⟨m, req, side⟩, resp, hans, rfl, hok⟩ := confirmed_iff.mp hconf
  have hh := (wf_reach hr).served _ _ hans hok
  cases side with
  | primary => exact .inl (Node.wrote_iff.mpr ⟨_, hh, hok⟩)
  | backup => exact .inr (Node.wrote_iff.mpr ⟨_, hh, hok⟩)

theorem found_on_backup (hg : Guarding d s) (hst : s.Stands d k n) (hconf : s.confirmed n = true) :
    s.cluster.backup.reservations.get? k ≠ none := by
  refine hg.backup k n hst ?_
  rcases wrote_of_confirmed hr hconf with hw | hw
  · obtain ⟨hd, hh, hp⟩ := Node.wrote_iff.mp hw
    exact .inr (Node.wrote_iff.mpr ((linked_reach hr).acked n hd hh hp.acked))
  · exact .inl hw

/-- The primary does not find the slot free, unless the backup has a booking of its own. -/
theorem guarded_check (hg : Guarding d s) {call : Call} {msg : Msg} (hcall : s.call = some call)
    (hreq : call.request = .book msg) (hside : call.side = .primary)
    (he : guarded d s (.cluster (.act .primary (.client call.number) .check)) = true)
    (hst : s.Stands d ((Request.book msg).key d.restaurant) n) (hconf : s.confirmed n = true) :
    s.cluster.primary.reservations.get? ((Request.book msg).key d.restaurant) ≠ none := by
  intro hfree
  rcases wrote_of_confirmed hr hconf with hw | hw
  · exact hg.primary _ n hst hw hfree
  · obtain ⟨m, req, side⟩ := call
    obtain rfl : side = .primary := hside
    obtain rfl : req = .book msg := hreq
    simp only [guarded, hcall, hfree, hg.own _ n hst hw, Option.all_some, decide_eq_true_eq,
      forall_const] at he
    exact he (mem_standing.mpr hst)

theorem alone_move (hg : Guarding d s) {ev : Cluster.Event} {c : Cluster} (hm : Moves s e ev)
    (hs : Cluster.Steps d s.cluster ev c) (he : guarded d s e = true) {call : Call} {msg : Msg}
    (hcall : s.call = some call) (hreq : call.request = .book msg)
    (hst : s.Stands d ((Request.book msg).key d.restaurant) n) (hne : n ≠ call.number) :
    c.backup.wrote (.client call.number) = false ∧
      (call.side = .primary → ∀ hd, c.primary.handlers (.client call.number) = some hd →
        hd.phase.old? = none ∧ ¬ hd.phase.Written) := by
  obtain ⟨hback, hprim⟩ := hg.alone call msg n hcall hreq hst hne
  have hconf : s.confirmed n = true := by
    refine hst.kept.resolve_right ?_
    rintro ⟨call', hcall', hn⟩
    obtain rfl := Option.some.inj (hcall.symm.trans hcall')
    exact hne hn.symm
  constructor
  · refine eq_false_of_ne_true fun hw => ?_
    rcases wrote_before hm hs .backup hw with hw | rfl
    · replace hw : s.cluster.backup.wrote (.client call.number) = true := hw
      simp [hback] at hw
    · cases hm with
      | cluster =>
        rcases hs.backup_write with ⟨hno, -⟩ | ⟨h, hd, res, heq, hh, hwr, -⟩
        · exact hno _ rfl
        · obtain ⟨-, rfl, -⟩ := Cluster.Event.act.inj heq
          have hk := node_keeping hr .backup
          obtain ⟨old, hp⟩ := hwr.of_client ((hk.addressed _ hd hh).mpr ⟨_, rfl⟩)
          have hexp := hk.wf.found hh (by rw [hp]; rfl)
          rw [call_handler hr .backup hcall hh, hreq, key_service] at hexp
          exact found_on_backup hr hg hst hconf hexp
  · intro hside hd' hh'
    specialize hprim hside
    rcases hs.onNode .primary with heq | ⟨nev, -, hn, hact, -⟩
    · replace heq : c.primary = s.cluster.primary := heq
      exact hprim hd' (heq ▸ hh')
    · rcases (Node.step_spec hn).handler hh' with hh | ⟨-, -, hnew⟩ | ⟨hd, a, p, rfl, hh, ha, rfl⟩
      · exact hprim hd' hh
      · rcases hnew with ⟨-, hphase⟩ | ⟨resp, hphase, herr⟩ <;> simp_all
      · have hc := ((node_keeping hr .primary).addressed _ hd hh).mpr ⟨_, rfl⟩
        obtain ⟨hold, hw⟩ := hprim hd hh
        rcases ha.found_before hh' hc hold hw with hdone | ⟨rfl, hexp⟩
        · exact hdone
        · obtain rfl := hact _ _ rfl
          rw [call_handler hr .primary hcall hh, hreq, key_service] at hexp
          cases hm with
          | cluster => exact (guarded_check hr hg hcall hreq hside he hst hconf hexp).elim

theorem guarding_still (hg : Guarding d s) (hc : s'.cluster = s.cluster)
    (hbefore : ∀ k n, s'.Stands d k n → s.Stands d k n ∨ n = s.count)
    (halone : ∀ call msg n, s'.call = some call → call.request = .book msg →
      s'.Stands d ((Request.book msg).key d.restaurant) n → n ≠ call.number →
        s.cluster.backup.wrote (.client call.number) = false ∧ (call.side = .primary → ∀ hd,
          s.cluster.primary.handlers (.client call.number) = some hd →
            hd.phase.old? = none ∧ ¬ hd.phase.Written)) : Guarding d s' := by
  have hnew (side : Side) (h : Thread) := not_wrote_new hr side (h := h)
  constructor <;> rw [hc]
  · intro k n hst hw
    rcases hbefore k n hst with hst | rfl
    · exact hg.own k n hst hw
    · exact absurd ((hnew .backup (.client _) rfl).symm.trans hw) (by simp)
  · intro k n hst hw
    rcases hbefore k n hst with hst | rfl
    · exact hg.backup k n hst hw
    · rcases hw with hw | hw
      · exact absurd ((hnew .backup (.client _) rfl).symm.trans hw) (by simp)
      · exact absurd ((hnew .backup (.replica _) rfl).symm.trans hw) (by simp)
  · intro k n hst hw
    rcases hbefore k n hst with hst | rfl
    · exact hg.primary k n hst hw
    · exact absurd ((hnew .primary (.client _) rfl).symm.trans hw) (by simp)
  · intro j n hd hh hop hp happ hst hlt
    rcases hbefore _ n hst with hst | rfl
    · exact hg.late j n hd hh hop hp happ hst hlt
    · exact hnew .primary (.client _) rfl
  · exact halone

theorem guarding_step (hg : Guarding d s) (he : guarded d s e = true) (hs : Steps d s e s') :
    Guarding d s' := by
  have hbefore (k : Key) (n : Nat) (hst : s'.Stands d k n) := stands_before hs hst
  cases hs with
  | issue req =>
    refine guarding_still hr hg rfl (fun k n hst => (hbefore k n hst).imp_right And.right) ?_
    intro call msg n hcall hreq hst hne
    obtain rfl := Option.some.inj hcall
    refine ⟨not_wrote_new hr .backup rfl, fun _ hd hh => ?_⟩
    obtain ⟨req, hissued, -⟩ := origin hr .primary hh
    exact absurd ((wf_reach hr).numbered _ _ hissued) (lt_irrefl _)
  | move e ev c hm hs =>
    replace hs := Cluster.step_spec hs
    have hstill {k : Key} {n : Nat} (hst : Stands d { s with cluster := c } k n) :
        s.Stands d k n := ⟨hst.book, hst.kept, hst.last⟩
    exact
      { own := fun k n hst => (backup_move hr hg hm hs he (hstill hst)).1
        backup := fun k n hst => (backup_move hr hg hm hs he (hstill hst)).2
        primary := fun k n hst => primary_move hr hg hs (hstill hst)
        late := fun j n hd hh hop hp happ hst =>
          late_move hr hg hm hs he hh hop hp happ (hstill hst)
        alone := fun call msg n hcall hreq hst =>
          alone_move hr hg hm hs he hcall hreq (hstill hst) }
  | redirect =>
    refine guarding_still hr hg rfl (fun k n hst => (hbefore k n hst).imp_right And.right) ?_
    intro call msg n hcall hreq hst hne
    refine hg.alone call msg n hcall hreq ((hbefore _ n hst).resolve_right ?_) hne
    rintro ⟨⟨req, he⟩, -⟩
    simp at he
  | retry e call resp hcall hresp =>
    refine guarding_still hr hg rfl (fun k n hst => (hbefore k n hst).imp_right And.right) ?_
    intro call' msg n hcall' hreq hst hne
    obtain rfl := Option.some.inj hcall'
    refine ⟨(hg.alone call msg n hcall hreq ((hbefore _ n hst).resolve_right ?_) hne).1, by simp⟩
    rintro ⟨⟨req, rfl⟩, -⟩
    cases hresp
  | answer e call resp hcall hresp =>
    refine guarding_still hr hg rfl (fun k n hst => (hbefore k n hst).imp_right And.right) ?_
    intro call' msg n hcall'
    simp [answer] at hcall'

end

/-! ## The answers of the gateway -/

/-- If a cancel of the key of a confirmed booking was issued since, one of its slot was. -/
def SlotsKept (d : Deployment) (s : System) : Prop :=
  ∀ n msg j msg', s.confirmed n = true → .issued n (.book msg) ∈ s.log →
    .issued j (.cancel msg') ∈ s.log → n < j →
      (Request.cancel msg').key d.restaurant = (Request.book msg).key d.restaurant →
        ∃ j' msg'', .issued j' (.cancel msg'') ∈ s.log ∧ n < j' ∧ msg''.slot = msg.slot

/-- A confirmed booking stands until a cancel of its key is issued. -/
theorem stands_or_cancelled {msg : Msg} (hbook : .issued n (.book msg) ∈ s.log)
    (hconf : s.confirmed n = true) :
    s.Stands d ((Request.book msg).key d.restaurant) n ∨
      ∃ j msg', .issued j (.cancel msg') ∈ s.log ∧ n < j ∧
        (Request.cancel msg').key d.restaurant = (Request.book msg).key d.restaurant := by
  by_cases h : ∃ j msg', .issued j (.cancel msg') ∈ s.log ∧ n < j ∧
      (Request.cancel msg').key d.restaurant = (Request.book msg).key d.restaurant
  · exact .inr h
  · refine .inl ⟨⟨msg, hbook, rfl⟩, .inl hconf, fun j msg' hj hk => ?_⟩
    by_contra hlt
    exact h ⟨j, msg', hj, not_le.mp hlt, hk⟩

theorem slotsKept_step (hw : Wf s) (hk : SlotsKept d s) (he : guarded d s e = true)
    (hs : Steps d s e s') : SlotsKept d s' := by
  intro n msg j msg' hconf hbook hcancel hlt hkey
  obtain ⟨call, resp, hans, rfl, hok⟩ := confirmed_iff.mp hconf
  rcases hs.answered_before hans with hans | ⟨hcall, hresp⟩
  · -- An old confirmation.
    have hbelow := hw.numbered _ _ (hw.answered call resp hans)
    have hbook := (hs.issued_before hbook).resolve_right fun h => hbelow.ne h.2
    have hconf := confirmed_iff.mpr ⟨call, resp, hans, rfl, hok⟩
    have hgrow {j₀ : Nat} {msg₀ : Msg} (hj : .issued j₀ (.cancel msg₀) ∈ s.log)
        (hlt : call.number < j₀)
        (hkey : (Request.cancel msg₀).key d.restaurant = (Request.book msg).key d.restaurant) :
        ∃ j' msg'', .issued j' (.cancel msg'') ∈ s'.log ∧ call.number < j' ∧
          msg''.slot = msg.slot := by
      obtain ⟨j', msg'', hj', h⟩ := hk _ msg j₀ msg₀ hconf hbook hj hlt hkey
      exact ⟨j', msg'', hs.log hj', h⟩
    rcases hs.issued_before hcancel with hold | ⟨rfl, rfl⟩
    · exact hgrow hold hlt hkey
    · rcases stands_or_cancelled (d := d) hbook hconf with hst | ⟨j₀, msg₀, hj, hlt₀, hkey₀⟩
      · rw [← hkey] at hst
        simp only [guarded, List.all_eq_true] at he
        have hslot : msg.slot = msg'.slot :=
          of_decide_eq_true (he _ hbook) (mem_standing.mpr hst)
        exact ⟨_, msg', hcancel, hlt, hslot.symm⟩
      · exact hgrow hj hlt₀ hkey₀
  · -- Nothing was issued since.
    have hcount := (hw.current call hcall).1
    rcases hs.issued_before hcancel with hold | ⟨rfl, -⟩
    · have := hw.numbered j _ hold
      omega
    · cases hresp

/-- The booking that is confirmed now has found no other one that stands. -/
theorem not_stands_of_reply (hg : Guarding d s) {call : Call} {msg : Msg} {resp : Response}
    (hcall : s.call = some call) (hreq : call.request = .book msg) (hresp : Responds s call e resp)
    (hok : resp.status = .ok) (hne : n ≠ call.number) :
    ¬ s.Stands d ((Request.book msg).key d.restaurant) n := by
  intro hst
  obtain ⟨hback, hprim⟩ := hg.alone call msg n hcall hreq hst hne
  cases hresp with
  | fail text => simp [unavailable] at hok
  | reply req _ hh =>
    cases hside : call.side with
    | primary =>
      rw [hside] at hh
      exact (hprim hside _ hh).2 hok
    | backup =>
      rw [hside] at hh
      have := Node.wrote_iff.mpr ⟨_, hh, hok⟩
      exact absurd (hback.symm.trans this) (by simp)

theorem noDoubleBooking_step (hw : Wf s) (hg : Guarding d s) (hk : SlotsKept d s)
    (hn : NoDoubleBooking s) (hs : Steps d s e s') : NoDoubleBooking s' := by
  intro call call' resp resp' msg msg' hans hans' hok hok' hreq hreq' hslot hlt
  rcases hs.answered_before hans with hans | ⟨hcall, hresp⟩ <;>
    rcases hs.answered_before hans' with hans' | ⟨hcall', hresp'⟩
  · obtain ⟨j, msg'', hj, h⟩ :=
      hn call call' resp resp' msg msg' hans hans' hok hok' hreq hreq' hslot hlt
    exact ⟨j, msg'', hs.log hj, h⟩
  · have hconf := confirmed_iff.mpr ⟨call, resp, hans, rfl, hok⟩
    have hbook := hw.answered call resp hans
    rw [hreq] at hbook
    obtain ⟨hcount, hcur⟩ := hw.current call' hcall'
    rcases stands_or_cancelled (d := d) hbook hconf with hst | ⟨j, msg₀, hj, hltj, hkey⟩
    · rw [key_of_slot d.restaurant hslot] at hst
      exact (not_stands_of_reply hg hcall' hreq' hresp' hok' hlt.ne hst).elim
    · obtain ⟨j', msg'', hj', hlt', hslot'⟩ := hk _ msg j msg₀ hconf hbook hj hltj hkey
      refine ⟨j', msg'', hs.log hj', hslot', hlt', ?_⟩
      have hle := hw.numbered _ _ hj'
      have hne : j' ≠ call'.number := by
        rintro rfl
        have := hw.once _ _ _ hj' hcur
        simp [hreq'] at this
      omega
  · exact absurd (hw.waiting call call' resp' hcall hans') (not_lt.mpr hlt.le)
  · obtain rfl := Option.some.inj (hcall.symm.trans hcall')
    exact absurd hlt (lt_irrefl _)

/-! ## The result -/

theorem guarding_reach (hr : Reach (step d) (fun s e => guarded d s e) (start d) s) :
    Guarding d s :=
  hr.invariant (guarding_start d) fun _ _ _ hr hg he hs => guarding_step hr hg he (step_spec hs)

theorem slotsKept_reach (hr : Reach (step d) (fun s e => guarded d s e) (start d) s) :
    SlotsKept d s := by
  refine hr.invariant ?_ fun _ _ _ hr hk he hs => slotsKept_step (wf_reach hr) hk he (step_spec hs)
  intro n msg j msg' hconf
  simp [start, confirmed] at hconf

/-- No slot is booked twice without a cancel in between, as long as the primary finds no slot
free that the backup has booked, no late cancel is carried out under a booking that stands,
and no cancel is for another slot with the same key. -/
theorem no_double_booking (hr : Reach (step d) (fun s e => guarded d s e) (start d) s) :
    NoDoubleBooking s := by
  refine hr.invariant ?_ fun _ _ _ hr hn _ hs =>
    noDoubleBooking_step (wf_reach hr) (guarding_reach hr) (slotsKept_reach hr) hn (step_spec hs)
  intro call call' resp resp' msg msg' hans
  simp [start] at hans

/-- A table is booked and cancelled on the primary, and booked again on the backup. -/
def bookedAgain : List Event :=
  .issue (.book (dinner "T1" "Alice")) :: serves 0 ++
    .issue (.cancel (dinner "T1" "Alice")) :: serves 1 ++
      .issue (.book (dinner "T1" "Bob")) :: .fail "timed out" :: servesOnBackup 2

theorem no_double_booking_bookedAgain :
    ∃ s, exec (step urban) (start urban) bookedAgain = some s ∧ NoDoubleBooking s ∧
      s.confirmed 0 = true ∧ s.confirmed 1 = true ∧ s.confirmed 2 = true := by
  have hm : Meets (step urban) (fun s e => guarded urban s e) (start urban) bookedAgain := by decide
  exact ⟨_, rfl, no_double_booking (reach_of_exec hm rfl), by decide, by decide, by decide⟩

/-- The primary fails to answer in time, so the backup books the table for Alice. The primary
does not hear of it, and books it for Bob. -/
def bookedTwice : List Event :=
  .issue (.book (dinner "T1" "Alice")) :: .fail "timed out" :: servesOnBackup 0 ++
    .issue (.book (dinner "T1" "Bob")) :: serves 1

theorem not_no_double_booking : ¬ ∀ (d : Deployment) (s : System),
    Reach (step d) (fun _ _ => True) (start d) s → NoDoubleBooking s := by
  intro h
  obtain ⟨s, hs, hans⟩ : ∃ s, exec (step urban) (start urban) bookedTwice = some s ∧
      ∃ call call' resp resp', .answered call resp ∈ s.log ∧ .answered call' resp' ∈ s.log ∧
        resp.status = .ok ∧ resp'.status = .ok ∧ call.request = .book (dinner "T1" "Alice") ∧
          call'.request = .book (dinner "T1" "Bob") ∧ call.number = 0 ∧ call'.number = 1 :=
    ⟨_, rfl, _, _, _, _, List.mem_of_getElem? (i := 3) rfl, List.mem_of_getElem? (i := 6) rfl,
      rfl, rfl, rfl, rfl, rfl, rfl⟩
  have hm : Meets (step urban) (fun _ _ => True) (start urban) bookedTwice :=
    meets_of_forall fun _ _ _ => trivial
  obtain ⟨call, call', resp, resp', hans, hans', hok, hok', hreq, hreq', hn, hn'⟩ := hans
  obtain ⟨j, msg, -, -, hlt, hlt'⟩ := h urban s (reach_of_exec hm hs) call call' resp resp' _ _ hans
    hans' hok hok' hreq hreq' (by decide) (by omega)
  omega

end System

end ReservationSystem
