import Mathlib.Data.List.Infix
import ReservationSystem.Cluster.Agreement
import ReservationSystem.System.Spec

/-!
# What holds of a system in every run

The cluster behind the gateway makes a run of its own, and the nodes work on what the
gateway has sent them.
-/

namespace ReservationSystem

open Machine

/-! ## Either node -/

/-- The number of the request that a thread works for. -/
def Thread.number : Thread → Nat
  | .client n | .replica n => n

def Deployment.service (d : Deployment) : Side → Service
  | .primary => d.primary
  | .backup => d.backup

/-- Both nodes keep the reservations of one restaurant. -/
@[simp]
theorem key_service (d : Deployment) (side : Side) (req : Request) :
    req.key (d.service side) = req.key d.restaurant := by
  cases side <;> cases req <;> rfl

namespace Cluster

variable {d : Deployment} {c c' : Cluster} {e : Event}

theorem Steps.onNode (hs : Steps d c e c') (side : Side) : c'.node side = c.node side ∨
    ∃ ev, Node.Addressed ev ∧ (c.node side).step (d.service side) ev = some (c'.node side) ∧
      (∀ h a, ev = .act h a → e = .act side h a) ∧
      ∀ n req, ev = .receive (.client n) req → e = .request side n req := by
  cases side with
  | primary =>
    cases hs with
    | requestPrimary n req p _ hc hs =>
      exact .inr ⟨.receive (.client n) req, hc, hs, by simp, by simp⟩
    | actPrimary h a p _ _ hs => exact .inr ⟨.act h a, trivial, hs, by simp, by simp⟩
    | _ => exact .inl rfl
  | backup =>
    cases hs with
    | requestBackup n req b hc hs =>
      exact .inr ⟨.receive (.client n) req, hc, hs, by simp, by simp⟩
    | actBackup h a b hs => exact .inr ⟨.act h a, trivial, hs, by simp, by simp⟩
    | deliver n msg b _ hs =>
      exact .inr ⟨.receive (.replica n) (.applyReplication msg), id, hs, by simp, by simp⟩
    | promote => exact .inr ⟨.promote, trivial, rfl, by simp, by simp⟩
    | _ => exact .inl rfl

theorem node_reach {C : Cluster → Event → Prop} (hr : Reach (step d) C (start d) c)
    (side : Side) : Reach (Node.step (d.service side)) (fun _ e => Node.Addressed e)
      (Node.start (d.service side) (side = .backup)) (c.node side) := by
  have hstart : (start d).node side = Node.start (d.service side) (side = .backup) := by
    cases side <;> rfl
  rw [← hstart]
  exact hr.project (Cluster.node · side) fun _ _ _ _ _ hs =>
    ((step_spec hs).onNode side).imp_right fun ⟨ev, hev, h, _⟩ => ⟨ev, hev, h⟩

theorem node_keeping {C : Cluster → Event → Prop} (hr : Reach (step d) C (start d) c)
    (side : Side) : Node.Keeping (d.service side) (c.node side) :=
  Node.keeping_reach (node_reach hr side)

end Cluster

namespace System

variable {d : Deployment} {s s' : System} {e : Event}

/-! ## What one step can do -/

/-- What an event of the system is for the cluster. -/
inductive Moves (s : System) : Event → Cluster.Event → Prop
  | arrive (side : Side) (n : Nat) (req : Request) (htried : .tried ⟨n, req, side⟩ ∈ s.log) :
      Moves s (.arrive side n) (.request side n req)
  | cluster (ev : Cluster.Event) (hev : ∀ side n req, ev ≠ .request side n req) :
      Moves s (.cluster ev) ev

/-- How the gateway comes by a response. -/
inductive Responds (s : System) (call : Call) : Event → Response → Prop
  | fail (text : String) : Responds s call (.fail text) (unavailable text)
  | reply (req : Request) (resp : Response)
      (hh : (s.cluster.node call.side).handlers (.client call.number) = some ⟨req, .done resp⟩) :
      Responds s call .reply resp

inductive Steps (d : Deployment) (s : System) : Event → System → Prop
  | issue (req : Request) (hidle : s.call = none) (hc : req.IsClient) :
      Steps d s (.issue req) (s.issue req)
  | move (e : Event) (ev : Cluster.Event) (c : Cluster) (hm : Moves s e ev)
      (hs : s.cluster.step d ev = some c) : Steps d s e { s with cluster := c }
  | redirect (hprom : s.cluster.backup.isPromotedPrimary = true) :
      Steps d s .redirect { s with address := .backup }
  | retry (e : Event) (call : Call) (resp : Response) (hcall : s.call = some call)
      (hr : Responds s call e resp) (herr : resp.status = .error) (hside : call.side = .primary) :
      Steps d s e (s.retry call)
  | answer (e : Event) (call : Call) (resp : Response) (hcall : s.call = some call)
      (hr : Responds s call e resp) (hlast : ∀ text, e = .fail text → call.side = .backup) :
      Steps d s e (s.answer call resp)

/-- The gateway recognises the answer of its own that it retries on. -/
theorem mentionsUnavailable_unavailable (text : String) :
    mentionsUnavailable (unavailable text).message = true := by
  have hsuffix : "unavailable: ".toList ++ text.toList <:+
      ("Service unavailable: " ++ text).toList := by
    rw [String.toList_append]
    exact ⟨"Service ".toList, by rw [← List.append_assoc]; rfl⟩
  refine List.any_eq_true.mpr ⟨_, (List.mem_tails _ _).mpr hsuffix, ?_⟩
  have hstart : "unavailable".toList <+: "unavailable: ".toList := ⟨": ".toList, rfl⟩
  exact List.isPrefixOf_iff_prefix.mpr (hstart.trans (List.prefix_append _ _))

theorem triedOn_mem {side : Side} {n : Nat} {req : Request} (h : s.triedOn side n = some req) :
    .tried ⟨n, req, side⟩ ∈ s.log := by
  obtain ⟨x, hx, hreq⟩ := List.exists_of_findSome?_eq_some h
  split at hreq
  · split_ifs at hreq with hm
    obtain ⟨rfl, rfl⟩ := hm
    obtain rfl := Option.some.inj hreq
    exact hx
  · simp at hreq

theorem respond_spec {call : Call} {resp : Response} (hcall : s.call = some call)
    (hr : Responds s call e resp) : Steps d s e (s.respond call resp) := by
  unfold respond
  split_ifs with h
  · exact .retry e call resp hcall hr h.1 h.2.2
  · refine .answer e call resp hcall hr ?_
    rintro text rfl
    cases hr with
    | fail =>
      cases hside : call.side with
      | primary => exact absurd ⟨rfl, mentionsUnavailable_unavailable text, hside⟩ h
      | backup => rfl

theorem onCluster_spec {ev : Cluster.Event} (hm : Moves s e ev)
    (hs : s.onCluster d ev = some s') : Steps d s e s' := by
  obtain ⟨c, hc, rfl⟩ := Option.map_eq_some_iff.mp hs
  exact .move e ev c hm hc

theorem step_spec (hs : s.step d e = some s') : Steps d s e s' := by
  unfold step at hs
  split at hs
  case h_1 req =>
    split_ifs at hs with h
    obtain rfl := Option.some.inj hs
    exact .issue req (Option.isNone_iff_eq_none.mp h.1) h.2
  case h_2 side n =>
    obtain ⟨req, hreq, hs⟩ := Option.bind_eq_some_iff.mp hs
    exact onCluster_spec (.arrive side n req (triedOn_mem hreq)) hs
  case h_3 => simp at hs
  case h_4 ev hev => exact onCluster_spec (.cluster ev fun side n req he => hev side n req he) hs
  case h_5 =>
    split_ifs at hs with h
    obtain rfl := Option.some.inj hs
    exact .redirect h
  case h_6 text =>
    obtain ⟨call, hcall, rfl⟩ := Option.map_eq_some_iff.mp hs
    exact respond_spec hcall (.fail text)
  case h_7 =>
    obtain ⟨call, hcall, hs⟩ := Option.bind_eq_some_iff.mp hs
    obtain ⟨resp, hresp, rfl⟩ := Option.map_eq_some_iff.mp hs
    refine respond_spec hcall ?_
    unfold answerTo at hresp
    split at hresp
    case h_1 req resp' hh =>
      obtain rfl := Option.some.inj hresp
      exact .reply req _ hh
    case h_2 => simp at hresp

theorem Steps.onCluster (hs : Steps d s e s') : s'.cluster = s.cluster ∨
    ∃ ev, Moves s e ev ∧ s.cluster.step d ev = some s'.cluster ∧ s'.log = s.log := by
  cases hs with
  | move e ev c hm hs => exact .inr ⟨ev, hm, hs, rfl⟩
  | _ => exact .inl rfl

theorem Steps.log (hs : Steps d s e s') : s.log ⊆ s'.log := by
  cases hs with
  | issue | retry | answer => exact List.subset_append_left _ _
  | _ => exact List.Subset.refl _

theorem Steps.answered_before (hs : Steps d s e s') {call : Call} {resp : Response}
    (h : .answered call resp ∈ s'.log) :
    .answered call resp ∈ s.log ∨ s.call = some call ∧ Responds s call e resp := by
  cases hs with
  | issue req => exact .inl (by simpa [System.issue] using h)
  | retry => exact .inl (by simpa [System.retry] using h)
  | answer e call' resp' hcall hresp =>
    rw [System.answer, List.mem_append, List.mem_singleton] at h
    refine h.imp_right fun h => ?_
    obtain ⟨rfl, rfl⟩ := Mark.answered.inj h
    exact ⟨hcall, hresp⟩
  | _ => exact .inl h

theorem Steps.issued_before (hs : Steps d s e s') {n : Nat} {req : Request}
    (h : .issued n req ∈ s'.log) :
    .issued n req ∈ s.log ∨ e = .issue req ∧ n = s.count := by
  cases hs with
  | issue req' =>
    simp only [System.issue, List.mem_append, List.mem_cons, Mark.issued.injEq, reduceCtorEq,
      List.not_mem_nil, or_false] at h
    exact h.imp_right fun ⟨hn, hreq⟩ => ⟨by rw [hreq], hn⟩
  | retry => exact .inl (by simpa [System.retry] using h)
  | answer => exact .inl (by simpa [System.answer] using h)
  | _ => exact .inl h

theorem cluster_reach {C : System → Event → Prop} {s₀ : System} (hr : Reach (step d) C s₀ s) :
    Reach (Cluster.step d) (fun _ _ => True) s₀.cluster s.cluster :=
  hr.project System.cluster fun _ _ _ _ _ hs => by
    rcases (step_spec hs).onCluster with heq | ⟨ev, -, hc, -⟩
    · exact .inl heq
    · exact .inr ⟨ev, trivial, hc⟩

/-! ## What the nodes write -/

theorem wrote_before {ev : Cluster.Event} {c : Cluster} (hm : Moves s e ev)
    (hs : Cluster.Steps d s.cluster ev c) (side : Side) {h : Thread}
    (hw : (c.node side).wrote h = true) :
    (s.cluster.node side).wrote h = true ∨ e = .cluster (.act side h .store) := by
  rcases hs.onNode side with heq | ⟨nev, -, hn, hact, -⟩
  · exact .inl (heq ▸ hw)
  · refine (Node.wrote_before (Node.step_spec hn) hw).imp_right fun heq => ?_
    obtain rfl := hact _ _ heq
    cases hm with
    | cluster => rfl

theorem wrote_after {ev : Cluster.Event} {c : Cluster} (hs : Cluster.Steps d s.cluster ev c)
    (side : Side) {h : Thread} (hw : (s.cluster.node side).wrote h = true) :
    (c.node side).wrote h = true := by
  rcases hs.onNode side with heq | ⟨nev, -, hn, -⟩
  · rwa [heq]
  · exact Node.wrote_after (Node.step_spec hn) hw

/-! ## The books of the gateway -/

structure Wf (s : System) : Prop where
  /-- A node works on what the gateway has sent it. -/
  arrived : ∀ side n hd, (s.cluster.node side).handlers (.client n) = some hd →
    .tried ⟨n, hd.request, side⟩ ∈ s.log
  tried : ∀ call, .tried call ∈ s.log → .issued call.number call.request ∈ s.log
  numbered : ∀ n req, .issued n req ∈ s.log → n < s.count
  once : ∀ n req req', .issued n req ∈ s.log → .issued n req' ∈ s.log → req = req'
  current : ∀ call, s.call = some call →
    call.number + 1 = s.count ∧ .issued call.number call.request ∈ s.log
  unretried : ∀ call call', s.call = some call → call.side = .primary → .tried call' ∈ s.log →
    call'.number = call.number → call'.side = .primary
  answered : ∀ call resp, .answered call resp ∈ s.log → .issued call.number call.request ∈ s.log
  waiting : ∀ call call' resp, s.call = some call → .answered call' resp ∈ s.log →
    call'.number < call.number
  single : ∀ call call' resp resp', .answered call resp ∈ s.log → .answered call' resp' ∈ s.log →
    call.number = call'.number → call = call' ∧ resp = resp'
  /-- A client's ok is the answer of a handler. -/
  served : ∀ call resp, .answered call resp ∈ s.log → resp.status = .ok →
    (s.cluster.node call.side).handlers (.client call.number) = some ⟨call.request, .done resp⟩

theorem wf_start (d : Deployment) : Wf (start d) where
  arrived side n hd hh := by
    cases side <;> simp [start, Cluster.start, Cluster.node, Node.start] at hh
  tried call h := by simp [start] at h
  numbered n req h := by simp [start] at h
  once n req req' h := by simp [start] at h
  current call h := by simp [start] at h
  unretried call call' h := by simp [start] at h
  answered call resp h := by simp [start] at h
  waiting call call' resp h := by simp [start] at h
  single call call' resp resp' h := by simp [start] at h
  served call resp h := by simp [start] at h

theorem wf_issue (hw : Wf s) (req : Request) : Wf (s.issue req) := by
  have hissued {n req'} : .issued n req' ∈ (s.issue req).log ↔
      .issued n req' ∈ s.log ∨ n = s.count ∧ req' = req := by
    simp [issue]
  have htried {call} : .tried call ∈ (s.issue req).log ↔
      .tried call ∈ s.log ∨ call = ⟨s.count, req, s.address⟩ := by
    simp [issue]
  have hanswered {call resp} : .answered call resp ∈ (s.issue req).log ↔
      .answered call resp ∈ s.log := by
    simp [issue]
  have hbelow {call : Call} {resp : Response} (h : .answered call resp ∈ s.log) :
      call.number < s.count :=
    hw.numbered _ _ (hw.answered call resp h)
  constructor
  · exact fun side n hd hh => htried.mpr (.inl (hw.arrived side n hd hh))
  · intro call h
    rcases htried.mp h with h | rfl
    · exact hissued.mpr (.inl (hw.tried call h))
    · exact hissued.mpr (.inr ⟨rfl, rfl⟩)
  · intro n req' h
    rcases hissued.mp h with h | ⟨rfl, -⟩
    · exact (hw.numbered n req' h).trans (Nat.lt_succ_self _)
    · exact Nat.lt_succ_self _
  · intro n req₁ req₂ h₁ h₂
    rcases hissued.mp h₁ with g₁ | ⟨rfl, rfl⟩ <;> rcases hissued.mp h₂ with g₂ | ⟨hn, rfl⟩
    · exact hw.once n req₁ req₂ g₁ g₂
    · exact absurd (hw.numbered n req₁ g₁) (by simp [hn])
    · exact absurd (hw.numbered _ req₂ g₂) (by simp)
    · rfl
  · intro call hcall
    obtain rfl := Option.some.inj hcall
    exact ⟨rfl, hissued.mpr (.inr ⟨rfl, rfl⟩)⟩
  · intro call call' hcall hside h hn
    obtain rfl := Option.some.inj hcall
    rcases htried.mp h with h | rfl
    · exact absurd (hw.numbered _ _ (hw.tried call' h)) (by simp [hn])
    · exact hside
  · exact fun call resp h => hissued.mpr (.inl (hw.answered call resp (hanswered.mp h)))
  · intro call call' resp hcall h
    obtain rfl := Option.some.inj hcall
    exact hbelow (hanswered.mp h)
  · exact fun call call' resp resp' h h' =>
      hw.single call call' resp resp' (hanswered.mp h) (hanswered.mp h')
  · exact fun call resp h hok => hw.served call resp (hanswered.mp h) hok

theorem wf_move (hw : Wf s) {ev : Cluster.Event} {c : Cluster} (hm : Moves s e ev)
    (hs : Cluster.Steps d s.cluster ev c) : Wf { s with cluster := c } where
  arrived side n hd hh := by
    rcases hs.onNode side with heq | ⟨nev, -, hn, -, hreq⟩
    · exact hw.arrived side n hd (heq ▸ hh)
    · rcases (Node.step_spec hn).handler hh with hh | ⟨-, he, -⟩ | ⟨hd', a, p, -, hh', -, rfl⟩
      · exact hw.arrived side n hd hh
      · obtain rfl := hreq n hd.request he
        cases hm with
        | arrive _ _ _ htried => exact htried
        | cluster _ hev => exact (hev _ _ _ rfl).elim
      · exact hw.arrived side n hd' hh'
  tried := hw.tried
  numbered := hw.numbered
  once := hw.once
  current := hw.current
  unretried := hw.unretried
  answered := hw.answered
  waiting := hw.waiting
  single := hw.single
  served call resp h hok := by
    have hh := hw.served call resp h hok
    rcases hs.onNode call.side with heq | ⟨nev, -, hn, -, -⟩
    · exact heq ▸ hh
    · rcases (Node.step_spec hn).handler_next hh with hh' | ⟨a, p, -, ha, -⟩
      · exact hh'
      · exact absurd rfl ha.not_done

theorem wf_retry (hw : Wf s) {call : Call} (hcall : s.call = some call) : Wf (s.retry call) := by
  have hissued {n req} : .issued n req ∈ (s.retry call).log ↔ .issued n req ∈ s.log := by
    simp [retry]
  have htried {call'} : .tried call' ∈ (s.retry call).log ↔
      .tried call' ∈ s.log ∨ call' = { call with side := .backup } := by
    simp [retry]
  have hanswered {call' resp} : .answered call' resp ∈ (s.retry call).log ↔
      .answered call' resp ∈ s.log := by
    simp [retry]
  obtain ⟨hcount, hcur⟩ := hw.current call hcall
  constructor
  · exact fun side n hd hh => htried.mpr (.inl (hw.arrived side n hd hh))
  · intro call' h
    rcases htried.mp h with h | rfl
    · exact hissued.mpr (hw.tried call' h)
    · exact hissued.mpr hcur
  · exact fun n req h => hw.numbered n req (hissued.mp h)
  · exact fun n req req' h h' => hw.once n req req' (hissued.mp h) (hissued.mp h')
  · intro call' hcall'
    obtain rfl := Option.some.inj hcall'
    exact ⟨hcount, hissued.mpr hcur⟩
  · intro call' call'' hcall' hside
    obtain rfl := Option.some.inj hcall'
    simp at hside
  · exact fun call' resp h => hissued.mpr (hw.answered call' resp (hanswered.mp h))
  · intro call' call'' resp hcall' h
    obtain rfl := Option.some.inj hcall'
    exact hw.waiting call call'' resp hcall (hanswered.mp h)
  · exact fun call' call'' resp resp' h h' =>
      hw.single call' call'' resp resp' (hanswered.mp h) (hanswered.mp h')
  · exact fun call' resp h hok => hw.served call' resp (hanswered.mp h) hok

theorem wf_answer (hw : Wf s) {call : Call} {resp : Response} (hcall : s.call = some call)
    (hr : Responds s call e resp) : Wf (s.answer call resp) := by
  have hissued {n req} : .issued n req ∈ (s.answer call resp).log ↔ .issued n req ∈ s.log := by
    simp [answer]
  have htried {call'} : .tried call' ∈ (s.answer call resp).log ↔ .tried call' ∈ s.log := by
    simp [answer]
  have hanswered {call' resp'} : .answered call' resp' ∈ (s.answer call resp).log ↔
      .answered call' resp' ∈ s.log ∨ call' = call ∧ resp' = resp := by
    simp [answer]
  obtain ⟨-, hcur⟩ := hw.current call hcall
  constructor
  · exact fun side n hd hh => htried.mpr (hw.arrived side n hd hh)
  · exact fun call' h => hissued.mpr (hw.tried call' (htried.mp h))
  · exact fun n req h => hw.numbered n req (hissued.mp h)
  · exact fun n req req' h h' => hw.once n req req' (hissued.mp h) (hissued.mp h')
  · exact fun call' hcall' => by simp [answer] at hcall'
  · exact fun call' call'' hcall' => by simp [answer] at hcall'
  · intro call' resp' h
    rcases hanswered.mp h with h | ⟨rfl, -⟩
    · exact hissued.mpr (hw.answered call' resp' h)
    · exact hissued.mpr hcur
  · exact fun call' call'' resp' hcall' => by simp [answer] at hcall'
  · intro call₁ call₂ resp₁ resp₂ h₁ h₂ hn
    rcases hanswered.mp h₁ with g₁ | ⟨rfl, rfl⟩ <;> rcases hanswered.mp h₂ with g₂ | ⟨rfl, rfl⟩
    · exact hw.single call₁ call₂ resp₁ resp₂ g₁ g₂ hn
    · exact absurd hn (hw.waiting call₂ call₁ resp₁ hcall g₁).ne
    · exact absurd hn (hw.waiting call₁ call₂ resp₂ hcall g₂).ne'
    · exact ⟨rfl, rfl⟩
  · intro call' resp' h hok
    rcases hanswered.mp h with h | ⟨rfl, rfl⟩
    · exact hw.served call' resp' h hok
    · cases hr with
      | fail text => simp [unavailable] at hok
      | reply req _ hh =>
        obtain rfl := hw.once _ _ _ (hw.tried _ (hw.arrived _ _ _ hh)) hcur
        exact hh

theorem wf_step (hw : Wf s) (hs : Steps d s e s') : Wf s' := by
  cases hs with
  | issue req => exact wf_issue hw req
  | move e ev c hm hs => exact wf_move hw hm (Cluster.step_spec hs)
  | redirect =>
    obtain ⟨h₁, h₂, h₃, h₄, h₅, h₆, h₇, h₈, h₉, h₁₀⟩ := hw
    exact ⟨h₁, h₂, h₃, h₄, h₅, h₆, h₇, h₈, h₉, h₁₀⟩
  | retry e call resp hcall => exact wf_retry hw hcall
  | answer e call resp hcall hr => exact wf_answer hw hcall hr

section
variable {C : System → Event → Prop} (hr : Reach (step d) C (start d) s)
include hr

theorem wf_reach : Wf s :=
  hr.invariant (wf_start d) fun _ _ _ _ hw _ hs => wf_step hw (step_spec hs)

theorem linked_reach : Cluster.Linked s.cluster := Cluster.linked_reach (cluster_reach hr)

theorem node_keeping (side : Side) : Node.Keeping (d.service side) (s.cluster.node side) :=
  Cluster.node_keeping (cluster_reach hr) side

/-- A handler works for the request of its number. -/
theorem origin (side : Side) {h : Thread} {hd : Handler}
    (hh : (s.cluster.node side).handlers h = some hd) :
    ∃ req, .issued h.number req ∈ s.log ∧ req.IsClient ∧ req.op = hd.request.op ∧
      req.key d.restaurant = hd.request.key d.restaurant := by
  have hw := wf_reach hr
  have hclient (side : Side) {n : Nat} {hd : Handler}
      (hh : (s.cluster.node side).handlers (.client n) = some hd) :
      .issued n hd.request ∈ s.log ∧ hd.request.IsClient :=
    ⟨hw.tried _ (hw.arrived side n hd hh), ((node_keeping hr side).addressed _ hd hh).mpr ⟨n, rfl⟩⟩
  cases h with
  | client n => exact ⟨hd.request, (hclient side hh).1, (hclient side hh).2, rfl, rfl⟩
  | replica n =>
    cases side with
    | primary =>
      obtain ⟨m, hm⟩ := Node.client_reach (Cluster.primary_reach (cluster_reach hr)) hh
      simp at hm
    | backup =>
      obtain ⟨msg, hreq, hsent⟩ := (linked_reach hr).messages n hd hh
      obtain ⟨hd', hh', hop, hkey, -⟩ := (node_keeping hr .primary).history.fits _ hsent
      obtain ⟨hissued, hc⟩ := hclient .primary hh'
      refine ⟨hd'.request, hissued, hc, by rw [hreq]; exact hop.symm, ?_⟩
      rw [hreq, Cluster.key_of_msg d.restaurant hkey, key_service]

theorem not_wrote_new (side : Side) {h : Thread} (hn : h.number = s.count) :
    (s.cluster.node side).wrote h = false := by
  refine eq_false_of_ne_true fun hw => ?_
  obtain ⟨hd, hh, -⟩ := Node.wrote_iff.mp hw
  obtain ⟨req, hissued, -⟩ := origin hr side hh
  exact absurd ((wf_reach hr).numbered _ _ hissued) (by simp [hn])

theorem call_handler (side : Side) {call : Call} {hd : Handler} (hcall : s.call = some call)
    (hh : (s.cluster.node side).handlers (.client call.number) = some hd) :
    hd.request = call.request := by
  have hw := wf_reach hr
  exact hw.once _ _ _ (hw.tried _ (hw.arrived side _ hd hh)) (hw.current call hcall).2

end

/-! ## What the gateway has promised -/

/-- The client was told that its request was granted. -/
def confirmed (s : System) (n : Nat) : Bool :=
  s.log.any fun
    | .answered call resp => call.number = n ∧ resp.status = .ok
    | _ => false

variable {n : Nat}

theorem confirmed_iff : s.confirmed n = true ↔
    ∃ call resp, .answered call resp ∈ s.log ∧ call.number = n ∧ resp.status = .ok := by
  simp only [confirmed, List.any_eq_true]
  constructor
  · rintro ⟨m, hm, hx⟩
    split at hx
    · exact ⟨_, _, hm, by simpa using hx⟩
    · simp at hx
  · rintro ⟨call, resp, hm, hx⟩
    exact ⟨_, hm, by simpa using hx⟩

end System

end ReservationSystem
