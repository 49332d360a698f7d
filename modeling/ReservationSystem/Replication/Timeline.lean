import Mathlib.Data.List.Induction
import ReservationSystem.Replication.Heartbeat

/-!
# The two loops drive the backup

A run of the backup in which the sender's pings arrive on time and no thread is interrupted. Its
watchdog calls `on_failure` when `watchdogLoop` says so.
-/

namespace ReservationSystem

def Beat.overdue? : Beat → Option ℚ
  | .looked now last => if Overdue now last then some now else none
  | _ => none

namespace BackupService

open HeartbeatSender

def Runs (cfg : Service) (s s' : BackupService) : Prop :=
  Machine.Reach (step cfg) (fun _ _ => True) s s'

section
variable {cfg : Service} {p : HeartbeatSender} {s s' s'' : BackupService} {t t' : ℚ} {k n : ℕ}

theorem Runs.of_exec {es : List Event} (h : Machine.exec (step cfg) s es = some s') :
    Runs cfg s s' :=
  Machine.reach_of_exec (Machine.meets_of_forall fun _ _ _ => trivial) h

/-! ## The pings that the sender has got through -/

def heardOf (p : HeartbeatSender) (k : ℕ) : List ℚ := (List.range k).filterMap p.pinged

theorem heardOf_succ :
    heardOf p (k + 1) = heardOf p k ++ (p.pinged k).toList := by
  unfold heardOf
  rw [List.range_succ, List.filterMap_append]
  cases h : p.pinged k <;> simp [h]

theorem lastOf_add (h : ∀ j ≥ k, ∀ τ ∈ p.pinged j, t < τ) : p.lastOf t (k + n) = p.lastOf t k := by
  induction n with
  | zero => rfl
  | succ n ih =>
    have hnone : (p.pinged (k + n)).filter (· ≤ t) = none := by
      rw [Option.filter_eq_none_iff]
      intro τ hτ
      simpa using h (k + n) (by omega) τ hτ
    rw [← Nat.add_assoc, lastOf, hnone, Option.none_or, ih]

theorem lastOf_eq_getLast? (h : ∀ j < k, ∀ τ ∈ p.pinged j, τ ≤ t) :
    p.lastOf t k = (heardOf p k).getLast? := by
  induction k with
  | zero => rfl
  | succ k ih =>
    have ih := ih fun j hj => h j (by omega)
    rw [lastOf, ih, heardOf_succ]
    cases hk : p.pinged k with
    | none => simp
    | some τ =>
      have hle := h k (by omega) τ hk
      simp [hle]

theorem lastSeen_eq (hpast : ∀ j < k, ∀ τ ∈ p.pinged j, τ ≤ t)
    (hlater : ∀ j ≥ k, ∀ τ ∈ p.pinged j, t < τ) :
    p.lastSeen t = (heardOf p k).getLast? := by
  have hbegun : ∀ j ≥ p.begun t, ∀ τ ∈ p.pinged j, t < τ := fun j hj τ hτ =>
    not_le.mp fun hle => absurd (lt_begun hτ hle) (by omega)
  calc p.lastSeen t = p.lastOf t (p.begun t + k) := (lastOf_add hbegun).symm
    _ = p.lastOf t k := by rw [Nat.add_comm, lastOf_add hlater]
    _ = (heardOf p k).getLast? := lastOf_eq_getLast? hpast

theorem pinged_lt (hnm : n < k) {τ τ' : ℚ} (h : p.pinged n = some τ) (h' : p.pinged k = some τ') :
    τ < τ' := by
  have hend := le_ends_of_pinged h
  have hbegin := begins_le_of_pinged h'
  have hle : p.ends n ≤ p.ends (k - 1) := p.ends_mono (by omega)
  have hstep : p.begins k = p.ends (k - 1) + heartbeatInterval := by
    obtain ⟨k, rfl⟩ := Nat.exists_eq_succ_of_ne_zero (by omega : k ≠ 0)
    rfl
  have hpos : (0 : ℚ) < heartbeatInterval := by norm_num [heartbeatInterval]
  linarith

/-! ## The backup -/

/-- Until `t` the backup has heard of the attempts before `k`, and has not been promoted. -/
structure Follows (p : HeartbeatSender) (t : ℚ) (k : ℕ) (s : BackupService) : Prop where
  top : s.watchdog = .top
  waiting : s.fired = false ∧ s.svc.isPromotedPrimary = false ∧ s.onHeartbeat = true
  fresh : ∀ n ≥ k, s.pings n = none
  past : ∀ n < k, ∀ τ ∈ p.pinged n, τ ≤ t
  heard : s.log.filterMap Beat.ping? = heardOf p k
  seen : s.lastSeen = (heardOf p k).getLast?

theorem Follows.later (h : Follows p t k s) (ht : t ≤ t') : Follows p t' k s :=
  { h with past := fun n hn τ hτ => (h.past n hn τ hτ).trans ht }

/-- The next attempt never reaches the backup, or does so now. -/
theorem Follows.settle (cfg : Service) (h : Follows p t k s) (hk : ∀ τ ∈ p.pinged k, τ ≤ t) :
    ∃ s', Runs cfg s s' ∧ Follows p t (k + 1) s' ∧
      s'.log.filterMap Beat.overdue? = s.log.filterMap Beat.overdue? := by
  have hpast : ∀ n < k + 1, ∀ τ ∈ p.pinged n, τ ≤ t := by
    intro n hn τ hτ
    rcases Nat.lt_succ_iff_lt_or_eq.mp hn with hlt | rfl
    · exact h.past n hlt τ hτ
    · exact hk τ hτ
  cases hping : p.pinged k with
  | none =>
    refine ⟨s, .refl, { h with fresh := ?_, past := hpast, heard := ?_, seen := ?_ }, rfl⟩
    · exact fun n hn => h.fresh n (by omega)
    · rw [heardOf_succ, hping, h.heard]
      simp
    · rw [heardOf_succ, hping, h.seen]
      simp
  | some τ =>
    have hrun := exec_ping cfg s τ k (h.fresh k le_rfl) h.waiting.2.2
    refine ⟨_, .of_exec hrun, ⟨h.top, h.waiting, ?_, hpast, ?_, ?_⟩, by simp [Beat.overdue?]⟩
    · intro n hn
      have hne : n ≠ k := by omega
      simpa [pingAt, hne] using h.fresh n (by omega)
    · rw [heardOf_succ, hping, ← h.heard]
      simp [Beat.ping?]
    · rw [heardOf_succ, hping]
      simp

theorem Follows.catchUp (cfg : Service) {k : ℕ} {s : BackupService}
    (h : Follows p t k s) :
    ∃ k' s', Runs cfg s s' ∧ Follows p t k' s' ∧ s'.lastSeen = p.lastSeen t ∧
      s'.log.filterMap Beat.overdue? = s.log.filterMap Beat.overdue? := by
  by_cases hlater : ∀ j ≥ k, ∀ τ ∈ p.pinged j, t < τ
  · exact ⟨k, s, .refl, h, by rw [h.seen, lastSeen_eq h.past hlater], rfl⟩
  · -- Some attempt from `k` on has been heard by now, so the next one is over.
    push Not at hlater
    obtain ⟨j, hj, τ, hτ, hle⟩ := hlater
    have hk : ∀ τ ∈ p.pinged k, τ ≤ t := by
      intro τ' hτ'
      rcases Nat.eq_or_lt_of_le hj with rfl | hlt
      · rwa [Option.mem_unique hτ' hτ]
      · exact (pinged_lt hlt hτ' hτ).le.trans hle
    have hbegun : k < p.begun t := lt_of_le_of_lt hj (lt_begun hτ hle)
    obtain ⟨s', hrun, hf, hlog⟩ := h.settle cfg hk
    obtain ⟨k'', s'', hrun', hf', hseen, hlog'⟩ := hf.catchUp cfg
    exact ⟨k'', s'', hrun.trans hrun', hf', hseen, hlog'.trans hlog⟩
termination_by p.begun t - k

/-! ## The watchdog -/

theorem watchdogLoop_fired (seen : ℚ → Option ℚ) (ts : List ℚ) :
    watchdogLoop seen true ts = [] := by
  induction ts with
  | nil => rfl
  | cons t ts ih => exact ih

theorem run_fired (cfg : Service) (ts : List ℚ) (hw : s.watchdog = .top) (hf : s.fired = true) :
    ∃ s', Runs cfg s s' ∧
      s'.log.filterMap Beat.ping? = s.log.filterMap Beat.ping? ∧
      s'.log.filterMap Beat.overdue? = s.log.filterMap Beat.overdue? := by
  induction ts generalizing s with
  | nil => exact ⟨s, .refl, rfl, rfl⟩
  | cons t ts ih =>
    have hrun := exec_idle cfg s t hw (.inl hf)
    obtain ⟨s', hrun', hping, hlog⟩ := ih (s := { s with log := s.log ++ [.idled] }) hw hf
    refine ⟨s', (Runs.of_exec hrun).trans hrun', ?_, ?_⟩
    · simpa [List.filterMap_cons, Beat.ping?] using hping
    · simpa [List.filterMap_cons, Beat.overdue?] using hlog

/-- The loop, from the time of its last iteration on. -/
theorem Follows.loop (cfg : Service) (h : Follows p t k s) (ts : List ℚ)
    (hts : (t :: ts).IsChain (· ≤ ·)) :
    ∃ s' k', Runs cfg s s' ∧ s'.log.filterMap Beat.ping? = heardOf p k' ∧
      s'.log.filterMap Beat.overdue? =
        s.log.filterMap Beat.overdue? ++ watchdogLoop p.lastSeen false ts := by
  induction ts generalizing t k s with
  | nil => exact ⟨s, k, .refl, h.heard, by simp [watchdogLoop]⟩
  | cons t' ts ih =>
    obtain ⟨hle, hts⟩ := List.isChain_cons_cons.mp hts
    obtain ⟨k₁, s₁, hrun₁, hf, hseen, hlog₁⟩ := (h.later hle).catchUp cfg
    rw [← hlog₁]
    cases hlast : s₁.lastSeen with
    | none =>
      have hrun := exec_idle cfg s₁ t' hf.top (.inr hlast)
      have hf' : Follows p t' k₁ { s₁ with log := s₁.log ++ [.idled] } :=
        { hf with heard := by simpa [List.filterMap_cons, Beat.ping?] using hf.heard }
      obtain ⟨s', k', hrun', hping, hlog⟩ := ih hf' hts
      refine ⟨s', k', hrun₁.trans ((Runs.of_exec hrun).trans hrun'), hping, ?_⟩
      simpa [watchdogLoop, ← hseen, hlast, List.filterMap_cons, Beat.overdue?] using hlog
    | some last =>
      by_cases ho : Overdue t' last
      · have hrun := exec_fires cfg s₁ t' hf.top hf.waiting.1 hlast ho hf.waiting.2.1
        obtain ⟨s', hrun', hping, hlog⟩ := run_fired cfg ts
          (s := { s₁ with
            svc := s₁.svc.promoteToPrimary cfg
            onHeartbeat := false
            fired := true
            log := s₁.log ++ ReservationSystem.firing t' last }) hf.top rfl
        refine ⟨s', k₁, hrun₁.trans ((Runs.of_exec hrun).trans hrun'), ?_, ?_⟩
        · rw [hping, ← hf.heard]
          simp [ReservationSystem.firing, Beat.ping?]
        · rw [hlog]
          simp [watchdogLoop, ← hseen, hlast, ho, watchdogLoop_fired, ReservationSystem.firing,
            Beat.overdue?]
      · have hrun := exec_inTime cfg s₁ t' hf.top hf.waiting.1 hlast ho
        have hf' : Follows p t' k₁ { s₁ with log := s₁.log ++ [.looked t' last] } :=
          { hf with heard := by simpa [List.filterMap_cons, Beat.ping?] using hf.heard }
        obtain ⟨s', k', hrun', hping, hlog⟩ := ih hf' hts
        refine ⟨s', k', hrun₁.trans ((Runs.of_exec hrun).trans hrun'), hping, ?_⟩
        simpa [watchdogLoop, ← hseen, hlast, ho, List.filterMap_cons, Beat.overdue?] using hlog

end

/-- The backup of a sender calls `on_failure` at the times that `watchdogLoop` computes. -/
theorem firings_of_backup (cfg : Service) (p : HeartbeatSender) (w : WatchdogRun) :
    ∃ s k, Runs cfg (start cfg) s ∧ s.log.filterMap Beat.ping? = heardOf p k ∧
      s.log.filterMap Beat.overdue? = w.firings p := by
  have hsorted : w.ticks.IsChain (· ≤ ·) := by
    refine w.sleeps.imp fun t t' hle => ?_
    have hpos : (0 : ℚ) ≤ watchdogSleep := by norm_num [watchdogSleep]
    linarith
  have hstart (t : ℚ) : Follows p t 0 (start cfg) :=
    ⟨rfl, ⟨rfl, rfl, rfl⟩, fun _ _ => rfl, by simp, rfl, rfl⟩
  cases hticks : w.ticks with
  | nil =>
    exact ⟨start cfg, 0, .refl, rfl, by simp [WatchdogRun.firings, hticks, watchdogLoop, start]⟩
  | cons t ts =>
    obtain ⟨s, k, hrun, hping, hlog⟩ :=
      (hstart t).loop cfg (t :: ts) (List.isChain_cons_cons.mpr ⟨le_rfl, hticks ▸ hsorted⟩)
    exact ⟨s, k, hrun, hping, by simpa [WatchdogRun.firings, hticks, start] using hlog⟩

end BackupService

end ReservationSystem
