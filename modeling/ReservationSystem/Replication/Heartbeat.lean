import Mathlib.Algebra.Order.BigOperators.Group.List
import Mathlib.Data.Rat.Floor
import Mathlib.Tactic.Linarith
import ReservationSystem.Replication.Watchdog

/-!
# How many heartbeats a promotion needs

The loop of `HeartbeatSender.run` on the primary and the loop of the watchdog on the backup, on
one clock. The comment in `common/config.py` promises three missed heartbeats.
-/

namespace ReservationSystem

def heartbeatInterval : ℚ := 2

/-- `sock.settimeout(5.0)`, which holds for each operation on the socket. -/
def socketTimeout : ℚ := 5

/-- `time.sleep(0.5)`. -/
def watchdogSleep : ℚ := 1 / 2

/-! ## The sender -/

/-- One pass through the loop, up to `sock.close()`. `operations` says how long `connect`, the
send and each `recv` take, as far as it gets. `heard` says how long after the start of the pass
the backup calls `record_ping`. -/
structure Attempt where
  operations : List ℚ
  heard : Option ℚ
  timeouts : ∀ d ∈ operations, 0 ≤ d ∧ d ≤ socketTimeout
  inside : ∀ r ∈ heard, 0 ≤ r ∧ r ≤ operations.sum

def Attempt.duration (a : Attempt) : ℚ := a.operations.sum

theorem Attempt.duration_nonneg (a : Attempt) : 0 ≤ a.duration :=
  List.sum_nonneg fun d hd => (a.timeouts d hd).1

/-- A sender that nobody stops, from time `starts` on. -/
structure HeartbeatSender where
  starts : ℚ
  attempt : ℕ → Attempt

namespace HeartbeatSender

/-- When each pass of the loop begins. The one before it has ended and
`self._stop.wait(self.interval)` has returned. -/
def begins (p : HeartbeatSender) : ℕ → ℚ
  | 0 => p.starts
  | n + 1 => p.begins n + (p.attempt n).duration + heartbeatInterval

def ends (p : HeartbeatSender) (n : ℕ) : ℚ := p.begins n + (p.attempt n).duration

/-- When `record_ping` is called for an attempt. -/
def pinged (p : HeartbeatSender) (n : ℕ) : Option ℚ :=
  (p.attempt n).heard.map (p.begins n + ·)

/-- The last ping until `t` of the first `n` attempts. -/
def lastOf (p : HeartbeatSender) (t : ℚ) : ℕ → Option ℚ
  | 0 => none
  | n + 1 => ((p.pinged n).filter (· ≤ t)).or (p.lastOf t n)

/-- More attempts than this cannot have begun by `t`. -/
def begun (p : HeartbeatSender) (t : ℚ) : ℕ := ⌊(t - p.starts) / heartbeatInterval⌋₊ + 1

/-- `self.last_seen` of the monitor at time `t`. -/
def lastSeen (p : HeartbeatSender) (t : ℚ) : Option ℚ := p.lastOf t (p.begun t)

/-- Attempt `m` is the one whose ping was recorded last, at time `last`. -/
def IsLast (p : HeartbeatSender) (t : ℚ) (m : ℕ) (last : ℚ) : Prop :=
  p.pinged m = some last ∧ last ≤ t ∧ ∀ j > m, ∀ τ ∈ p.pinged j, t < τ

/-- At time `t`, three attempts in a row have failed since attempt `m`. -/
def MissedThree (p : HeartbeatSender) (t : ℚ) (m : ℕ) : Prop :=
  ∃ j > m, ∀ i < 3, (p.attempt (j + i)).heard = none ∧ p.ends (j + i) ≤ t

end HeartbeatSender

/-! ## The watchdog -/

/-- The iterations of the watchdog. -/
structure WatchdogRun where
  ticks : List ℚ
  sleeps : ticks.IsChain fun t t' => t + watchdogSleep ≤ t'

/-- `_watchdog_loop`, when `seen t` is `self.last_seen` at time `t`: the iterations that call
`on_failure`. -/
def watchdogLoop (seen : ℚ → Option ℚ) (fired : Bool) : List ℚ → List ℚ
  | [] => []
  | t :: ts =>
    match fired, seen t with
    | true, _ | _, none => watchdogLoop seen fired ts
    | false, some last =>
      if Overdue t last then t :: watchdogLoop seen true ts else watchdogLoop seen false ts

/-- When the watchdog calls `on_failure`. -/
def WatchdogRun.firings (w : WatchdogRun) (p : HeartbeatSender) : List ℚ :=
  watchdogLoop p.lastSeen false w.ticks

/-! ## When attempts begin and end -/

namespace HeartbeatSender

section
variable (p : HeartbeatSender)

theorem begins_ge (n : ℕ) : p.starts + n * heartbeatInterval ≤ p.begins n := by
  induction n with
  | zero => simp [begins]
  | succ n ih =>
    have hd := (p.attempt n).duration_nonneg
    rw [begins]
    push_cast
    linarith

theorem ends_succ (n : ℕ) :
    p.ends (n + 1) = p.ends n + heartbeatInterval + (p.attempt (n + 1)).duration := by
  simp only [ends, begins]

theorem ends_mono : Monotone p.ends := by
  refine monotone_nat_of_le_succ fun n => ?_
  have hd := (p.attempt (n + 1)).duration_nonneg
  have hpos : (0 : ℚ) ≤ heartbeatInterval := by norm_num [heartbeatInterval]
  rw [ends_succ]
  linarith

end

section
variable {p : HeartbeatSender} {t τ last : ℚ} {m n : ℕ}

theorem begins_le_of_pinged (h : p.pinged n = some τ) : p.begins n ≤ τ := by
  obtain ⟨r, hr, rfl⟩ := Option.map_eq_some_iff.mp h
  have := ((p.attempt n).inside r hr).1
  linarith

theorem le_ends_of_pinged (h : p.pinged n = some τ) : τ ≤ p.ends n := by
  obtain ⟨r, hr, rfl⟩ := Option.map_eq_some_iff.mp h
  have := ((p.attempt n).inside r hr).2
  unfold ends Attempt.duration
  linarith

theorem lt_begun (h : p.pinged n = some τ) (ht : τ ≤ t) : n < p.begun t := by
  have hge := p.begins_ge n
  have hle := begins_le_of_pinged h
  have hpos : (0 : ℚ) < heartbeatInterval := by norm_num [heartbeatInterval]
  refine Nat.lt_succ_of_le (Nat.le_floor ?_)
  rw [le_div_iff₀ hpos]
  linarith

theorem lastOf_eq_some (h : p.lastOf t n = some last) :
    ∃ m, p.pinged m = some last ∧ last ≤ t ∧ ∀ j > m, j < n → ∀ τ ∈ p.pinged j, t < τ := by
  induction n with
  | zero => simp [lastOf] at h
  | succ n ih =>
    rcases Option.or_eq_some_iff.mp h with hn | ⟨hn, h⟩
    · obtain ⟨hping, hle⟩ := Option.filter_eq_some_iff.mp hn
      exact ⟨n, hping, by simpa using hle, fun j hj hlt => by omega⟩
    · obtain ⟨m, hping, hle, hlater⟩ := ih h
      refine ⟨m, hping, hle, fun j hj hlt τ hτ => ?_⟩
      rcases Nat.lt_succ_iff_lt_or_eq.mp hlt with hlt | rfl
      · exact hlater j hj hlt τ hτ
      · exact not_le.mp fun hle => by
          simp [Option.filter_eq_none_iff] at hn
          exact absurd hle (not_le.mpr (hn τ hτ))

theorem isLast_of_lastSeen (h : p.lastSeen t = some last) : ∃ m, p.IsLast t m last := by
  obtain ⟨m, hping, hle, hlater⟩ := lastOf_eq_some h
  refine ⟨m, hping, hle, fun j hj τ hτ => ?_⟩
  by_cases hlt : j < p.begun t
  · exact hlater j hj hlt τ hτ
  · exact not_le.mp fun hle => hlt (lt_begun hτ hle)

/-- Three attempts have failed since the last ping, exactly when the third one after it has
ended. -/
theorem missedThree_iff (h : p.IsLast t m last) : p.MissedThree t m ↔ p.ends (m + 3) ≤ t := by
  constructor
  · rintro ⟨j, hj, hmiss⟩
    have hend := (hmiss 2 (by decide)).2
    exact (p.ends_mono (by omega)).trans hend
  · intro hend
    refine ⟨m + 1, by omega, fun i hi => ?_⟩
    have hle : p.ends (m + 1 + i) ≤ t := (p.ends_mono (by omega)).trans hend
    refine ⟨?_, hle⟩
    cases hh : (p.attempt (m + 1 + i)).heard with
    | none => rfl
    | some r =>
      have hping : p.pinged (m + 1 + i) = some (p.begins (m + 1 + i) + r) := by simp [pinged, hh]
      have hlate := h.2.2 (m + 1 + i) (by omega) _ hping
      have := le_ends_of_pinged hping
      linarith

end

end HeartbeatSender

/-! ## The theorem -/

theorem mem_watchdogLoop {seen : ℚ → Option ℚ} {fired : Bool} {ts : List ℚ} {t : ℚ}
    (h : t ∈ watchdogLoop seen fired ts) : ∃ last, seen t = some last ∧ Overdue t last := by
  fun_induction watchdogLoop seen fired ts with
  | case1 => simp at h
  | case2 _ _ ih => exact ih h
  | case3 _ _ _ _ _ ih => exact ih h
  | case4 t' ts last hseen ho ih =>
    rcases List.mem_cons.mp h with rfl | h
    · exact ⟨last, hseen, ho⟩
    · exact ih h
  | case5 _ _ _ _ _ ih => exact ih h

open HeartbeatSender in
/-- At a call of `on_failure`, three attempts in a row have failed since the last ping exactly
when the silence is long enough for three waits, the rest of the attempt with that ping and the
next three attempts. -/
theorem fires_after_three_iff (p : HeartbeatSender) (w : WatchdogRun) (t : ℚ)
    (ht : t ∈ w.firings p) :
    ∃ m last, p.IsLast t m last ∧
      (p.MissedThree t m ↔
        (p.ends m - last) + (p.attempt (m + 1)).duration + (p.attempt (m + 2)).duration +
          (p.attempt (m + 3)).duration ≤ (t - last) - 3 * heartbeatInterval) := by
  obtain ⟨last, hseen, -⟩ := mem_watchdogLoop ht
  obtain ⟨m, hlast⟩ := isLast_of_lastSeen hseen
  refine ⟨m, last, hlast, ?_⟩
  rw [missedThree_iff hlast, ends_succ, ends_succ, ends_succ]
  constructor <;> intro h <;> linarith

/-- The attempts of `p`, when attempt 0 is heard at once and the others fail. Each takes what
`d` says. -/
def lastWords (d : ℚ) (hd : 0 ≤ d ∧ d ≤ socketTimeout) : HeartbeatSender where
  starts := 0
  attempt
    | 0 => ⟨[], some 0, by simp, by simp⟩
    | _ + 1 => ⟨[d], none, by simpa using hd, by simp⟩

/-- Iterations at 6 and at 6.5. -/
def twoTicks : WatchdogRun := ⟨[6, 13 / 2], by norm_num [watchdogSleep]⟩

theorem lastWords_lastSeen {d t : ℚ} (hd : 0 ≤ d ∧ d ≤ socketTimeout) (ht : 0 ≤ t) :
    (lastWords d hd).lastSeen t = some 0 := by
  unfold HeartbeatSender.lastSeen HeartbeatSender.begun
  generalize ⌊(t - (lastWords d hd).starts) / heartbeatInterval⌋₊ = n
  induction n with
  | zero =>
    simp [HeartbeatSender.lastOf, HeartbeatSender.pinged, HeartbeatSender.begins, lastWords, ht]
  | succ n ih =>
    rw [HeartbeatSender.lastOf, ih]
    simp [HeartbeatSender.pinged, lastWords]

theorem lastWords_firings {d : ℚ} (hd : 0 ≤ d ∧ d ≤ socketTimeout) :
    13 / 2 ∈ twoTicks.firings (lastWords d hd) := by
  have h6 : ¬ Overdue 6 0 := by norm_num [Overdue, heartbeatTimeout]
  have h65 : Overdue (13 / 2) 0 := by norm_num [Overdue, heartbeatTimeout]
  have hseen := lastWords_lastSeen hd (t := 6) (by norm_num)
  have hseen' := lastWords_lastSeen hd (t := 13 / 2) (by norm_num)
  simp [WatchdogRun.firings, twoTicks, watchdogLoop, hseen, hseen', h6, h65]

/-- Nothing listens on the port any more. -/
def refused : HeartbeatSender := lastWords 0 (by norm_num [socketTimeout])

theorem fires_after_three_iff_refused :
    ∃ m last, refused.IsLast (13 / 2) m last ∧
      (refused.ends m - last) + (refused.attempt (m + 1)).duration +
          (refused.attempt (m + 2)).duration + (refused.attempt (m + 3)).duration ≤
        (13 / 2 - last) - 3 * heartbeatInterval ∧
      refused.MissedThree (13 / 2) m := by
  obtain ⟨m, last, hlast, hiff⟩ := fires_after_three_iff refused twoTicks _ (lastWords_firings _)
  -- Only attempt 0 is heard.
  obtain ⟨rfl, rfl⟩ : m = 0 ∧ last = 0 := by
    have hping := hlast.1
    cases m with
    | zero =>
      simp only [HeartbeatSender.pinged, HeartbeatSender.begins, refused, lastWords,
        Option.map_some, add_zero, Option.some.injEq] at hping
      exact ⟨rfl, hping.symm⟩
    | succ m => simp [HeartbeatSender.pinged, refused, lastWords] at hping
  have hshort : (refused.ends 0 - 0) + (refused.attempt 1).duration +
      (refused.attempt 2).duration + (refused.attempt 3).duration ≤
        (13 / 2 - 0) - 3 * heartbeatInterval := by
    norm_num [HeartbeatSender.ends, HeartbeatSender.begins, Attempt.duration, refused, lastWords,
      heartbeatInterval]
  exact ⟨0, 0, hlast, hshort, hiff.mpr hshort⟩

open HeartbeatSender in
/-- Each `connect` after the first ping times out. The first one is still on its way. -/
theorem fires_early : ¬ ∀ (p : HeartbeatSender) (w : WatchdogRun) (t : ℚ), t ∈ w.firings p →
    ∀ m last, p.IsLast t m last → p.MissedThree t m := by
  intro hall
  have hd : 0 ≤ socketTimeout ∧ socketTimeout ≤ socketTimeout := by norm_num [socketTimeout]
  have hlast : (lastWords socketTimeout hd).IsLast (13 / 2) 0 0 := by
    refine ⟨by simp [pinged, begins, lastWords], by norm_num, fun j hj τ hτ => ?_⟩
    obtain ⟨j, rfl⟩ := Nat.exists_eq_succ_of_ne_zero hj.ne'
    simp [pinged, lastWords] at hτ
  have hmiss := hall _ twoTicks _ (lastWords_firings hd) 0 0 hlast
  rw [missedThree_iff hlast] at hmiss
  norm_num [ends, begins, Attempt.duration, lastWords, heartbeatInterval, socketTimeout] at hmiss

end ReservationSystem
