import Mathlib.Data.List.Chain
import ReservationSystem.Replication.Timeline

/-!
# What the watchdog can tell from the silence

It never fires at a primary whose pings follow one another closely enough, and it finds a primary
that has gone silent.
-/

namespace ReservationSystem

namespace HeartbeatSender

/-- If attempt `n` was heard, then another one was before the timeout. -/
def Followed (p : HeartbeatSender) (n : ℕ) : Prop :=
  ∀ last ∈ p.pinged n, ∃ j > n, ∃ τ ∈ p.pinged j, τ ≤ last + heartbeatTimeout

variable {p : HeartbeatSender} {t t' last last' τ : ℚ} {j m n : ℕ}

/-! ## The last ping -/

theorem IsLast.unique (h : p.IsLast t m last) (h' : p.IsLast t n last') : last = last' := by
  obtain ⟨hm, hle, hlater⟩ := h
  obtain ⟨hn, hle', hlater'⟩ := h'
  rcases Nat.lt_trichotomy m n with hlt | rfl | hlt
  · exact absurd hle' (not_le.mpr (hlater n hlt last' hn))
  · exact Option.some.inj (hm.symm.trans hn)
  · exact absurd hle (not_le.mpr (hlater' m hlt last hm))

theorem lastOf_ne_none (hj : p.pinged j = some τ) (ht : τ ≤ t) (hn : j < n) :
    p.lastOf t n ≠ none := by
  induction n with
  | zero => omega
  | succ n ih =>
    rw [lastOf]
    intro hnone
    obtain ⟨hn', hrest⟩ := Option.or_eq_none_iff.mp hnone
    rcases Nat.lt_succ_iff_lt_or_eq.mp hn with hlt | rfl
    · exact ih hlt hrest
    · rw [hj, Option.filter_some, if_pos (by simpa using ht)] at hn'
      cases hn'

theorem IsLast.lastSeen_eq (h : p.IsLast t m last) : p.lastSeen t = some last := by
  have hne : p.lastSeen t ≠ none := lastOf_ne_none h.1 h.2.1 (lt_begun h.1 h.2.1)
  obtain ⟨last', hseen⟩ := Option.ne_none_iff_exists'.mp hne
  obtain ⟨n, hlast⟩ := isLast_of_lastSeen hseen
  rw [hseen, h.unique hlast]

/-- Nobody can be missing at `t` a ping that was followed in time. -/
theorem IsLast.not_overdue (h : p.IsLast t m last) (hf : p.Followed m) : ¬ Overdue t last := by
  intro ho
  obtain ⟨j, hj, τ, hτ, hle⟩ := hf last h.1
  have hlater := h.2.2 j hj τ hτ
  unfold Overdue at ho
  linarith

/-! ## No false alarm -/

/-- Attempts that are heard and take no longer than an interval. -/
theorem followed_of_prompt (hheard : (p.attempt (n + 1)).heard ≠ none)
    (hn : (p.attempt n).duration ≤ heartbeatInterval)
    (hn' : (p.attempt (n + 1)).duration ≤ heartbeatInterval) : p.Followed n := by
  intro last hlast
  obtain ⟨r, hr⟩ := Option.ne_none_iff_exists'.mp hheard
  have hping : p.pinged (n + 1) = some (p.begins (n + 1) + r) := by simp [pinged, hr]
  refine ⟨n + 1, by omega, _, hping, ?_⟩
  have hle := le_ends_of_pinged hping
  have hbegin := begins_le_of_pinged hlast
  rw [ends_succ, ends] at hle
  unfold heartbeatInterval at *
  unfold heartbeatTimeout
  linarith

/-- A moment of silence after a ping that was not followed. -/
theorem exists_overdue (hm : p.pinged m = some last)
    (hno : ∀ j > m, ∀ τ ∈ p.pinged j, last + heartbeatTimeout < τ) :
    ∃ t, p.IsLast t m last ∧ Overdue t last := by
  have hpos : (0 : ℚ) < heartbeatTimeout := by norm_num [heartbeatTimeout]
  by_cases hlater : ∃ j > m, p.pinged j ≠ none
  · -- The next ping is the earliest of those to come, and the moment lies before it.
    obtain ⟨hgt, hne⟩ := Nat.find_spec hlater
    obtain ⟨τ, hτ⟩ := Option.ne_none_iff_exists'.mp hne
    have hlate := hno _ hgt τ hτ
    refine ⟨(last + heartbeatTimeout + τ) / 2, ⟨hm, by linarith, fun j hj τ' hτ' => ?_⟩, ?_⟩
    · have hle : Nat.find hlater ≤ j := Nat.find_min' hlater ⟨hj, by simp [Option.mem_def.mp hτ']⟩
      have hττ' : τ ≤ τ' := by
        rcases Nat.eq_or_lt_of_le hle with heq | hlt
        · rw [heq] at hτ
          exact (Option.some.inj (hτ.symm.trans hτ')).le
        · exact (BackupService.pinged_lt hlt hτ hτ').le
      linarith
    · unfold Overdue
      linarith
  · refine ⟨last + heartbeatTimeout + 1, ⟨hm, by linarith, fun j hj τ hτ => ?_⟩, ?_⟩
    · exact absurd ⟨j, hj, by simp [Option.mem_def.mp hτ]⟩ hlater
    · unfold Overdue
      linarith

/-- No watchdog takes the primary for dead, whenever it looks, exactly when each ping is followed
by another one within the timeout. -/
theorem never_fires_iff (p : HeartbeatSender) :
    (∀ w : WatchdogRun, w.firings p = []) ↔ ∀ n, p.Followed n := by
  constructor
  · intro hquiet n last hlast
    by_contra hno
    push Not at hno
    obtain ⟨t, ht, ho⟩ := exists_overdue hlast hno
    have hfires := hquiet ⟨[t], .singleton t⟩
    simp [WatchdogRun.firings, watchdogLoop, ht.lastSeen_eq, ho] at hfires
  · intro hf w
    by_contra hne
    obtain ⟨t, ht⟩ := List.exists_mem_of_ne_nil _ hne
    obtain ⟨last, hseen, ho⟩ := mem_watchdogLoop ht
    obtain ⟨m, hlast⟩ := isLast_of_lastSeen hseen
    exact hlast.not_overdue (hf m) ho

/-! ## A crash is found -/

/-- Nothing is heard of the primary after attempt `m`, and until then its pings followed one
another. -/
structure CrashesAfter (p : HeartbeatSender) (m : ℕ) (last : ℚ) : Prop where
  heard : p.pinged m = some last
  silent : ∀ j > m, (p.attempt j).heard = none
  before : ∀ n < m, p.Followed n

theorem CrashesAfter.overdue_iff (h : p.CrashesAfter m last) (t : ℚ) :
    (∃ l, p.lastSeen t = some l ∧ Overdue t l) ↔ last + heartbeatTimeout < t := by
  have hpos : (0 : ℚ) < heartbeatTimeout := by norm_num [heartbeatTimeout]
  have hsilent (j : ℕ) (hj : j > m) : p.pinged j = none := by simp [pinged, h.silent j hj]
  constructor
  · rintro ⟨l, hseen, ho⟩
    obtain ⟨n, hlast⟩ := isLast_of_lastSeen hseen
    rcases Nat.lt_trichotomy n m with hlt | rfl | hgt
    · exact absurd ho (hlast.not_overdue (h.before n hlt))
    · obtain rfl := Option.some.inj (h.heard.symm.trans hlast.1)
      unfold Overdue at ho
      linarith
    · cases (hsilent n hgt).symm.trans hlast.1
  · intro ht
    have hlast : p.IsLast t m last := by
      refine ⟨h.heard, by linarith, fun j hj τ hτ => ?_⟩
      rw [hsilent j hj] at hτ
      cases hτ
    exact ⟨last, hlast.lastSeen_eq, by unfold Overdue; linarith⟩

end HeartbeatSender

/-- When the silence has a bound, the loop fires at the first look behind it. -/
theorem watchdogLoop_eq_find? {seen : ℚ → Option ℚ} {bound : ℚ}
    (h : ∀ t, (∃ l, seen t = some l ∧ Overdue t l) ↔ bound < t) (ts : List ℚ) :
    watchdogLoop seen false ts = (ts.find? (bound < ·)).toList := by
  induction ts with
  | nil => rfl
  | cons t ts ih =>
    by_cases hlt : bound < t
    · obtain ⟨l, hseen, ho⟩ := (h t).mpr hlt
      simp [watchdogLoop, hseen, ho, BackupService.watchdogLoop_fired, hlt]
    · rw [List.find?_cons_of_neg (by simpa using hlt), ← ih]
      cases hseen : seen t with
      | none => simp only [watchdogLoop, hseen]
      | some l =>
        have ho : ¬ Overdue t l := fun ho => hlt ((h t).mp ⟨l, hseen, ho⟩)
        simp only [watchdogLoop, hseen, if_neg ho]

/-- The first look behind a bound comes at most one gap after it. -/
theorem find?_le_of_isChain {bound δ t : ℚ} {ts : List ℚ}
    (hgaps : ts.IsChain fun t t' => t' ≤ t + δ) (hfirst : ∀ t₀ ∈ ts.head?, t₀ ≤ bound)
    (h : ts.find? (bound < ·) = some t) :
    t ≤ bound + δ := by
  obtain ⟨hlt, as, bs, rfl, has⟩ := List.find?_eq_some_iff_append.mp h
  have hlt : bound < t := by simpa using hlt
  rcases List.eq_nil_or_concat as with rfl | ⟨as, t', rfl⟩
  · exact absurd hlt (not_lt.mpr (hfirst t rfl))
  · have ht' : t' ≤ bound := by simpa using has t' (by simp)
    have hgap : t ≤ t' + δ := by
      rw [List.concat_eq_append, List.append_assoc] at hgaps
      exact (List.isChain_cons_cons.mp hgaps.right_of_append).1
    linarith

/-- A primary whose pings followed one another, and that then goes silent, is found once. That is
not before its last ping is overdue, and at the first look after it. -/
theorem detects_crash (p : HeartbeatSender) (w : WatchdogRun) (m : ℕ) (last δ : ℚ)
    (hp : p.CrashesAfter m last) (hgaps : w.ticks.IsChain fun t t' => t' ≤ t + δ)
    (hfirst : ∀ t ∈ w.ticks.head?, t ≤ last + heartbeatTimeout)
    (hlong : ∃ t ∈ w.ticks, last + heartbeatTimeout < t) :
    ∃ t, w.firings p = [t] ∧ last + heartbeatTimeout < t ∧ t ≤ last + heartbeatTimeout + δ := by
  have hloop := watchdogLoop_eq_find? hp.overdue_iff w.ticks
  cases hfind : w.ticks.find? (last + heartbeatTimeout < ·) with
  | none =>
    obtain ⟨t, ht, hlt⟩ := hlong
    exact absurd hlt (by simpa using List.find?_eq_none.mp hfind t ht)
  | some t =>
    rw [hfind] at hloop
    exact ⟨t, hloop, by simpa using List.find?_some hfind, find?_le_of_isChain hgaps hfirst hfind⟩

/-- A primary that sends three heartbeats, each within a second, and is gone. -/
def threeBeats : HeartbeatSender where
  starts := 0
  attempt n :=
    ⟨[1], if n < 3 then some 1 else none, by simp [socketTimeout], by
      intro r hr
      split at hr
      · obtain rfl := Option.some.inj hr
        norm_num
      · cases hr⟩

theorem detects_crash_threeBeats : ∃ t, (⟨[12, 13, 27 / 2], by norm_num [watchdogSleep]⟩ :
    WatchdogRun).firings threeBeats = [t] ∧ 13 < t ∧ t ≤ 13 + 1 := by
  have hp : threeBeats.CrashesAfter 2 7 := by
    refine ⟨?_, fun j hj => if_neg (by omega), fun n hn => ?_⟩
    · norm_num [HeartbeatSender.pinged, HeartbeatSender.begins, Attempt.duration, threeBeats,
        heartbeatInterval]
    · apply HeartbeatSender.followed_of_prompt
      · simp [threeBeats]
        omega
      all_goals norm_num [threeBeats, Attempt.duration, heartbeatInterval]
  have h := detects_crash threeBeats ⟨[12, 13, 27 / 2], by norm_num [watchdogSleep]⟩ 2 7 1 hp
    (by norm_num) (by norm_num [heartbeatTimeout]) (by norm_num [heartbeatTimeout])
  norm_num [heartbeatTimeout] at h ⊢
  exact h

end ReservationSystem
