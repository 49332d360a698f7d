import Mathlib.Tactic.NormNum
import ReservationSystem.Lib.Machine
import ReservationSystem.Node.Steps
import ReservationSystem.Replication.Backup

/-!
# The watchdog fires once

Its entries in the log are looks that found the primary alive, and then at most one call. `Stage`
says how far that call is.
-/

namespace ReservationSystem

/-! ## Reading the log -/

def Beat.ping? : Beat → Option ℚ
  | .pinged t => some t
  | _ => none

/-- The watchdog has looked at the clock, or is in `on_failure`. -/
def Beat.IsWatch : Beat → Bool
  | .looked _ _ | .invoked | .returned => true
  | _ => false

def Beat.InTime : Beat → Prop
  | .looked now last => ¬ Overdue now last
  | _ => False

/-- The most recently recorded ping. -/
def lastPing (l : List Beat) : Option ℚ := (l.filterMap Beat.ping?).getLast?

/-- Why a beat can follow on `l`. -/
def Beat.Because (l : List Beat) : Beat → Prop
  | .looked _ last => lastPing l = some last
  | .idled => lastPing l = none ∨ .returned ∈ l
  | _ => True

/-- An iteration that fires, after its look at the clock. -/
def firing (now last : ℚ) : List Beat := [.looked now last, .invoked, .returned]

@[simp]
theorem lastPing_append (l : List Beat) (m : Beat) :
    lastPing (l ++ [m]) = m.ping?.or (lastPing l) := by
  cases m <;> simp [lastPing, Beat.ping?]

namespace BackupService

/-! ## One iteration -/

/-- `_fired`, `back_up` and `_is_promoted_primary`. -/
def Flags (s : BackupService) (fired backUp promoted : Bool) : Prop :=
  s.fired = fired ∧ s.svc.backUp = backUp ∧ s.svc.isPromotedPrimary = promoted

/-- The beats of the watchdog since it last found the primary alive. -/
inductive Stage (s : BackupService) : List Beat → Prop
  | waiting (hf : s.Flags false true false) (hw : s.watchdog = .top) : Stage s []
  | armed (last : ℚ) (hf : s.Flags false true false) (hl : s.lastSeen = some last)
      (hw : s.watchdog = .armed) : Stage s []
  | clocked (now last : ℚ) (hf : s.Flags false true false) (hl : s.lastSeen = some last)
      (hw : s.watchdog = .clocked now) : Stage s []
  | overdue (now last : ℚ) (ho : Overdue now last) (hf : s.Flags false true false)
      (hw : s.watchdog = .overdue) : Stage s [.looked now last]
  | firing (now last : ℚ) (ho : Overdue now last) (hf : s.Flags true true false)
      (hw : s.watchdog = .firing) : Stage s [.looked now last]
  | called (now last : ℚ) (ho : Overdue now last) (hf : s.Flags true true false)
      (hw : s.watchdog = .called) : Stage s [.looked now last, .invoked]
  | marked (now last : ℚ) (ho : Overdue now last) (hf : s.Flags true true true)
      (hw : s.watchdog = .marked) : Stage s [.looked now last, .invoked]
  | switched (now last : ℚ) (ho : Overdue now last) (hf : s.Flags true false true)
      (hw : s.watchdog = .switched) : Stage s [.looked now last, .invoked]
  | detached (now last : ℚ) (ho : Overdue now last) (hf : s.Flags true false true)
      (hw : s.watchdog = .detached) : Stage s [.looked now last, .invoked]
  | ended (now last : ℚ) (ho : Overdue now last) (hf : s.Flags true false true)
      (hw : s.watchdog = .top) : Stage s (ReservationSystem.firing now last)

section
variable {cfg : Service} {s s' : BackupService} {late : List Beat}

theorem Flags.of_eq {f b p : Bool} (hf : s.Flags f b p) (hfired : s'.fired = s.fired)
    (hback : s'.svc.backUp = s.svc.backUp)
    (hprom : s'.svc.isPromotedPrimary = s.svc.isPromotedPrimary) : s'.Flags f b p :=
  ⟨hfired.trans hf.1, hback.trans hf.2.1, hprom.trans hf.2.2⟩

/-- Nobody but the watchdog moves the watchdog. -/
theorem Stage.of_eq (h : s.Stage late) (hw : s'.watchdog = s.watchdog)
    (hfired : s'.fired = s.fired) (hback : s'.svc.backUp = s.svc.backUp)
    (hprom : s'.svc.isPromotedPrimary = s.svc.isPromotedPrimary)
    (hseen : s.lastSeen.isSome → s'.lastSeen.isSome) : s'.Stage late := by
  have hflags {f b p : Bool} (hf : s.Flags f b p) : s'.Flags f b p := hf.of_eq hfired hback hprom
  cases h with
  | waiting hf hs => exact .waiting (hflags hf) (hw.trans hs)
  | armed last hf hl hs =>
    obtain ⟨last', hl'⟩ := Option.isSome_iff_exists.mp (hseen (by simp [hl]))
    exact .armed last' (hflags hf) hl' (hw.trans hs)
  | clocked now last hf hl hs =>
    obtain ⟨last', hl'⟩ := Option.isSome_iff_exists.mp (hseen (by simp [hl]))
    exact .clocked now last' (hflags hf) hl' (hw.trans hs)
  | overdue now last ho hf hs => exact .overdue now last ho (hflags hf) (hw.trans hs)
  | firing now last ho hf hs => exact .firing now last ho (hflags hf) (hw.trans hs)
  | called now last ho hf hs => exact .called now last ho (hflags hf) (hw.trans hs)
  | marked now last ho hf hs => exact .marked now last ho (hflags hf) (hw.trans hs)
  | switched now last ho hf hs => exact .switched now last ho (hflags hf) (hw.trans hs)
  | detached now last ho hf hs => exact .detached now last ho (hflags hf) (hw.trans hs)
  | ended now last ho hf hs => exact .ended now last ho (hflags hf) (hw.trans hs)

/-- What one step of the watchdog writes into the log. -/
inductive Moves (s s' : BackupService) (late : List Beat) : Prop
  | silent (hlog : s'.log = s.log) (hst : s'.Stage late)
  | idled (hlog : s'.log = s.log ++ [.idled]) (hwhy : s.lastSeen = none ∨ .returned ∈ late)
      (hst : s'.Stage late)
  | inTime (now last : ℚ) (hlog : s'.log = s.log ++ [.looked now last])
      (hlast : s.lastSeen = some last) (hin : ¬ Overdue now last) (hlate : late = [])
      (hst : s'.Stage [])
  | looked (now last : ℚ) (hlog : s'.log = s.log ++ [.looked now last])
      (hlast : s.lastSeen = some last) (hst : s'.Stage (late ++ [.looked now last]))
  | called (m : Beat) (hm : m = .invoked ∨ m = .returned) (hlog : s'.log = s.log ++ [m])
      (hst : s'.Stage (late ++ [m]))

theorem watch_lastSeen {t : ℚ} (hs : s.watch cfg t = some s') : s'.lastSeen = s.lastSeen := by
  unfold watch at hs
  split at hs
  case h_3 =>
    obtain ⟨last, -, rfl⟩ := Option.map_eq_some_iff.mp hs
    rfl
  all_goals
    try split_ifs at hs
    all_goals
      obtain rfl := Option.some.inj hs
      rfl

theorem stage_watch (cfg : Service) (t : ℚ) (h : s.Stage late) :
    ∃ s', s.watch cfg t = some s' ∧ Moves s s' late := by
  cases h with
  | waiting hf hw =>
    cases hl : s.lastSeen with
    | none =>
      exact ⟨{ s with log := s.log ++ [.idled] }, by simp [watch, hw, hl],
        .idled rfl (.inl hl) (.waiting hf hw)⟩
    | some last =>
      exact ⟨{ s with watchdog := .armed }, by simp [watch, hw, hl, hf.1],
        .silent rfl (.armed last hf hl rfl)⟩
  | armed last hf hl hw =>
    exact ⟨{ s with watchdog := .clocked t }, by simp [watch, hw],
      .silent rfl (.clocked t last hf hl rfl)⟩
  | clocked now last hf hl hw =>
    by_cases ho : Overdue now last
    · exact ⟨{ s with watchdog := .overdue, log := s.log ++ [.looked now last] },
        by simp [watch, hw, hl, ho], .looked now last rfl hl (.overdue now last ho hf rfl)⟩
    · exact ⟨{ s with watchdog := .top, log := s.log ++ [.looked now last] },
        by simp [watch, hw, hl, ho], .inTime now last rfl hl ho rfl (.waiting hf rfl)⟩
  | overdue now last ho hf hw =>
    exact ⟨{ s with fired := true, watchdog := .firing }, by simp [watch, hw],
      .silent rfl (.firing now last ho ⟨rfl, hf.2.1, hf.2.2⟩ rfl)⟩
  | firing now last ho hf hw =>
    exact ⟨{ s with watchdog := .called, log := s.log ++ [.invoked] }, by simp [watch, hw],
      .called .invoked (.inl rfl) rfl (.called now last ho hf rfl)⟩
  | called now last ho hf hw =>
    exact ⟨{ s with svc := { s.svc with isPromotedPrimary := true }, watchdog := .marked },
      by simp [watch, hw, hf.2.2],
      .silent rfl (.marked now last ho ⟨hf.1, hf.2.1, rfl⟩ rfl)⟩
  | marked now last ho hf hw =>
    exact ⟨{ s with svc := { s.svc with backUp := false }, watchdog := .switched },
      by simp [watch, hw],
      .silent rfl (.switched now last ho ⟨hf.1, rfl, hf.2.2⟩ rfl)⟩
  | switched now last ho hf hw =>
    exact ⟨{ s with onHeartbeat := false, watchdog := .detached }, by simp [watch, hw],
      .silent rfl (.detached now last ho hf rfl)⟩
  | detached now last ho hf hw =>
    refine ⟨{ s with
      svc := { s.svc with replicator := cfg.backupTarget.or s.svc.replicator }
      watchdog := .top
      log := s.log ++ [.returned] }, by simp [watch, hw], ?_⟩
    exact .called .returned (.inr rfl) rfl (.ended now last ho hf rfl)
  | ended now last ho hf hw =>
    exact ⟨{ s with log := s.log ++ [.idled] }, by simp [watch, hw, hf.1],
      .idled rfl (.inr (by simp [ReservationSystem.firing])) (.ended now last ho hf hw)⟩

/-! ## The other threads -/

theorem step_flags {cfg : Service} {s s' : Node} {e : Node.Event}
    (hs : s.step cfg e = some s') (he : e ≠ .promote) :
    s'.backUp = s.backUp ∧ s'.isPromotedPrimary = s.isPromotedPrimary := by
  cases Node.step_spec hs with
  | receive => exact ⟨rfl, rfl⟩
  | refuse => exact ⟨rfl, rfl⟩
  | act h hd a s' hh ha => cases ha <;> exact ⟨rfl, rfl⟩
  | promote => exact absurd rfl he

/-- What a request or a heartbeat can do to the watchdog. -/
structure Elsewhere (s s' : BackupService) : Prop where
  watchdog : s'.watchdog = s.watchdog
  fired : s'.fired = s.fired
  flags : s'.svc.backUp = s.svc.backUp ∧ s'.svc.isPromotedPrimary = s.svc.isPromotedPrimary
  ping : s'.log = s.log ∧ s'.lastSeen = s.lastSeen ∨
    ∃ t, s'.log = s.log ++ [.pinged t] ∧ s'.lastSeen = some t

theorem handle_spec {n : Nat} {t : ℚ} {p : Ping} (hs : s.handle n t p = some s') :
    Elsewhere s s' := by
  cases p with
  | timed t' =>
    obtain rfl := Option.some.inj hs
    exact ⟨rfl, rfl, ⟨rfl, rfl⟩, .inr ⟨t', rfl, rfl⟩⟩
  | done resp => simp [handle] at hs
  | received | checked | entered =>
    obtain rfl := Option.some.inj hs
    exact ⟨rfl, rfl, ⟨rfl, rfl⟩, .inl ⟨rfl, rfl⟩⟩

theorem step_spec {e : Event} (hs : s.step cfg e = some s') :
    (∃ t, s.watch cfg t = some s') ∨ Elsewhere s s' := by
  unfold step at hs
  split at hs
  case h_1 => simp at hs
  case h_2 e he =>
    obtain ⟨svc, hsvc, rfl⟩ := Option.map_eq_some_iff.mp hs
    exact .inr ⟨rfl, rfl, step_flags hsvc he, .inl ⟨rfl, rfl⟩⟩
  case h_3 n =>
    split at hs
    · obtain rfl := Option.some.inj hs
      exact .inr ⟨rfl, rfl, ⟨rfl, rfl⟩, .inl ⟨rfl, rfl⟩⟩
    · simp at hs
  case h_4 n t =>
    obtain ⟨p, -, hp⟩ := Option.bind_eq_some_iff.mp hs
    exact .inr (handle_spec hp)
  case h_5 t => exact .inl ⟨t, hs⟩

/-! ## Whole runs -/

/-- The watchdog's beats are looks in time, and then `late`. -/
def EndsIn (log late : List Beat) : Prop :=
  ∃ early, log.filter Beat.IsWatch = early ++ late ∧ ∀ m ∈ early, m.InTime

structure Inv (s : BackupService) (late : List Beat) : Prop where
  last : s.lastSeen = lastPing s.log
  because : ∀ l m, l ++ [m] <+: s.log → m.Because l
  ends : EndsIn s.log late
  stage : s.Stage late

theorem EndsIn.append {log : List Beat} {m : Beat} (h : EndsIn log late)
    (hm : m.IsWatch = true) : EndsIn (log ++ [m]) (late ++ [m]) := by
  obtain ⟨early, heq, hin⟩ := h
  exact ⟨early, by simp [heq, hm], hin⟩

theorem EndsIn.skip {log : List Beat} {m : Beat} (h : EndsIn log late)
    (hm : m.IsWatch = false) : EndsIn (log ++ [m]) late := by
  obtain ⟨early, heq, hin⟩ := h
  exact ⟨early, by simp [heq, hm], hin⟩

theorem EndsIn.inTime {log : List Beat} {m : Beat} (h : EndsIn log []) (hm : m.InTime) :
    EndsIn (log ++ [m]) [] := by
  obtain ⟨early, heq, hin⟩ := h
  have hwatch : m.IsWatch = true := by
    cases m with
    | looked => rfl
    | pinged | idled | invoked | returned => exact hm.elim
  refine ⟨early ++ [m], by simpa [hwatch] using heq, fun m' hm' => ?_⟩
  rcases List.mem_append.mp hm' with h' | h'
  · exact hin m' h'
  · rwa [List.mem_singleton.mp h']

theorem EndsIn.mem {log : List Beat} {m : Beat} (h : EndsIn log late) (hm : m ∈ late) :
    m ∈ log := by
  obtain ⟨early, heq, -⟩ := h
  have : m ∈ log.filter Beat.IsWatch := heq ▸ List.mem_append_right early hm
  exact (List.mem_filter.mp this).1

theorem because_append {log : List Beat} {m : Beat}
    (h : ∀ l x, l ++ [x] <+: log → x.Because l) (hm : m.Because log) :
    ∀ l x, l ++ [x] <+: log ++ [m] → x.Because l := by
  intro l x hl
  rcases List.prefix_concat_iff.mp hl with heq | hl
  · obtain ⟨rfl, hx⟩ := List.append_inj' heq rfl
    obtain rfl := List.singleton_inj.mp hx
    exact hm
  · exact h l x hl

theorem inv_start : (start cfg).Inv [] where
  last := rfl
  because l m hl := by simp [start] at hl
  ends := ⟨[], rfl, by simp⟩
  stage := .waiting ⟨rfl, rfl, rfl⟩ rfl

theorem inv_elsewhere (hi : s.Inv late) (h : Elsewhere s s') : s'.Inv late := by
  rcases h.ping with ⟨hlog, hlast⟩ | ⟨t, hlog, hlast⟩
  · exact
      { last := by rw [hlast, hlog, hi.last]
        because := by rw [hlog]; exact hi.because
        ends := by rw [hlog]; exact hi.ends
        stage := hi.stage.of_eq h.watchdog h.fired h.flags.1 h.flags.2 (by simp [hlast]) }
  · exact
      { last := by simp [hlast, hlog, Beat.ping?]
        because := by rw [hlog]; exact because_append hi.because trivial
        ends := by rw [hlog]; exact hi.ends.skip rfl
        stage := hi.stage.of_eq h.watchdog h.fired h.flags.1 h.flags.2 (by simp [hlast]) }

theorem inv_watch (hi : s.Inv late) (hlast : s'.lastSeen = s.lastSeen) (h : Moves s s' late) :
    ∃ late', s'.Inv late' := by
  have hseen := hi.last
  cases h with
  | silent hlog hst =>
    exact ⟨late, by rw [hlast, hlog, hseen], by rw [hlog]; exact hi.because,
      by rw [hlog]; exact hi.ends, hst⟩
  | idled hlog hwhy hst =>
    refine ⟨late, by simp [hlast, hlog, hseen, Beat.ping?], ?_, ?_, hst⟩
    · rw [hlog]
      exact because_append hi.because (hwhy.imp (hseen ▸ ·) hi.ends.mem)
    · rw [hlog]
      exact hi.ends.skip rfl
  | inTime now last hlog hl hin hlate hst =>
    subst hlate
    refine ⟨[], by simp [hlast, hlog, hseen, Beat.ping?], ?_, ?_, hst⟩
    · rw [hlog]
      exact because_append hi.because (hseen.symm.trans hl)
    · rw [hlog]
      exact hi.ends.inTime hin
  | looked now last hlog hl hst =>
    refine ⟨_, by simp [hlast, hlog, hseen, Beat.ping?], ?_, ?_, hst⟩
    · rw [hlog]
      exact because_append hi.because (hseen.symm.trans hl)
    · rw [hlog]
      exact hi.ends.append rfl
  | called m hm hlog hst =>
    have hping : m.ping? = none := by rcases hm with rfl | rfl <;> rfl
    refine ⟨_, by simp [hlast, hlog, hseen, hping], ?_, ?_, hst⟩
    · rw [hlog]
      exact because_append hi.because (by rcases hm with rfl | rfl <;> trivial)
    · rw [hlog]
      exact hi.ends.append (by rcases hm with rfl | rfl <;> rfl)

theorem inv_step {e : Event} (hi : ∃ late, s.Inv late) (hs : s.step cfg e = some s') :
    ∃ late, s'.Inv late := by
  obtain ⟨late, hi⟩ := hi
  rcases step_spec hs with ⟨t, ht⟩ | h
  · obtain ⟨t', ht', hm⟩ := stage_watch cfg t hi.stage
    obtain rfl := Option.some.inj (ht.symm.trans ht')
    exact inv_watch hi (watch_lastSeen ht) hm
  · exact ⟨late, inv_elsewhere hi h⟩

theorem inv_reach (h : Machine.Reach (step cfg) (fun _ _ => True) (start cfg) s) :
    ∃ late, s.Inv late :=
  Machine.Reach.invariant (P := fun s : BackupService => ∃ late, s.Inv late) ⟨[], inv_start⟩
    (fun _ _ _ _ hi _ hs => inv_step hi hs) h

end

/-! ## The theorem -/

/-- The monitor calls `on_failure` in the first iteration that finds the primary overdue, and
in no other. -/
structure FiresOnce (cfg : Service) (s : BackupService) : Prop where
  because : ∀ l m, l ++ [m] <+: s.log → m.Because l
  calls : ∃ early late, s.log.filter Beat.IsWatch = early ++ late ∧ (∀ m ∈ early, m.InTime) ∧
    (late = [] ∨ ∃ now last, Overdue now last ∧ late <+: ReservationSystem.firing now last ∧
      (s.watchdog = .top → late = ReservationSystem.firing now last))
  before : (∀ now last, Overdue now last → .looked now last ∉ s.log) →
    s.svc.backUp = true ∧ s.svc.isPromotedPrimary = false
  after : .returned ∈ s.log → s.svc.backUp = false ∧ s.svc.isPromotedPrimary = true
  live : ∀ t, (s.watch cfg t).isSome

section
variable {cfg : Service} {s : BackupService} {late : List Beat}

theorem Stage.fires (h : s.Stage late) :
    late = [] ∨ ∃ now last, Overdue now last ∧ late <+: ReservationSystem.firing now last ∧
      (s.watchdog = .top → late = ReservationSystem.firing now last) := by
  cases h with
  | waiting | armed | clocked => exact .inl rfl
  | ended now last ho hf hw => exact .inr ⟨now, last, ho, List.prefix_rfl, fun _ => rfl⟩
  | overdue now last ho hf hw | firing now last ho hf hw | called now last ho hf hw
  | marked now last ho hf hw | switched now last ho hf hw | detached now last ho hf hw =>
    exact .inr ⟨now, last, ho, by simp [ReservationSystem.firing], by simp [hw]⟩

theorem Stage.quiet (h : s.Stage []) :
    s.svc.backUp = true ∧ s.svc.isPromotedPrimary = false := by
  cases h with
  | waiting hf | armed _ hf | clocked _ _ hf => exact hf.2

theorem Stage.promoted (h : s.Stage late) (hm : .returned ∈ late) :
    s.svc.backUp = false ∧ s.svc.isPromotedPrimary = true := by
  cases h with
  | ended now last ho hf hw => exact hf.2
  | waiting | armed | clocked | overdue | firing | called | marked | switched | detached =>
    simp at hm

theorem Inv.firesOnce (hi : s.Inv late) : FiresOnce cfg s where
  because := hi.because
  calls := by
    obtain ⟨early, heq, hin⟩ := hi.ends
    exact ⟨early, late, heq, hin, hi.stage.fires⟩
  before hno := by
    rcases hi.stage.fires with rfl | ⟨now, last, ho, hpre, -⟩
    · exact hi.stage.quiet
    · cases late with
      | nil => exact hi.stage.quiet
      | cons m late =>
        obtain ⟨rfl, -⟩ := List.cons_prefix_cons.mp hpre
        exact absurd (hi.ends.mem List.mem_cons_self) (hno now last ho)
  after hret := by
    refine hi.stage.promoted ?_
    obtain ⟨early, heq, hin⟩ := hi.ends
    have hmem : .returned ∈ early ++ late := heq ▸ List.mem_filter.mpr ⟨hret, rfl⟩
    exact (List.mem_append.mp hmem).resolve_left fun h => hin _ h
  live t := by
    obtain ⟨s', hs', -⟩ := stage_watch cfg t hi.stage
    simp [hs']

end

/-- Whatever pings and requests come in between, `on_failure` is called by the first iteration
that finds the last ping too old, and promotes the node. -/
theorem fires_once {cfg : Service} {s : BackupService}
    (h : Machine.Reach (step cfg) (fun _ _ => True) (start cfg) s) : FiresOnce cfg s := by
  obtain ⟨late, hi⟩ := inv_reach h
  exact hi.firesOnce

/-! ## Threads that nobody interrupts -/

section
variable (cfg : Service) (s : BackupService) (t : ℚ)

theorem exec_ping (n : Nat) (hn : s.pings n = none) (hon : s.onHeartbeat = true) :
    Machine.exec (step cfg) s (.ping n :: List.replicate 4 (.handle n t)) =
      some
        { s.pingAt n (.done ⟨.ok, "pong", none⟩) with
          lastSeen := some t
          log := s.log ++ [.pinged t] } := by
  simp [Machine.exec, step, handle, pingAt, hn, hon]

/-- `on_failure` does to the node what `promote_to_primary` does. -/
theorem exec_called (hw : s.watchdog = .called) (hp : s.svc.isPromotedPrimary = false) :
    Machine.exec (step cfg) s (List.replicate 4 (.watch t)) =
      some
        { s with
          svc := s.svc.promoteToPrimary cfg
          onHeartbeat := false
          watchdog := .top
          log := s.log ++ [.returned] } := by
  simp [Machine.exec, step, watch, hw, hp, Node.promoteToPrimary]

theorem exec_idle (hw : s.watchdog = .top) (h : s.fired = true ∨ s.lastSeen = none) :
    Machine.exec (step cfg) s (List.replicate 1 (.watch t)) =
      some { s with log := s.log ++ [.idled] } := by
  rcases h with h | h <;> simp [Machine.exec, step, watch, hw, h]

variable {last : ℚ} (hw : s.watchdog = .top) (hf : s.fired = false) (hl : s.lastSeen = some last)
include hw hf hl

theorem exec_inTime (hin : ¬ Overdue t last) :
    Machine.exec (step cfg) s (List.replicate 3 (.watch t)) =
      some { s with log := s.log ++ [.looked t last] } := by
  simp [Machine.exec, step, watch, hw, hf, hl, hin]

theorem exec_overdue (ho : Overdue t last) :
    Machine.exec (step cfg) s (List.replicate 5 (.watch t)) =
      some
        { s with
          fired := true
          watchdog := .called
          log := s.log ++ [.looked t last, .invoked] } := by
  simp [Machine.exec, step, watch, hw, hf, hl, ho]

theorem exec_fires (ho : Overdue t last) (hp : s.svc.isPromotedPrimary = false) :
    Machine.exec (step cfg) s (List.replicate 9 (.watch t)) =
      some
        { s with
          svc := s.svc.promoteToPrimary cfg
          onHeartbeat := false
          fired := true
          log := s.log ++ ReservationSystem.firing t last } := by
  have hsplit : List.replicate 9 (Event.watch t) =
      List.replicate 5 (.watch t) ++ List.replicate 4 (.watch t) := rfl
  rw [hsplit, Machine.exec_append, exec_overdue cfg s t hw hf hl ho, Option.bind_some,
    exec_called cfg _ t rfl (by exact hp)]
  simp [hw, ReservationSystem.firing]

end

/-- A ping at 0 and silence up to 7. -/
def silence : List Event :=
  (.ping 0 :: List.replicate 4 (.handle 0 0)) ++
    (List.replicate 3 (.watch 1) ++ List.replicate 9 (.watch 7))

theorem exec_silence :
    ∃ s, Machine.exec (step urbanBackup) (start urbanBackup) silence = some s ∧
      s.log = [.pinged 0, .looked 1 0, .looked 7 0, .invoked, .returned] := by
  have hin : ¬ Overdue 1 0 := by norm_num [Overdue, heartbeatTimeout]
  have hover : Overdue 7 0 := by norm_num [Overdue, heartbeatTimeout]
  rw [silence, Machine.exec_append, exec_ping _ _ _ _ rfl rfl, Option.bind_some,
    Machine.exec_append, exec_inTime _ _ _ rfl rfl rfl hin, Option.bind_some,
    exec_fires _ _ _ rfl rfl rfl hover rfl]
  exact ⟨_, rfl, rfl⟩

theorem fires_once_silence : ∃ s,
    Machine.exec (step urbanBackup) (start urbanBackup) silence = some s ∧
      s.log = [.pinged 0, .looked 1 0, .looked 7 0, .invoked, .returned] ∧
      FiresOnce urbanBackup s := by
  obtain ⟨s, hs, hlog⟩ := exec_silence
  have hm : Machine.Meets (step urbanBackup) (fun _ _ => True) (start urbanBackup) silence :=
    Machine.meets_of_forall fun _ _ _ => trivial
  exact ⟨s, hs, hlog, fires_once (Machine.reach_of_exec hm hs)⟩

end BackupService

end ReservationSystem
