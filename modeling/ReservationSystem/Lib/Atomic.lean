import Mathlib.Data.List.Nodup
import Mathlib.Logic.Function.Basic
import Mathlib.Logic.Relation
import ReservationSystem.Lib.Log
import ReservationSystem.Lib.Machine

/-!
# Linearizability

Operations overlap, and each seems to happen all at once, at some moment between its invocation
and its return. A machine that works this way step by step has linearizable histories, and so
has every system that keeps step with it.
-/

namespace Atomic

open Log Machine

variable {σ ι α ρ : Type*}

/-- `Applies v op r v'`: in state `v`, the operation can return `r` and leave `v'`. -/
structure Object (σ α ρ : Type*) where
  start : σ
  Applies : σ → α → ρ → σ → Prop

/-- What can be seen of the operation `i`. -/
inductive Mark (ι α ρ : Type*)
  | invoked (i : ι) (op : α)
  | returned (i : ι) (r : ρ)

structure Call (ι α ρ : Type*) where
  id : ι
  op : α
  result : ρ

/-- One call after the other. -/
inductive Object.Runs (obj : Object σ α ρ) : List (Call ι α ρ) → σ → Prop
  | nil : obj.Runs [] obj.start
  | snoc {calls : List (Call ι α ρ)} {v v' : σ} {c : Call ι α ρ} (hr : obj.Runs calls v)
      (ha : obj.Applies v c.op c.result v') : obj.Runs (calls ++ [c]) v'

/-- The calls are a sequential run that explains the history: all that have returned are among
them, with what they have returned, and a call that was invoked after another one had returned
comes after it. -/
structure Linearization (obj : Object σ α ρ) (history : List (Mark ι α ρ))
    (calls : List (Call ι α ρ)) (v : σ) : Prop where
  legal : obj.Runs calls v
  once : (calls.map Call.id).Nodup
  invoked : ∀ c ∈ calls, .invoked c.id c.op ∈ history
  returned : ∀ i r, .returned i r ∈ history → ∃ op, ⟨i, op, r⟩ ∈ calls
  realTime : ∀ c ∈ calls, ∀ c' ∈ calls,
    Before history (.returned c.id c.result) (.invoked c'.id c'.op) → Before calls c c'

/-! ## The machine -/

/-- How far an operation is. -/
inductive Progress (α ρ : Type*)
  | fresh
  | pending (op : α)
  | happened (op : α) (r : ρ)
  | over (op : α) (r : ρ)

/-- The call that has happened, if it has. -/
def Progress.call? (i : ι) : Progress α ρ → Option (Call ι α ρ)
  | .happened op r | .over op r => some ⟨i, op, r⟩
  | _ => none

structure State (σ ι α ρ : Type*) where
  value : σ
  progress : ι → Progress α ρ
  calls : List (Call ι α ρ)
  history : List (Mark ι α ρ)

def State.start (obj : Object σ α ρ) : State σ ι α ρ := ⟨obj.start, fun _ => .fresh, [], []⟩

section
variable [DecidableEq ι]

inductive Step (obj : Object σ α ρ) (a : State σ ι α ρ) : State σ ι α ρ → Prop
  | invoke (i : ι) (op : α) (hp : a.progress i = .fresh) :
      Step obj a
        { a with
          progress := Function.update a.progress i (.pending op)
          history := a.history ++ [.invoked i op] }
  | happen (i : ι) (op : α) (r : ρ) (v : σ) (hp : a.progress i = .pending op)
      (ha : obj.Applies a.value op r v) :
      Step obj a
        { a with
          value := v
          progress := Function.update a.progress i (.happened op r)
          calls := a.calls ++ [⟨i, op, r⟩] }
  | return (i : ι) (op : α) (r : ρ) (hp : a.progress i = .happened op r) :
      Step obj a
        { a with
          progress := Function.update a.progress i (.over op r)
          history := a.history ++ [.returned i r] }

def Steps (obj : Object σ α ρ) : State σ ι α ρ → State σ ι α ρ → Prop :=
  Relation.ReflTransGen (Step obj)

end

/-- What the marks and the calls tell of the progress, and the other way round. -/
structure Inv (obj : Object σ α ρ) (a : State σ ι α ρ) : Prop where
  legal : obj.Runs a.calls a.value
  once : (a.calls.map Call.id).Nodup
  called : ∀ c, c ∈ a.calls ↔ (a.progress c.id).call? c.id = some c
  invoked : ∀ i op, .invoked i op ∈ a.history ↔
    a.progress i = .pending op ∨ ∃ r, (a.progress i).call? i = some ⟨i, op, r⟩
  returned : ∀ i r, .returned i r ∈ a.history ↔ ∃ op, a.progress i = .over op r
  realTime : ∀ c ∈ a.calls, ∀ c' ∈ a.calls,
    Before a.history (.returned c.id c.result) (.invoked c'.id c'.op) → Before a.calls c c'

section
variable {obj : Object σ α ρ} {a a' : State σ ι α ρ} {i : ι} {op : α} {r : ρ}
  {x : Progress α ρ}

theorem inv_start : Inv obj (State.start obj : State σ ι α ρ) where
  legal := .nil
  once := List.nodup_nil
  called c := by simp [State.start, Progress.call?]
  invoked i op := by simp [State.start, Progress.call?]
  returned i r := by simp [State.start]
  realTime c hc := by simp [State.start] at hc

theorem Inv.not_called (hi : Inv obj a) (hp : (a.progress i).call? i = none)
    {c : Call ι α ρ} (hc : c ∈ a.calls) : c.id ≠ i := by
  rintro rfl
  have hcall := (hi.called c).mp hc
  rw [hp] at hcall
  cases hcall

variable [DecidableEq ι]

theorem inv_invoke (hi : Inv obj a) (hp : a.progress i = .fresh) :
    Inv obj
      { a with
        progress := Function.update a.progress i (.pending op)
        history := a.history ++ [.invoked i op] } := by
  have hnone : (a.progress i).call? i = none := by rw [hp]; rfl
  refine ⟨hi.legal, hi.once, fun c => ?_, fun j op' => ?_, fun j r => ?_, fun c hc c' hc' hb => ?_⟩
  · rw [hi.called]
    by_cases hj : c.id = i
    · simp [hj, hp, Progress.call?]
    · simp only [Function.update_of_ne hj]
  · rw [List.mem_append, List.mem_singleton, hi.invoked]
    by_cases hj : j = i
    · subst hj
      simp [hp, Progress.call?, eq_comm]
    · simp [hj]
  · rw [List.mem_append, List.mem_singleton, hi.returned]
    by_cases hj : j = i
    · subst hj
      simp [hp]
    · simp [Function.update_of_ne hj]
  · -- The call that comes last has only just been invoked.
    rcases before_append.mp hb with hold | ⟨-, hnew⟩ | hnew
    · exact hi.realTime c hc c' hc' hold
    · obtain ⟨hid, -⟩ := Mark.invoked.inj (List.mem_singleton.mp hnew)
      exact absurd hid (hi.not_called hnone hc')
    · exact absurd (List.mem_singleton.mp hnew.left_mem) (by simp)

theorem inv_happen {v : σ} (hi : Inv obj a) (hp : a.progress i = .pending op)
    (ha : obj.Applies a.value op r v) :
    Inv obj
      { a with
        value := v
        progress := Function.update a.progress i (.happened op r)
        calls := a.calls ++ [⟨i, op, r⟩] } := by
  have hnone : (a.progress i).call? i = none := by rw [hp]; rfl
  refine ⟨.snoc hi.legal ha, ?_, fun c => ?_, fun j op' => ?_, fun j r' => ?_,
    fun c hc c' hc' hb => ?_⟩
  · rw [List.map_append, List.nodup_append]
    refine ⟨hi.once, by simp, fun j hj j' hj' => ?_⟩
    obtain ⟨c, hc, rfl⟩ := List.mem_map.mp hj
    rw [List.mem_singleton.mp hj']
    exact hi.not_called hnone hc
  · rw [List.mem_append, List.mem_singleton, hi.called]
    by_cases hj : c.id = i
    · subst hj
      rw [hnone]
      simp [Progress.call?, eq_comm]
    · have hne : c ≠ ⟨i, op, r⟩ := fun heq => hj (by rw [heq])
      simp [Function.update_of_ne hj, hne]
  · rw [hi.invoked]
    by_cases hj : j = i
    · subst hj
      simp [hp, Progress.call?]
    · simp [Function.update_of_ne hj]
  · rw [hi.returned]
    by_cases hj : j = i
    · subst hj
      simp [hp]
    · simp [Function.update_of_ne hj]
  · have hret : .returned c.id c.result ∈ a.history := hb.left_mem
    obtain ⟨op', hover⟩ := (hi.returned _ _).mp hret
    -- The new call has not returned, so the first one is an old one.
    have hold : c ∈ a.calls := by
      refine (List.mem_append.mp hc).resolve_right fun hnew => ?_
      rw [List.mem_singleton.mp hnew, hp] at hover
      cases hover
    rcases List.mem_append.mp hc' with hold' | hnew
    · exact before_append.mpr (.inl (hi.realTime c hold c' hold' hb))
    · exact before_append.mpr (.inr (.inl ⟨hold, hnew⟩))

theorem inv_return (hi : Inv obj a) (hp : a.progress i = .happened op r) :
    Inv obj
      { a with
        progress := Function.update a.progress i (.over op r)
        history := a.history ++ [.returned i r] } := by
  refine ⟨hi.legal, hi.once, fun c => ?_, fun j op' => ?_, fun j r' => ?_,
    fun c hc c' hc' hb => ?_⟩
  · rw [hi.called]
    by_cases hj : c.id = i
    · simp [hj, hp, Progress.call?]
    · simp only [Function.update_of_ne hj]
  · rw [List.mem_append, List.mem_singleton, hi.invoked]
    by_cases hj : j = i
    · subst hj
      simp [hp, Progress.call?]
    · simp [Function.update_of_ne hj]
  · rw [List.mem_append, List.mem_singleton, hi.returned]
    by_cases hj : j = i
    · subst hj
      simp [hp, eq_comm]
    · simp [hj]
  · rcases before_append.mp hb with hold | ⟨-, hnew⟩ | hnew
    · exact hi.realTime c hc c' hc' hold
    · exact absurd (List.mem_singleton.mp hnew) (by simp)
    · exact absurd (List.mem_singleton.mp hnew.right_mem) (by simp)

theorem inv_step (hi : Inv obj a) (hs : Step obj a a') : Inv obj a' := by
  cases hs with
  | invoke i op hp => exact inv_invoke hi hp
  | happen i op r v hp ha => exact inv_happen hi hp ha
  | «return» i op r hp => exact inv_return hi hp

theorem inv_steps (hi : Inv obj a) (hs : Steps obj a a') : Inv obj a' := by
  induction hs with
  | refl => exact hi
  | tail _ hs ih => exact inv_step ih hs

omit [DecidableEq ι] in
theorem Inv.linearization (hi : Inv obj a) : Linearization obj a.history a.calls a.value where
  legal := hi.legal
  once := hi.once
  invoked c hc := (hi.invoked c.id c.op).mpr (.inr ⟨c.result, (hi.called c).mp hc⟩)
  returned j r hr := by
    obtain ⟨op, hover⟩ := (hi.returned j r).mp hr
    exact ⟨op, (hi.called _).mpr (by simp [hover, Progress.call?])⟩
  realTime := hi.realTime

/-! ## Operations on their way -/

/-- The machine can get to the value `v`, with operation `i` as far as `x`, and `marks` can be seen
of that. -/
def Advances (obj : Object σ α ρ) (a : State σ ι α ρ) (i : ι) (x : Progress α ρ) (v : σ)
    (marks : List (Mark ι α ρ)) : Prop :=
  ∃ a', Steps obj a a' ∧ a'.value = v ∧ a'.progress = Function.update a.progress i x ∧
    a'.history = a.history ++ marks

theorem advances_stay (hp : a.progress i = x) : Advances obj a i x a.value [] :=
  ⟨a, .refl, rfl, by rw [← hp, Function.update_eq_self], (List.append_nil _).symm⟩

theorem advances_invoke (hp : a.progress i = .fresh) :
    Advances obj a i (.pending op) a.value [.invoked i op] :=
  ⟨_, .single (.invoke i op hp), rfl, rfl, rfl⟩

theorem advances_happen {v : σ} (hp : a.progress i = .pending op)
    (ha : obj.Applies a.value op r v) : Advances obj a i (.happened op r) v [] :=
  ⟨_, .single (.happen i op r v hp ha), rfl, rfl, (List.append_nil _).symm⟩

theorem advances_return (hp : a.progress i = .happened op r) :
    Advances obj a i (.over op r) a.value [.returned i r] :=
  ⟨_, .single (.return i op r hp), rfl, rfl, rfl⟩

theorem Advances.trans {y : Progress α ρ} {v v' : σ} {marks marks' : List (Mark ι α ρ)}
    (h : Advances obj a i x v marks)
    (h' : ∀ a', a'.progress i = x → a'.value = v → Advances obj a' i y v' marks') :
    Advances obj a i y v' (marks ++ marks') := by
  obtain ⟨a', hs, hv, hp, hm⟩ := h
  obtain ⟨a'', hs', hv', hp', hm'⟩ := h' a' (by rw [hp, Function.update_self]) hv
  refine ⟨a'', hs.trans hs', hv', ?_, ?_⟩
  · rw [hp', hp, Function.update_idem]
  · rw [hm', hm, List.append_assoc]

/-- When only operation `i` has got on, the machine is as far as the others are. -/
theorem Advances.exists_steps {v : σ} {marks : List (Mark ι α ρ)} {p p' : ι → Progress α ρ}
    (h : Advances obj a i x v marks) (hp : ∀ j, a.progress j = p j)
    (hne : ∀ j, j ≠ i → p' j = p j) (hi : p' i = x) :
    ∃ a', Steps obj a a' ∧ a'.value = v ∧ (∀ j, a'.progress j = p' j) ∧
      a'.history = a.history ++ marks := by
  obtain ⟨a', hs, hv, hupdate, hm⟩ := h
  refine ⟨a', hs, hv, fun j => ?_, hm⟩
  rw [hupdate]
  by_cases heq : j = i
  · rw [heq, Function.update_self, hi]
  · rw [Function.update_of_ne heq, hp j, hne j heq]

/-- An operation happens and returns. -/
theorem advances_answer {v : σ} (hp : a.progress i = .pending op)
    (ha : obj.Applies a.value op r v) : Advances obj a i (.over op r) v [.returned i r] :=
  (advances_happen hp ha).trans fun _ hp' hv => hv ▸ advances_return hp'

/-- An operation that returns at once. -/
theorem advances_refuse (hp : a.progress i = .fresh) (ha : obj.Applies a.value op r a.value) :
    Advances obj a i (.over op r) a.value [.invoked i op, .returned i r] :=
  (advances_invoke hp).trans fun _ hp' hv => advances_answer hp' (by rwa [hv])

/-! ## Simulation -/

/-- A system that keeps step with the machine. -/
theorem linearizable_of_simulation {τ ε : Type*} {step : τ → ε → Option τ} {C : τ → ε → Prop}
    {start s : τ} (R : τ → State σ ι α ρ → Prop) (h0 : R start (State.start obj))
    (hstep : ∀ s e s' a, Reach step C start s → R s a → C s e → step s e = some s' →
      ∃ a', Steps obj a a' ∧ R s' a')
    (hr : Reach step C start s) :
    ∃ a, R s a ∧ Linearization obj a.history a.calls a.value := by
  have hsim : ∃ a, R s a ∧ Inv obj a := by
    induction hr with
    | refl => exact ⟨_, h0, inv_start⟩
    | tail hr hc hs ih =>
      obtain ⟨a, hR, hi⟩ := ih
      obtain ⟨a', hsteps, hR'⟩ := hstep _ _ _ a hr hR hc hs
      exact ⟨a', hR', inv_steps hi hsteps⟩
  obtain ⟨a, hR, hi⟩ := hsim
  exact ⟨a, hR, hi.linearization⟩

end

end Atomic
