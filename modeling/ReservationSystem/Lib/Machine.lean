import Mathlib.Data.Option.Basic

/-!
# Runs of a transition function

A machine is a partial function `step : σ → ε → Option σ`. Nothing here knows what the
states or the events are.
-/

namespace Machine

variable {σ ε τ δ : Type*}

/-- The states that some run from `start` reaches, when each of its steps meets `C`. -/
inductive Reach (step : σ → ε → Option σ) (C : σ → ε → Prop) (start : σ) : σ → Prop
  | refl : Reach step C start start
  | tail {s s' : σ} {e : ε} :
      Reach step C start s → C s e → step s e = some s' → Reach step C start s'

/-- The state after a list of events, if every one of them is possible. -/
def exec (step : σ → ε → Option σ) : σ → List ε → Option σ
  | s, [] => some s
  | s, e :: es => (step s e).bind fun s' => exec step s' es

/-- Every step of the run meets `C`. -/
def Meets (step : σ → ε → Option σ) (C : σ → ε → Prop) : σ → List ε → Prop
  | _, [] => True
  | s, e :: es => ∀ s', step s e = some s' → C s e ∧ Meets step C s' es

/-- `P` holds in every state of the run, the first one included. -/
def Always (step : σ → ε → Option σ) (P : σ → Prop) : σ → List ε → Prop
  | s, [] => P s
  | s, e :: es => P s ∧ ∀ s', step s e = some s' → Always step P s' es

section
variable {step : σ → ε → Option σ} {C : σ → ε → Prop} {start s s' : σ}

theorem exec_append (es es' : List ε) :
    exec step start (es ++ es') = (exec step start es).bind fun s => exec step s es' := by
  induction es generalizing start with
  | nil => rfl
  | cons e es ih => cases h : step start e <;> simp [exec, h, ih]

theorem exec_snoc (es : List ε) (e : ε) :
    exec step start (es ++ [e]) = (exec step start es).bind fun s => step s e := by
  rw [exec_append]
  simp [exec]

/-- An invariant of every step is an invariant of every run. The step may use that its
first state is reachable. -/
theorem Reach.invariant {P : σ → Prop} (h0 : P start)
    (hstep : ∀ s e s', Reach step C start s → P s → C s e → step s e = some s' → P s')
    (h : Reach step C start s) : P s := by
  induction h with
  | refl => exact h0
  | tail hr hc he ih => exact hstep _ _ _ hr ih hc he

theorem Reach.mono {D : σ → ε → Prop} (hcd : ∀ s e, C s e → D s e)
    (h : Reach step C start s) : Reach step D start s := by
  induction h with
  | refl => exact .refl
  | tail _ hc he ih => exact .tail ih (hcd _ _ hc) he

theorem Reach.trans (h : Reach step C start s) (h' : Reach step C s s') :
    Reach step C start s' := by
  induction h' with
  | refl => exact h
  | tail _ hc he ih => exact .tail ih hc he

instance decidableMeets [∀ s e, Decidable (C s e)] :
    ∀ (s : σ) (es : List ε), Decidable (Meets step C s es)
  | _, [] => isTrue trivial
  | s, e :: es =>
    match h : step s e with
    | none => isTrue fun s' hs => by simp [h] at hs
    | some t =>
      have : Decidable (Meets step C t es) := decidableMeets t es
      decidable_of_iff (C s e ∧ Meets step C t es)
        ⟨fun hm s' hs => by rwa [← Option.some.inj (h.symm.trans hs)], fun hm => hm t h⟩

theorem meets_of_forall {es : List ε} (h : ∀ e ∈ es, ∀ s, C s e) : Meets step C start es := by
  induction es generalizing start with
  | nil => trivial
  | cons e es ih =>
    intro s' _
    exact ⟨h e List.mem_cons_self start, ih fun e' he' => h e' (List.mem_cons_of_mem e he')⟩

theorem Meets.mono {D : σ → ε → Prop} {es : List ε} (hm : Meets step C start es)
    (hcd : ∀ s e, C s e → D s e) : Meets step D start es := by
  induction es generalizing start with
  | nil => trivial
  | cons e es ih =>
    intro s' hs
    obtain ⟨hc, hrest⟩ := hm s' hs
    exact ⟨hcd start e hc, ih hrest⟩

theorem meets_append {es es' : List ε} (h : Meets step C start es)
    (h' : ∀ s, exec step start es = some s → Meets step C s es') :
    Meets step C start (es ++ es') := by
  induction es generalizing start with
  | nil => exact h' start rfl
  | cons e es ih =>
    intro s hs
    obtain ⟨hc, hm⟩ := h s hs
    exact ⟨hc, ih hm fun s' hs' => h' s' (by simp [exec, hs, hs'])⟩

theorem reach_of_exec {es : List ε} (hm : Meets step C start es)
    (he : exec step start es = some s) : Reach step C start s := by
  induction es generalizing start with
  | nil =>
    cases he
    exact .refl
  | cons e es ih =>
    simp only [exec, Option.bind_eq_some_iff] at he
    obtain ⟨t, ht, he⟩ := he
    obtain ⟨hc, hm⟩ := hm t ht
    exact (Reach.tail .refl hc ht).trans (ih hm he)

theorem Always.of_exec {P : σ → Prop} {es : List ε} (h : Always step P start es)
    (he : exec step start es = some s) : P s := by
  induction es generalizing start with
  | nil =>
    cases he
    exact h
  | cons e es ih =>
    simp only [exec, Option.bind_eq_some_iff] at he
    obtain ⟨t, ht, he⟩ := he
    exact ih (h.2 t ht) he

/-- A run of a machine is a run of a part of it, when each step moves the part by one of
the part's own steps or leaves it alone. -/
theorem Reach.project {step' : τ → δ → Option τ} {D : τ → δ → Prop} (proj : σ → τ)
    (hstep : ∀ s e s', Reach step C start s → C s e → step s e = some s' →
      proj s' = proj s ∨ ∃ d, D (proj s) d ∧ step' (proj s) d = some (proj s'))
    (h : Reach step C start s) : Reach step' D (proj start) (proj s) := by
  induction h with
  | refl => exact .refl
  | tail hr hc he ih =>
    rcases hstep _ _ _ hr hc he with heq | ⟨d, hd, hs⟩
    · rwa [heq]
    · exact .tail ih hd hs

/-- If a step from a good state leads to a good state exactly when it meets `C`, then a
run stays good exactly when all of its steps meet `C`. The events of the run may be limited
to those of `D`. -/
theorem always_iff_meets {I P : σ → Prop} {D : ε → Prop}
    (hI : ∀ s e s', I s → D e → step s e = some s' → I s')
    (hP : ∀ s e s', I s → P s → D e → step s e = some s' → (P s' ↔ C s e))
    {es : List ε} (hD : ∀ e ∈ es, D e) (hi : I start) (hp : P start) :
    Always step P start es ↔ Meets step C start es := by
  induction es generalizing start with
  | nil => exact ⟨fun _ => trivial, fun _ => hp⟩
  | cons e es ih =>
    simp only [Always, Meets, hp, true_and]
    have hde := hD e List.mem_cons_self
    replace ih {s : σ} := @ih s fun e' he' => hD e' (List.mem_cons_of_mem e he')
    refine forall₂_congr fun t ht => ?_
    have hiff := hP start e t hi hp hde ht
    have hit := hI start e t hi hde ht
    constructor
    · intro h
      have hpt : P t := by
        cases es with
        | nil => exact h
        | cons _ _ => exact h.1
      exact ⟨hiff.mp hpt, (ih hit hpt).mp h⟩
    · rintro ⟨hc, h⟩
      exact (ih hit (hiff.mpr hc)).mpr h

end

end Machine
