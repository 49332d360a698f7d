import Mathlib.Data.List.Forall2
import ReservationSystem.Lib.Dict

/-!
# Dictionaries with related values

Two dictionaries with the same keys in the same order, and related values under each of them.
-/

namespace Dict

variable {α β γ : Type*} {R S : β → γ → Prop} {d : Dict α β} {d' : Dict α γ} {k : α}

def Rel (R : β → γ → Prop) (d : Dict α β) (d' : Dict α γ) : Prop :=
  List.Forall₂ (fun e e' => e.1 = e'.1 ∧ R e.2 e'.2) d.entries d'.entries

theorem Rel.refl {R : β → β → Prop} (hR : ∀ v, R v v) (d : Dict α β) : Rel R d d :=
  List.forall₂_same.mpr fun e _ => ⟨rfl, hR e.2⟩

theorem Rel.imp (h : Rel R d d') (hRS : ∀ v v', R v v' → S v v') : Rel S d d' :=
  List.Forall₂.imp (fun _ _ he => ⟨he.1, hRS _ _ he.2⟩) h

theorem Rel.values (h : Rel R d d') :
    List.Forall₂ R (d.entries.map Prod.snd) (d'.entries.map Prod.snd) := by
  rw [List.forall₂_map_left_iff, List.forall₂_map_right_iff]
  exact List.Forall₂.imp (fun _ _ he => he.2) h

theorem Rel.keys (h : Rel R d d') : d.keys = d'.keys := by
  rw [← List.forall₂_eq_eq_eq, Dict.keys, Dict.keys, List.forall₂_map_left_iff,
    List.forall₂_map_right_iff]
  exact List.Forall₂.imp (fun _ _ he => he.1) h

section
variable [DecidableEq α]

theorem Rel.get? (h : Rel R d d') (k : α) : Option.Rel R (d.get? k) (d'.get? k) := by
  obtain ⟨l, hl⟩ := d
  obtain ⟨l', hl'⟩ := d'
  simp only [Rel, Dict.get?] at h ⊢
  clear hl hl'
  induction h with
  | nil => exact .none
  | @cons e e' l l' he _ ih =>
    rw [List.find?_cons, List.find?_cons, he.1]
    cases decide (e'.1 = k) with
    | true => exact .some he.2
    | false => exact ih

theorem Rel.set (h : Rel R d d') (k : α) {v : β} {v' : γ} (hv : R v v') :
    Rel R (d.set k v) (d'.set k v') := by
  by_cases hk : k ∈ d.keys
  · have hk' := h.keys ▸ hk
    rw [Rel, entries_set_of_mem hk, entries_set_of_mem hk', List.forall₂_map_left_iff,
      List.forall₂_map_right_iff]
    refine List.Forall₂.imp (fun e e' he => ?_) h
    rw [he.1]
    split_ifs
    · exact ⟨rfl, hv⟩
    · exact he
  · have hk' := h.keys ▸ hk
    rw [Rel, entries_set_of_not_mem hk, entries_set_of_not_mem hk']
    exact List.rel_append h (.cons ⟨rfl, hv⟩ .nil)

theorem Rel.erase (h : Rel R d d') (k : α) : Rel R (d.erase k) (d'.erase k) :=
  List.rel_filter (fun _ _ he => by simp [he.1]) h

end

end Dict
