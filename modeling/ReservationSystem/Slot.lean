import Mathlib.Data.List.Chain
import ReservationSystem.Lib.Machine
import ReservationSystem.Message

/-!
# What a slot is for

A slot is free or holds one record. Only a free slot can be booked and only a taken one
cancelled. Nothing here comes from the source: a node is compared with it.
-/

namespace ReservationSystem.Slot

open Machine

variable {ρ : Type*} {slot : Option ρ} {us : List (Op × ρ)}

def use (slot : Option ρ) (u : Op × ρ) : Option (Option ρ) :=
  match u.1, slot with
  | .book, none => some (some u.2)
  | .cancel, some _ => some none
  | _, _ => none

/-- The uses of a slot that was free at first, and what they leave in it. -/
def Uses (us : List (Op × ρ)) (slot : Option ρ) : Prop := exec use none us = some slot

theorem uses_nil : Uses ([] : List (Op × ρ)) none := rfl

theorem uses_snoc {u : Op × ρ} (h : Uses us slot) {slot' : Option ρ}
    (hu : use slot u = some slot') : Uses (us ++ [u]) slot' := by
  rw [Uses, exec_snoc, h]
  exact hu

theorem use_eq_effect {u : Op × ρ} {slot' : Option ρ} (hu : use slot u = some slot') :
    slot' = u.1.effect u.2 ∧ (u.1 = .book ↔ slot = none) := by
  obtain ⟨op, r⟩ := u
  cases op <;> cases slot <;> simp_all [use, Op.effect, eq_comm]

theorem Uses.slot_eq (h : Uses us slot) : slot = us.getLast?.bind fun u => u.1.effect u.2 := by
  induction us using List.reverseRecOn with
  | nil => exact (Option.some.inj h).symm
  | append_singleton us u ih =>
    rw [Uses, exec_snoc, Option.bind_eq_some_iff] at h
    obtain ⟨mid, -, hu⟩ := h
    simpa using (use_eq_effect hu).1

/-- Book, cancel, book, ... -/
theorem Uses.alternate (h : Uses us slot) :
    (us.map Prod.fst).IsChain (· ≠ ·) ∧ ∀ op ∈ (us.map Prod.fst).head?, op = .book := by
  induction us using List.reverseRecOn generalizing slot with
  | nil => simp
  | append_singleton us u ih =>
    rw [Uses, exec_snoc, Option.bind_eq_some_iff] at h
    obtain ⟨mid, hmid, hu⟩ := h
    obtain ⟨hchain, hhead⟩ := ih hmid
    obtain ⟨-, hbook⟩ := use_eq_effect hu
    have hlast := Uses.slot_eq hmid
    rw [List.map_append, List.map_singleton]
    constructor
    · refine hchain.append (List.isChain_singleton _) ?_
      rintro op hop op' hop' rfl
      simp only [List.getLast?_map, Option.mem_def, Option.map_eq_some_iff] at hop
      obtain ⟨v, hv, rfl⟩ := hop
      have heq : u.1 = v.1 := by simpa using hop'
      rw [heq, hlast, hv, Option.bind_some] at hbook
      -- Two equal neighbours would need the slot both free and taken.
      cases hv1 : v.1 <;> simp [hv1, Op.effect] at hbook
    · cases us with
      | nil =>
        simp only [List.getLast?_nil, Option.bind_none] at hlast
        simpa using hbook.mpr hlast
      | cons v vs => simpa using hhead

end ReservationSystem.Slot
