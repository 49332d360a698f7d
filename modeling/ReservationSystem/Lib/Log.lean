import Mathlib.Data.List.Basic

/-!
# The order of entries in a log

`Before l a b`: some occurrence of `a` in `l` comes before some occurrence of `b`.
-/

namespace Log

variable {α : Type*} {l m : List α} {a b : α}

def Before (l : List α) (a b : α) : Prop := [a, b].Sublist l

theorem Before.left_mem (h : Before l a b) : a ∈ l := h.subset (by simp)

theorem Before.right_mem (h : Before l a b) : b ∈ l := h.subset (by simp)

theorem not_before_nil : ¬ Before ([] : List α) a b := by
  simp [Before]

theorem before_cons {x : α} : Before (x :: l) a b ↔ Before l a b ∨ x = a ∧ b ∈ l := by
  rw [Before, List.sublist_cons_iff]
  refine or_congr_right ?_
  constructor
  · rintro ⟨r, hr, hsub⟩
    obtain ⟨rfl, rfl⟩ := List.cons.inj hr
    exact ⟨rfl, List.singleton_sublist.mp hsub⟩
  · rintro ⟨rfl, hb⟩
    exact ⟨[b], rfl, List.singleton_sublist.mpr hb⟩

/-- What `Before` says of a log that has grown. -/
theorem before_append :
    Before (l ++ m) a b ↔ Before l a b ∨ a ∈ l ∧ b ∈ m ∨ Before m a b := by
  induction l with
  | nil => simp [not_before_nil]
  | cons x l ih =>
    rw [List.cons_append, before_cons, before_cons, ih, List.mem_cons, List.mem_append]
    constructor
    · rintro ((h | h | h) | ⟨rfl, h | h⟩)
      · exact .inl (.inl h)
      · exact .inr (.inl ⟨.inr h.1, h.2⟩)
      · exact .inr (.inr h)
      · exact .inl (.inr ⟨rfl, h⟩)
      · exact .inr (.inl ⟨.inl rfl, h⟩)
    · rintro ((h | ⟨rfl, h⟩) | ⟨rfl | h, h'⟩ | h)
      · exact .inl (.inl h)
      · exact .inr ⟨rfl, .inl h⟩
      · exact .inr ⟨rfl, .inr h'⟩
      · exact .inl (.inr (.inl ⟨h, h'⟩))
      · exact .inl (.inr (.inr h))

/-- Two different entries of a log come in one order or the other. -/
theorem before_total (ha : a ∈ l) (hb : b ∈ l) (hne : a ≠ b) : Before l a b ∨ Before l b a := by
  induction l with
  | nil => simp at ha
  | cons x l ih =>
    rw [before_cons, before_cons]
    rcases List.mem_cons.mp ha with rfl | ha'
    · rcases List.mem_cons.mp hb with rfl | hb'
      · exact absurd rfl hne
      · exact .inl (.inr ⟨rfl, hb'⟩)
    · rcases List.mem_cons.mp hb with rfl | hb'
      · exact .inr (.inr ⟨rfl, ha'⟩)
      · rcases ih ha' hb' with h | h
        · exact .inl (.inl h)
        · exact .inr (.inl h)

end Log
