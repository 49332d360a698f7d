import Mathlib.Data.List.Infix

/-!
# Patterns and separators

A pattern without the separator lies on one side of it or on the other.
-/

namespace Words

variable {α : Type*} {c : α} {w l l' r r' : List α}

theorem prefix_append_cons_iff (hc : c ∉ w) : w <+: l ++ c :: r ↔ w <+: l := by
  constructor
  · intro h
    induction l generalizing w with
    | nil =>
      rw [List.nil_append, List.prefix_cons_iff] at h
      rcases h with rfl | ⟨w, rfl, -⟩
      · exact List.nil_prefix
      · exact absurd List.mem_cons_self hc
    | cons x l ih =>
      rw [List.cons_append, List.prefix_cons_iff] at h
      rcases h with rfl | ⟨w, rfl, h⟩
      · exact List.nil_prefix
      · exact (List.prefix_cons_inj x).mpr (ih (fun hmem => hc (List.mem_cons_of_mem x hmem)) h)
  · exact fun h => h.trans (List.prefix_append ..)

theorem infix_append_cons_iff (hc : c ∉ w) :
    w <:+: l ++ c :: r ↔ w <:+: l ∨ w <:+: r := by
  induction l with
  | nil =>
    have hstart : w <+: c :: r ↔ w <+: [] := @prefix_append_cons_iff _ c w [] r hc
    rw [List.nil_append, List.infix_cons_iff, hstart, List.prefix_nil, List.infix_nil]
  | cons x l ih =>
    rw [List.cons_append, List.infix_cons_iff, List.infix_cons_iff, ih, or_assoc,
      ← List.cons_append, prefix_append_cons_iff hc]

/-- A separator that is missing on the left splits a word in one way only. -/
theorem append_cons_inj (hl : c ∉ l) (hl' : c ∉ l') :
    l ++ c :: r = l' ++ c :: r' ↔ l = l' ∧ r = r' := by
  constructor
  · intro h
    have hpre : l <+: l' := (prefix_append_cons_iff hl).mp (h ▸ List.prefix_append l (c :: r))
    have hpre' : l' <+: l :=
      (prefix_append_cons_iff hl').mp (h.symm ▸ List.prefix_append l' (c :: r'))
    obtain rfl := hpre.eq_of_length_le hpre'.length_le
    exact ⟨rfl, (List.cons.inj (List.append_cancel_left h)).2⟩
  · rintro ⟨rfl, rfl⟩
    rfl

theorem length_splitOn [DecidableEq α] (c : α) (l : List α) :
    (l.splitOn c).length = l.count c + 1 := by
  induction l with
  | nil => rfl
  | cons x l ih =>
    rw [List.splitOn_cons_eq_if_modifyHead, List.count_cons]
    by_cases hx : (x == c) = true
    · rw [if_pos hx, if_pos hx, List.length_cons, ih]
    · rw [if_neg hx, if_neg hx, List.length_modifyHead, ih, Nat.add_zero]

end Words
