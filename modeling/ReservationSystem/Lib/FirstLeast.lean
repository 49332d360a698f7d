import Mathlib.Data.List.Sort

/-!
# The first of the least

What the head of a stably sorted list is, and the first entry there that meets a condition.
-/

namespace FirstLeast

variable {α β γ : Type*} [LinearOrder β] {f : α → β} {p : α → Bool} {a x : α} {l m : List α}

/-- The first entry of `l` among those that meet `p` and have the least `f`. -/
def firstLeast (f : α → β) (p : α → Bool) : List α → Option α
  | [] => none
  | x :: l =>
    match firstLeast f p l with
    | none => if p x then some x else none
    | some b => if p x ∧ f x ≤ f b then some x else some b

theorem firstLeast_eq_none : firstLeast f p l = none ↔ ∀ b ∈ l, p b = false := by
  induction l with
  | nil => simp [firstLeast]
  | cons x l ih =>
    unfold firstLeast
    cases h : firstLeast f p l with
    | none => simpa [h] using fun _ => ih.mp h
    | some b =>
      have hsome := mt ih.mpr (by simp [h])
      simp only [List.forall_mem_cons]
      refine iff_of_false ?_ fun hall => hsome hall.2
      split_ifs <;> simp

theorem firstLeast_spec (h : firstLeast f p l = some a) :
    ∃ before after, l = before ++ a :: after ∧ p a = true ∧ (∀ b ∈ before, p b → f a < f b) ∧
      ∀ b ∈ after, p b → f a ≤ f b := by
  induction l generalizing a with
  | nil => simp [firstLeast] at h
  | cons x l ih =>
    unfold firstLeast at h
    cases hrest : firstLeast f p l with
    | none =>
      rw [hrest] at h
      simp only at h
      split_ifs at h with hx
      obtain rfl := Option.some.inj h
      have hnone := firstLeast_eq_none.mp hrest
      exact ⟨[], l, rfl, hx, by simp, fun b hb hpb => by simp [hnone b hb] at hpb⟩
    | some b =>
      rw [hrest] at h
      simp only at h
      obtain ⟨before, after, rfl, hb, hbefore, hafter⟩ := ih hrest
      split_ifs at h with hx
      · obtain rfl := Option.some.inj h
        refine ⟨[], _, rfl, hx.1, by simp, fun c hc hpc => ?_⟩
        rcases List.mem_append.mp hc with hc | hc
        · exact hx.2.trans (hbefore c hc hpc).le
        · rcases List.mem_cons.mp hc with rfl | hc
          · exact hx.2
          · exact hx.2.trans (hafter c hc hpc)
      · obtain rfl := Option.some.inj h
        refine ⟨x :: before, after, rfl, hb, fun c hc hpc => ?_, hafter⟩
        rcases List.mem_cons.mp hc with rfl | hc
        · exact lt_of_not_ge fun hle => hx ⟨hpc, hle⟩
        · exact hbefore c hc hpc

/-- Only the entries that meet `q` can be chosen, and they may be looked at through `g`. -/
theorem firstLeast_map_filter (g : γ → α) (q : γ → Bool) (l : List γ) :
    firstLeast f p ((l.filter q).map g) =
      (firstLeast (fun x => f (g x)) (fun x => q x && p (g x)) l).map g := by
  induction l with
  | nil => rfl
  | cons x l ih =>
    rw [List.filter_cons]
    cases hq : q x with
    | false =>
      simp only [Bool.false_eq_true, if_false]
      rw [ih, firstLeast]
      cases firstLeast (fun x => f (g x)) (fun x => q x && p (g x)) l <;> simp [hq]
    | true =>
      simp only [if_true, List.map_cons, firstLeast, ih, hq, Bool.true_and]
      cases firstLeast (fun x => f (g x)) (fun x => q x && p (g x)) l with
      | none =>
        simp only [Option.map_none]
        split_ifs <;> rfl
      | some b =>
        simp only [Option.map_some]
        split_ifs <;> rfl

/-! ## In a sorted list -/

/-- Where an entry goes in a sorted list, and what can be found there then. -/
theorem find?_orderedInsert (hm : m.Pairwise (f · ≤ f ·)) :
    (m.orderedInsert (f · ≤ f ·) x).find? p =
      match m.find? p with
      | none => if p x then some x else none
      | some b => if p x ∧ f x ≤ f b then some x else some b := by
  induction m with
  | nil => cases hx : p x <;> simp [hx]
  | cons y m ih =>
    obtain ⟨hy, hm⟩ := List.pairwise_cons.mp hm
    by_cases hxy : f x ≤ f y
    · rw [List.orderedInsert_cons, if_pos hxy, List.find?_cons]
      cases hfind : (y :: m).find? p with
      | none => cases p x <;> simp
      | some b =>
        have hxb : f x ≤ f b := by
          rcases List.mem_cons.mp (List.mem_of_find?_eq_some hfind) with rfl | hb
          · exact hxy
          · exact hxy.trans (hy b hb)
        cases p x <;> simp [hxb]
    · rw [List.orderedInsert_cons, if_neg hxy, List.find?_cons, List.find?_cons]
      cases p y with
      | true => simp [hxy]
      | false => exact ih hm

theorem find?_insertionSort :
    (l.insertionSort (f · ≤ f ·)).find? p = firstLeast f p l := by
  induction l with
  | nil => rfl
  | cons x l ih =>
    rw [List.insertionSort_cons, find?_orderedInsert (List.pairwise_insertionSort _ l), ih,
      firstLeast]

/-- It is enough that the relation orders the entries of the list. -/
theorem pairwise_insertionSort_on {r : α → α → Prop} [DecidableRel r]
    (htotal : ∀ a ∈ l, ∀ b ∈ l, r a b ∨ r b a)
    (htrans : ∀ a ∈ l, ∀ b ∈ l, ∀ c ∈ l, r a b → r b c → r a c) :
    (l.insertionSort r).Pairwise r := by
  let s (a b : { a // a ∈ l }) : Prop := r a b
  have : Std.Total s := ⟨fun a b => htotal a a.2 b b.2⟩
  have : IsTrans { a // a ∈ l } s := ⟨fun a b c => htrans a a.2 b b.2 c c.2⟩
  have hsorted := List.pairwise_insertionSort s l.attach
  have hmap := List.map_insertionSort s r Subtype.val l.attach fun _ _ _ _ => Iff.rfl
  rw [List.attach_map_subtype_val] at hmap
  rw [← hmap]
  exact List.pairwise_map.mpr hsorted

end FirstLeast
