import Mathlib.Data.List.Basic
import Mathlib.Logic.Function.Basic

/-!
# Looking things up while they change

A loop takes the members of a list one by one and looks each of them up in a state. The state can
change between two looks: `moments` are the states since the loop began, the last of them is the
present one.
-/

namespace Scan

variable {σ α β : Type*} {view : σ → α → β} {moments : List σ} {done todo : List α}
  {read : α → β} {s s' : σ} {x : α}

/-- The members of `done` were looked up one after the other, and `read` is what was seen. -/
def Seen (view : σ → α → β) (moments : List σ) (done : List α) (read : α → β) : Prop :=
  ∃ time : α → Nat, (done.map time).Pairwise (· ≤ ·) ∧
    ∀ x ∈ done, ∃ s, moments[time x]? = some s ∧ view s x = read x

/-- One state has what was seen, and for the members of `todo` what is there at present. -/
def InOne (view : σ → α → β) (moments : List σ) (done todo : List α) (read : α → β) (s : σ) :
    Prop :=
  ∃ t ∈ moments, (∀ x ∈ done, view t x = read x) ∧ ∀ x ∈ todo, view t x = view s x

theorem seen_nil (moments : List σ) (read : α → β) : Seen view moments [] read :=
  ⟨fun _ => 0, List.Pairwise.nil, nofun⟩

theorem Seen.happen (h : Seen view moments done read) (s : σ) :
    Seen view (moments ++ [s]) done read := by
  obtain ⟨time, hmono, hread⟩ := h
  refine ⟨time, hmono, fun x hx => ?_⟩
  obtain ⟨t, ht, hview⟩ := hread x hx
  exact ⟨t, List.getElem?_append_left (List.getElem?_eq_some_iff.mp ht).1 ▸ ht, hview⟩

theorem inOne_start (s : σ) (todo : List α) (read : α → β) :
    InOne view [s] [] todo read s :=
  ⟨s, List.mem_singleton_self s, nofun, fun _ _ => rfl⟩

theorem InOne.unchanged (h : InOne view moments done todo read s)
    (hsame : ∀ x ∈ todo, view s' x = view s x) :
    InOne view (moments ++ [s']) done todo read s' := by
  obtain ⟨t, ht, hread, hrest⟩ := h
  exact ⟨t, List.mem_append_left _ ht, hread, fun y hy => (hrest y hy).trans (hsame y hy).symm⟩

/-- The first change, at one member `x`. If it is still to come, the new state has all that was
seen, and if not, the old one has all that will be. -/
theorem InOne.change (h : InOne view moments done todo read s)
    (hdisjoint : done.Disjoint todo) (hfirst : ∀ t ∈ moments, ∀ y ∈ done, view t y = view s y)
    (hone : ∀ y ≠ x, view s' y = view s y) :
    InOne view (moments ++ [s']) done todo read s' := by
  by_cases hx : x ∈ todo
  · obtain ⟨t, ht, hread, -⟩ := h
    refine ⟨s', List.mem_append_right _ (List.mem_singleton_self s'), fun y hy => ?_,
      fun _ _ => rfl⟩
    have hne : y ≠ x := fun heq => hdisjoint hy (heq ▸ hx)
    rw [hone y hne, ← hfirst t ht y hy]
    exact hread y hy
  · exact h.unchanged fun y hy => hone y fun heq => hx (heq ▸ hy)

section
variable [DecidableEq α]

/-- The next look is at the present state. -/
theorem Seen.look (h : Seen view moments done read) (hlast : moments.getLast? = some s)
    (hx : x ∉ done) :
    Seen view moments (done ++ [x]) (Function.update read x (view s x)) := by
  obtain ⟨time, hmono, hread⟩ := h
  have hold : ∀ y ∈ done, y ≠ x := fun y hy heq => hx (heq ▸ hy)
  have htimes : done.map (Function.update time x (moments.length - 1)) = done.map time :=
    List.map_congr_left fun y hy => Function.update_of_ne (hold y hy) ..
  refine ⟨Function.update time x (moments.length - 1), ?_, fun y hy => ?_⟩
  · rw [List.map_append, htimes, List.map_singleton, Function.update_self, List.pairwise_append]
    refine ⟨hmono, List.pairwise_singleton .., fun n hn m hm => ?_⟩
    obtain ⟨y, hy, rfl⟩ := List.mem_map.mp hn
    obtain rfl := List.mem_singleton.mp hm
    obtain ⟨t, ht, -⟩ := hread y hy
    have hlt : time y < moments.length := (List.getElem?_eq_some_iff.mp ht).1
    omega
  · rcases List.mem_append.mp hy with hy | hy
    · rw [Function.update_of_ne (hold y hy), Function.update_of_ne (hold y hy)]
      exact hread y hy
    · obtain rfl := List.mem_singleton.mp hy
      rw [Function.update_self, Function.update_self, ← List.getLast?_eq_getElem?]
      exact ⟨s, hlast, rfl⟩

theorem InOne.look (h : InOne view moments done (x :: todo) read s) (hx : x ∉ done) :
    InOne view moments (done ++ [x]) todo (Function.update read x (view s x)) s := by
  obtain ⟨t, ht, hread, hrest⟩ := h
  refine ⟨t, ht, fun y hy => ?_, fun y hy => hrest y (List.mem_cons_of_mem x hy)⟩
  rcases List.mem_append.mp hy with hy | hy
  · have hne : y ≠ x := fun heq => hx (heq ▸ hy)
    rw [Function.update_of_ne hne]
    exact hread y hy
  · obtain rfl := List.mem_singleton.mp hy
    rw [Function.update_self]
    exact hrest y List.mem_cons_self

end

end Scan
