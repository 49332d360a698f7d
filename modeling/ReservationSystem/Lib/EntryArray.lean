import Mathlib.Data.List.ReduceOption
import ReservationSystem.Lib.Dict

/-!
# Iterating over a dict that changes

CPython keeps the entries of a dict in an array, in the order in which they were inserted. A
deletion leaves a hole, and an insertion may move the entries together before it. An iterator
remembers a position in the array.
-/

namespace EntryArray

variable {α β : Type*} {slots : List (Option (α × β))} {d : Dict α β}

def entries (slots : List (Option (α × β))) : List (α × β) := slots.reduceOption

theorem entries_append (l m : List (Option (α × β))) : entries (l ++ m) = entries l ++ entries m :=
  List.reduceOption_append ..

theorem entries_take_drop (n : Nat) :
    entries (slots.take n) ++ entries (slots.drop n) = entries slots := by
  rw [← entries_append, List.take_append_drop]

theorem entries_filter_isSome : entries (slots.filter Option.isSome) = entries slots := by
  unfold entries List.reduceOption
  induction slots with
  | nil => rfl
  | cons slot slots ih => cases slot <;> simp_all

theorem entries_map (f : α × β → α × β) :
    entries (slots.map fun slot => slot.map f) = (entries slots).map f :=
  List.reduceOption_map

theorem entries_map_filter (p : α × β → Bool) :
    entries (slots.map fun slot => slot.filter p) = (entries slots).filter p := by
  unfold entries List.reduceOption
  induction slots with
  | nil => rfl
  | cons slot slots ih =>
    cases slot with
    | none => simpa using ih
    | some e => cases hp : p e <;> simp_all [Option.filter]

section
variable [DecidableEq α] {k : α}

/-- The array after `d[k] = v`, or after `del d[k]` when there is no new value. `compact` says
whether the entries are moved together for an insertion. -/
def put (compact : Bool) (k : α) (slots : List (Option (α × β))) : Option β → List (Option (α × β))
  | some v =>
    if k ∈ (entries slots).map Prod.fst then
      slots.map fun slot => slot.map fun e => if e.1 = k then (k, v) else e
    else (if compact then slots.filter Option.isSome else slots) ++ [some (k, v)]
  | none => slots.map fun slot => slot.filter fun e => e.1 ≠ k

theorem entries_put_some (h : entries slots = d.entries) (compact : Bool) (v : β) :
    entries (put compact k slots (some v)) = (d.set k v).entries := by
  have hkeys : (entries slots).map Prod.fst = d.keys := congrArg (List.map Prod.fst) h
  simp only [put, hkeys]
  by_cases hk : k ∈ d.keys
  · rw [if_pos hk, Dict.entries_set_of_mem hk, entries_map, h]
  · rw [if_neg hk, Dict.entries_set_of_not_mem hk, ← h, entries_append]
    split_ifs
    · rw [entries_filter_isSome]
      rfl
    · rfl

theorem entries_put_none (h : entries slots = d.entries) (compact : Bool) :
    entries (put compact k slots none) = (d.erase k).entries := by
  simp only [put, entries_map_filter, h]
  rfl

end

/-! ## The iterator -/

/-- `used` is the size of the dict when the iterator was made, and `left` counts down from it. -/
structure Cursor where
  used : Nat
  pos : Nat
  left : Nat

def Cursor.start (slots : List (Option (α × β))) : Cursor :=
  ⟨(entries slots).length, 0, (entries slots).length⟩

inductive Next (α β : Type*)
  | raises (text : String)
  | stop
  | yields (e : α × β) (c : Cursor)

def Next.raised : Next α β → Bool
  | .raises _ => true
  | _ => false

/-- The first entry from here on, and what comes after it. -/
def firstEntry : List (Option (α × β)) → Option ((α × β) × List (Option (α × β)))
  | [] => none
  | none :: slots => firstEntry slots
  | some e :: slots => some (e, slots)

/-- `next` of the iterator. -/
def Cursor.next (c : Cursor) (slots : List (Option (α × β))) : Next α β :=
  if (entries slots).length ≠ c.used then .raises "dictionary changed size during iteration"
  else
    match firstEntry (slots.drop c.pos) with
    | none => .stop
    | some (e, rest) =>
      if c.left = 0 then .raises "dictionary keys changed during iteration"
      else .yields e ⟨c.used, slots.length - rest.length, c.left - 1⟩

theorem firstEntry_eq_none (h : firstEntry slots = none) : entries slots = [] := by
  induction slots with
  | nil => rfl
  | cons slot slots ih =>
    cases slot with
    | none => exact ih h
    | some e => simp [firstEntry] at h

theorem firstEntry_eq_some {e : α × β} {rest : List (Option (α × β))}
    (h : firstEntry slots = some (e, rest)) :
    rest <:+ slots ∧ entries slots = e :: entries rest := by
  induction slots with
  | nil => simp [firstEntry] at h
  | cons slot slots ih =>
    cases slot with
    | none =>
      obtain ⟨hsuffix, hentries⟩ := ih h
      exact ⟨hsuffix.trans (List.suffix_cons ..), hentries⟩
    | some e' =>
      obtain ⟨rfl, rfl⟩ : e' = e ∧ slots = rest := by simpa [firstEntry] using h
      exact ⟨List.suffix_cons .., rfl⟩

theorem next_stop {c : Cursor} (h : c.next slots = .stop) : entries (slots.drop c.pos) = [] := by
  unfold Cursor.next at h
  split at h
  · simp at h
  · cases hfirst : firstEntry (slots.drop c.pos) with
    | none => exact firstEntry_eq_none hfirst
    | some x =>
      rw [hfirst] at h
      simp only at h
      split at h <;> simp at h

theorem next_yields {c c' : Cursor} {e : α × β} (h : c.next slots = .yields e c') :
    entries (slots.take c'.pos) = entries (slots.take c.pos) ++ [e] ∧
      entries (slots.drop c.pos) = e :: entries (slots.drop c'.pos) ∧ c'.left < c.left := by
  unfold Cursor.next at h
  split at h
  · simp at h
  · cases hfirst : firstEntry (slots.drop c.pos) with
    | none => simp [hfirst] at h
    | some x =>
      obtain ⟨e', rest⟩ := x
      rw [hfirst] at h
      simp only at h
      split at h
      · simp at h
      · obtain ⟨rfl, rfl⟩ := Next.yields.inj h
        obtain ⟨hsuffix, hentries⟩ := firstEntry_eq_some hfirst
        have hdrop : slots.drop (slots.length - rest.length) = rest :=
          (List.suffix_iff_eq_drop.mp (hsuffix.trans (List.drop_suffix ..))).symm
        refine ⟨?_, ?_, ?_⟩
        · have hboth := (@entries_take_drop _ _ slots c.pos).trans
            (entries_take_drop (slots.length - rest.length)).symm
          rw [hentries, hdrop, ← List.singleton_append, ← List.append_assoc] at hboth
          exact (List.append_cancel_right hboth).symm
        · rw [hentries, hdrop]
        · simp only
          omega

end EntryArray
