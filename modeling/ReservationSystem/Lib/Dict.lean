import Mathlib.Data.List.Nodup

/-!
# Insertion-ordered dictionaries

A Python `dict`: at most one entry for each key, in the order in which the keys were
first inserted.
-/

/-- A list of entries whose keys are pairwise distinct. -/
structure Dict (α β : Type*) where
  entries : List (α × β)
  nodup : (entries.map Prod.fst).Nodup

namespace Dict

variable {α β γ : Type*}

@[ext]
theorem ext {d d' : Dict α β} (h : d.entries = d'.entries) : d = d' := by
  obtain ⟨l, hl⟩ := d
  obtain ⟨l', hl'⟩ := d'
  obtain rfl : l = l' := h
  rfl

def empty : Dict α β := ⟨[], List.nodup_nil⟩

def keys (d : Dict α β) : List α := d.entries.map Prod.fst

/-- The entries whose keys satisfy `p`, each seen through `f`. -/
def restrict (p : α → Bool) (f : β → γ) (d : Dict α β) : Dict α γ where
  entries := (d.entries.filter fun e => p e.1).map fun e => (e.1, f e.2)
  nodup := by
    rw [List.map_map]
    exact d.nodup.sublist (List.filter_sublist.map Prod.fst)

theorem entries_restrict (p : α → Bool) (f : β → γ) (d : Dict α β) :
    (d.restrict p f).entries = (d.entries.filter fun e => p e.1).map fun e => (e.1, f e.2) := rfl

/-- The same dictionary with its keys seen through `f` and its values through `g`. -/
def transport {α' : Type*} {f : α → α'} (hf : Function.Injective f) (g : β → γ) (d : Dict α β) :
    Dict α' γ where
  entries := d.entries.map fun e => (f e.1, g e.2)
  nodup := by
    have hkeys : (d.entries.map fun e => (f e.1, g e.2)).map Prod.fst =
        (d.entries.map Prod.fst).map f := by simp
    rw [hkeys]
    exact d.nodup.map hf

theorem mem_keys_transport {α' : Type*} {f : α → α'} (hf : Function.Injective f) (g : β → γ)
    (d : Dict α β) (k : α) : f k ∈ (d.transport hf g).keys ↔ k ∈ d.keys := by
  have hkeys : (d.transport hf g).keys = d.keys.map f := by simp [keys, transport]
  rw [hkeys, List.mem_map_of_injective hf]

section
variable [DecidableEq α]

/-- `d.get(k)`. -/
def get? (d : Dict α β) (k : α) : Option β :=
  (d.entries.find? fun e => e.1 = k).map Prod.snd

/-- `d.pop(k, None)`, and `del d[k]` where the key is there. -/
def erase (d : Dict α β) (k : α) : Dict α β where
  entries := d.entries.filter fun e => e.1 ≠ k
  nodup := d.nodup.sublist (List.filter_sublist.map Prod.fst)

theorem not_mem_keys_iff (d : Dict α β) (k : α) : k ∉ d.keys ↔ d.get? k = none := by
  simp only [keys, get?, List.mem_map, Option.map_eq_none_iff, List.find?_eq_none,
    decide_eq_true_eq, not_exists, not_and]

theorem get?_eq_some_iff (d : Dict α β) (k : α) (v : β) :
    d.get? k = some v ↔ (k, v) ∈ d.entries := by
  constructor
  · intro h
    obtain ⟨e, he, rfl⟩ := Option.map_eq_some_iff.mp h
    have hk : e.1 = k := by simpa using List.find?_some he
    exact hk ▸ List.mem_of_find?_eq_some he
  · intro h
    cases hf : d.entries.find? fun e => e.1 = k with
    | none => simpa using List.find?_eq_none.mp hf _ h
    | some e =>
      have hk : e.1 = k := by simpa using List.find?_some hf
      have he : e = (k, v) :=
        List.inj_on_of_nodup_map d.nodup (List.mem_of_find?_eq_some hf) h hk
      rw [get?, hf, he]
      rfl

theorem keys_overwrite (l : List (α × β)) (k : α) (v : β) :
    (l.map fun e => if e.1 = k then (k, v) else e).map Prod.fst = l.map Prod.fst := by
  rw [List.map_map]
  refine List.map_congr_left fun e _ => ?_
  by_cases h : e.1 = k <;> simp [h]

/-- `d[k] = v`: in place when the key is there, at the end when it is not. -/
def set (d : Dict α β) (k : α) (v : β) : Dict α β :=
  if h : k ∈ d.keys then
    ⟨d.entries.map fun e => if e.1 = k then (k, v) else e, by
      rw [keys_overwrite]; exact d.nodup⟩
  else
    ⟨d.entries ++ [(k, v)], by
      rw [List.map_append, List.nodup_append]
      refine ⟨d.nodup, List.nodup_singleton _, ?_⟩
      rintro a ha b hb rfl
      rw [List.map_singleton, List.mem_singleton] at hb
      rw [hb] at ha
      exact h ha⟩

theorem entries_set_of_mem {d : Dict α β} {k : α} (h : k ∈ d.keys) (v : β) :
    (d.set k v).entries = d.entries.map fun e => if e.1 = k then (k, v) else e := by
  rw [set, dif_pos h]

theorem keys_set_of_mem {d : Dict α β} {k : α} (h : k ∈ d.keys) (v : β) :
    (d.set k v).keys = d.keys := by
  unfold keys
  rw [entries_set_of_mem h, keys_overwrite]

theorem entries_set_of_not_mem {d : Dict α β} {k : α} (h : k ∉ d.keys) (v : β) :
    (d.set k v).entries = d.entries ++ [(k, v)] := by
  rw [set, dif_neg h]

@[simp]
theorem get?_empty (k : α) : (empty : Dict α β).get? k = none := rfl

theorem find?_overwrite (l : List (α × β)) (k k' : α) (v : β) :
    ((l.map fun e => if e.1 = k then (k, v) else e).find? fun e => e.1 = k').map Prod.snd =
      if k' = k then if k ∈ l.map Prod.fst then some v else none
      else (l.find? fun e => e.1 = k').map Prod.snd := by
  induction l with
  | nil => simp
  | cons e l ih =>
    rw [List.map_cons, List.find?_cons, List.find?_cons]
    by_cases hk : k' = k
    · subst hk
      by_cases he : e.1 = k'
      · simp [he]
      · have hne : k' ≠ e.1 := fun h => he h.symm
        rw [if_neg he, decide_eq_false he, ih]
        simp only [if_true, List.map_cons, List.mem_cons, hne, false_or]
    · have hkk : k ≠ k' := fun h => hk h.symm
      by_cases he : e.1 = k
      · simpa [he, hk, hkk] using ih
      · by_cases he' : e.1 = k'
        · simp [he', hk]
        · simpa [he, he', hk] using ih

theorem erase_of_not_mem {d : Dict α β} {k : α} (h : k ∉ d.keys) : d.erase k = d := by
  apply ext
  refine List.filter_eq_self.mpr fun e he => ?_
  rw [decide_eq_true_eq]
  rintro rfl
  exact h (List.mem_map_of_mem he)

theorem get?_set (d : Dict α β) (k k' : α) (v : β) :
    (d.set k v).get? k' = if k' = k then some v else d.get? k' := by
  unfold set
  split_ifs with hmem hk hk
  · subst hk
    have h := find?_overwrite d.entries k' k' v
    rw [if_pos rfl, if_pos (show k' ∈ d.entries.map Prod.fst from hmem)] at h
    exact h
  · have h := find?_overwrite d.entries k k' v
    rw [if_neg hk] at h
    exact h
  · subst hk
    have hnone : d.entries.find? (fun e => e.1 = k') = none := by
      simpa [get?] using (not_mem_keys_iff d k').mp hmem
    simp [get?, List.find?_append, hnone]
  · have hkk : k ≠ k' := fun h => hk h.symm
    simp [get?, List.find?_append, hkk]

theorem set_of_get? {d : Dict α β} {k : α} {v : β} (h : d.get? k = some v) : d.set k v = d := by
  apply ext
  have hmem : (k, v) ∈ d.entries := (get?_eq_some_iff d k v).mp h
  rw [entries_set_of_mem (List.mem_map_of_mem hmem)]
  refine (List.map_congr_left fun e he => ?_).trans (List.map_id _)
  split_ifs with hk
  · exact List.inj_on_of_nodup_map d.nodup hmem he hk.symm
  · rfl

theorem get?_erase (d : Dict α β) (k k' : α) :
    (d.erase k).get? k' = if k' = k then none else d.get? k' := by
  split_ifs with hk
  · subst hk
    simp [get?, erase, List.find?_eq_none]
  · have hfun : ∀ e : α × β, (decide (e.1 ≠ k) = true ∧ decide (e.1 = k') = true) ↔ e.1 = k' := by
      intro e
      simp only [decide_eq_true_eq, and_iff_right_iff_imp]
      rintro rfl
      exact hk
    simp only [get?, erase, List.find?_filter, hfun]

/-! ## Other keys for the same entries -/

section
variable {α' : Type*} [DecidableEq α'] {f : α → α'}

theorem transport_set (hf : Function.Injective f) (g : β → γ) (d : Dict α β) (k : α) (v : β) :
    (d.set k v).transport hf g = (d.transport hf g).set (f k) (g v) := by
  apply ext
  by_cases hk : k ∈ d.keys
  · rw [entries_set_of_mem ((mem_keys_transport hf g d k).mpr hk)]
    simp only [transport, entries_set_of_mem hk, List.map_map]
    refine List.map_congr_left fun e _ => ?_
    by_cases he : e.1 = k <;> simp [he, hf.eq_iff]
  · rw [entries_set_of_not_mem fun h => hk ((mem_keys_transport hf g d k).mp h)]
    simp [transport, entries_set_of_not_mem hk]

theorem get?_transport (hf : Function.Injective f) (g : β → γ) (d : Dict α β) (k : α) :
    (d.transport hf g).get? (f k) = (d.get? k).map g := by
  simp only [get?, transport, List.find?_map, Option.map_map, Function.comp_def, hf.eq_iff]

theorem transport_erase (hf : Function.Injective f) (g : β → γ) (d : Dict α β) (k : α) :
    (d.erase k).transport hf g = (d.transport hf g).erase (f k) := by
  apply ext
  simp [transport, erase, List.filter_map, Function.comp_def, hf.eq_iff]

end

/-! ## Parts of a dictionary -/

section
variable (p : α → Bool) (f : β → γ)

theorem get?_restrict (d : Dict α β) (k : α) :
    (d.restrict p f).get? k = if p k then (d.get? k).map f else none := by
  have hfun : (fun e : α × γ => decide (e.1 = k)) ∘ (fun e : α × β => (e.1, f e.2)) =
      fun e : α × β => decide (e.1 = k) := rfl
  simp only [get?, restrict, List.find?_map, hfun, List.find?_filter, Option.map_map]
  split_ifs with hk
  · have hsame : ∀ e : α × β, (p e.1 = true ∧ decide (e.1 = k) = true) ↔ e.1 = k := by
      intro e
      simp only [decide_eq_true_eq, and_iff_right_iff_imp]
      rintro rfl
      exact hk
    simp only [hsame]
    rfl
  · simp only [Option.map_eq_none_iff, List.find?_eq_none, decide_eq_true_eq]
    rintro e - ⟨he, rfl⟩
    exact hk he

theorem mem_keys_restrict (d : Dict α β) (k : α) :
    k ∈ (d.restrict p f).keys ↔ k ∈ d.keys ∧ p k = true := by
  rw [← not_iff_not, not_mem_keys_iff, get?_restrict, not_and_or, not_mem_keys_iff]
  split_ifs with hk <;> simp [hk]

/-- Writing in place does not change which entries are in the part. -/
theorem restrict_overwrite (l : List (α × β)) (k : α) (v : β) :
    ((l.map fun e => if e.1 = k then (k, v) else e).filter fun e => p e.1).map
        (fun e => (e.1, f e.2)) =
      ((l.filter fun e => p e.1).map fun e => (e.1, f e.2)).map
        fun e => if e.1 = k then (k, f v) else e := by
  induction l with
  | nil => rfl
  | cons e l ih =>
    by_cases he : e.1 = k <;> by_cases hp : p e.1 <;> simp_all

/-- A write outside a part leaves it alone, and one inside it is a write to it. -/
theorem restrict_set (d : Dict α β) (k : α) (v : β) :
    (d.set k v).restrict p f =
      if p k then (d.restrict p f).set k (f v) else d.restrict p f := by
  apply ext
  rw [entries_restrict]
  by_cases hmem : k ∈ d.keys
  · rw [entries_set_of_mem hmem, restrict_overwrite]
    split_ifs with hk
    · rw [entries_set_of_mem ((mem_keys_restrict p f d k).mpr ⟨hmem, hk⟩), entries_restrict]
    · refine (List.map_congr_left fun e he => ?_).trans (List.map_id _)
      have hne : e.1 ≠ k := by
        rintro rfl
        obtain ⟨e', he', rfl⟩ := List.mem_map.mp he
        exact hk (List.mem_filter.mp he').2
      simp [hne]
  · rw [entries_set_of_not_mem hmem, List.filter_append, List.map_append]
    split_ifs with hk
    · rw [entries_set_of_not_mem fun h => hmem ((mem_keys_restrict p f d k).mp h).1,
        entries_restrict]
      simp [hk]
    · simp [entries_restrict, hk]

theorem restrict_erase (d : Dict α β) (k : α) :
    (d.erase k).restrict p f = (d.restrict p f).erase k := by
  apply ext
  simp [restrict, erase, List.filter_map, Function.comp_def, Bool.and_comm]

end

end

end Dict
