import Mathlib.Data.Prod.Lex
import Mathlib.Data.String.Basic
import ReservationSystem.Values

/-!
# Python's order on values

`==` and `<`, also inside a tuple. Values of different types cannot be ordered, and neither can two
nulls or two objects.
-/

namespace ReservationSystem

open Numeral

/-! ## Numbers -/

/-- A number to compare. A finite one is `n * 10 ^ e`. -/
inductive Number
  | nan
  | negInfinity
  | finite (n e : Int)
  | infinity

namespace Number

def lt : Number → Number → Bool
  | .nan, _ | _, .nan => false
  | .finite n e, .finite m f =>
    n * 10 ^ (e - min e f).toNat < m * 10 ^ (f - min e f).toNat
  | .negInfinity, .negInfinity | .infinity, _ | _, .negInfinity => false
  | .negInfinity, _ | _, .infinity => true

/-- `json.loads` makes one NaN only, and an object equals itself inside a tuple. -/
def eq : Number → Number → Bool
  | .nan, .nan => true
  | .nan, _ | _, .nan => false
  | a, b => !a.lt b && !b.lt a

end Number

def Json.number? : Json → Option Number
  | .bool b => some (.finite b.toNat 0)
  | .int n => some (.finite n 0)
  | .float x =>
    match floatValue x with
    | .nan => some .nan
    | .infinite => some (if x.toList.head? = some '-' then .negInfinity else .infinity)
    | .finite negative m e =>
      some (if IsIntegral m e then .finite (truncate negative m e) 0
        else .finite (if negative then -m else m) e)
  | _ => none

/-! ## Values -/

mutual

/-- `v == w` inside a tuple or a list. -/
def Json.eq : Json → Json → Bool
  | .null, .null => true
  | .str a, .str b => a = b
  | .list xs, .list ys => Json.eqList xs ys
  | .dict f, .dict g => f.length = g.length && Json.eqFields f g
  | v, w =>
    match v.number?, w.number? with
    | some a, some b => a.eq b
    | _, _ => false

def Json.eqList : List Json → List Json → Bool
  | [], [] => true
  | x :: xs, y :: ys => x.eq y && Json.eqList xs ys
  | _, _ => false

def Json.eqFields : List (String × Json) → List (String × Json) → Bool
  | [], _ => true
  | (name, x) :: f, g =>
    (match g.lookup name with
      | some y => x.eq y
      | none => false) && Json.eqFields f g

end

/-- `v == w`. Only inside a tuple or a list does NaN equal itself. -/
def Json.equals (v w : Json) : Bool :=
  match v.number? with
  | some .nan => false
  | _ => v.eq w

mutual

/-- `v < w`. It raises a `TypeError` where this is `none`. -/
def Json.lt? : Json → Json → Option Bool
  | .str a, .str b => some (a < b)
  | .list xs, .list ys => Json.ltList? xs ys
  | v, w =>
    match v.number?, w.number? with
    | some a, some b => some (a.lt b)
    | _, _ => none

/-- The first values that differ decide. -/
def Json.ltList? : List Json → List Json → Option Bool
  | _, [] => some false
  | [], _ :: _ => some true
  | x :: xs, y :: ys => if x.eq y then Json.ltList? xs ys else x.lt? y

end

/-! ## Keys that can be sorted -/

/-- Any two of these tuples can be compared, and what `<` says of them is an order. -/
structure Orderly (K : List Json → Prop) : Prop where
  comparable : ∀ a b, K a → K b → (Json.ltList? a b).isSome
  asymm : ∀ a b, K a → K b → Json.ltList? a b = some true → Json.ltList? b a = some false
  trans : ∀ a b c, K a → K b → K c → Json.ltList? b a = some false →
    Json.ltList? c b = some false → Json.ltList? c a = some false

theorem Orderly.mono {K K' : List Json → Prop} (ho : Orderly K) (h : ∀ a, K' a → K a) :
    Orderly K' where
  comparable a b ha hb := ho.comparable a b (h a ha) (h b hb)
  asymm a b ha hb := ho.asymm a b (h a ha) (h b hb)
  trans a b c ha hb hc := ho.trans a b c (h a ha) (h b hb) (h c hc)

theorem ltList?_texts (a b c d : String) :
    Json.ltList? [.str a, .str b] [.str c, .str d] =
      some (decide (toLex (a, b) < toLex (c, d))) := by
  simp only [Json.ltList?, Json.eq, Json.lt?, decide_eq_true_eq, Prod.Lex.toLex_lt_toLex]
  by_cases hac : a = c
  · by_cases hbd : b = d
    · simp [hac, hbd]
    · simp [hac, hbd]
  · simp [hac]

theorem orderly_texts {K : List Json → Prop} (h : ∀ a, K a → ∃ b c, a = [.str b, .str c]) :
    Orderly K := by
  constructor
  · intro a b ha hb
    obtain ⟨a₁, a₂, rfl⟩ := h a ha
    obtain ⟨b₁, b₂, rfl⟩ := h b hb
    rw [ltList?_texts]
    rfl
  · intro a b ha hb hlt
    obtain ⟨a₁, a₂, rfl⟩ := h a ha
    obtain ⟨b₁, b₂, rfl⟩ := h b hb
    rw [ltList?_texts] at hlt ⊢
    have hlt := of_decide_eq_true (Option.some.inj hlt)
    rw [decide_eq_false hlt.asymm]
  · intro a b c ha hb hc hba hcb
    obtain ⟨a₁, a₂, rfl⟩ := h a ha
    obtain ⟨b₁, b₂, rfl⟩ := h b hb
    obtain ⟨c₁, c₂, rfl⟩ := h c hc
    rw [ltList?_texts] at hba hcb ⊢
    have hba := not_lt.mp (of_decide_eq_false (Option.some.inj hba))
    have hcb := not_lt.mp (of_decide_eq_false (Option.some.inj hcb))
    rw [decide_eq_false (not_lt.mpr (hba.trans hcb))]

end ReservationSystem
