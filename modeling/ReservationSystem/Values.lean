import ReservationSystem.Lib.Numerals
import ReservationSystem.Message

/-!
# Values in Python

What Python does with a value that came out of `json.loads`: where a dict is expected, as a part
of a dict's key, and as a number.
-/

namespace ReservationSystem

open Numeral

def Json.typeName : Json → String
  | .null => "NoneType"
  | .bool _ => "bool"
  | .int _ => "int"
  | .float _ => "float"
  | .str _ => "str"
  | .list _ => "list"
  | .dict _ => "dict"

mutual

/-- The value is an integer that has more digits than Python turns into text, or has one inside. -/
def Json.tooLong : Json → Bool
  | .int n => 10 ^ maxStrDigits ≤ n.natAbs
  | .list xs => Json.tooLongList xs
  | .dict fields => Json.tooLongFields fields
  | _ => false

def Json.tooLongList : List Json → Bool
  | [] => false
  | v :: vs => v.tooLong || Json.tooLongList vs

def Json.tooLongFields : List (String × Json) → Bool
  | [] => false
  | (_, v) :: fields => v.tooLong || Json.tooLongFields fields

end

section
variable {fields : List (String × Json)} {name : String} {v : Json}

theorem Json.tooLongFields_iff :
    Json.tooLongFields fields = true ↔ ∃ field ∈ fields, field.2.tooLong = true := by
  induction fields with
  | nil => simp [Json.tooLongFields]
  | cons field fields ih => simp [Json.tooLongFields, ih]

theorem Msg.mem_set {stored : List (String × Json)} (h : Msg.set fields name v = stored)
    {field : String × Json} :
    field ∈ stored ↔ field = (name, v) ∨ field ∈ fields ∧ field.1 ≠ name := by
  by_cases hname : name ∈ fields.map Prod.fst
  · obtain rfl : fields.map (fun old => if old.1 = name then (name, v) else old) = stored :=
      (if_pos hname).symm.trans h
    obtain ⟨old, hold, rfl⟩ := List.mem_map.mp hname
    rw [List.mem_map]
    constructor
    · rintro ⟨field, hfield, rfl⟩
      split_ifs with heq
      · exact .inl rfl
      · exact .inr ⟨hfield, heq⟩
    · rintro (rfl | ⟨hfield, heq⟩)
      · exact ⟨old, hold, if_pos rfl⟩
      · exact ⟨field, hfield, if_neg heq⟩
  · have hother (hfield : field ∈ fields) : field.1 ≠ name :=
      fun heq => hname (List.mem_map.mpr ⟨field, hfield, heq⟩)
    obtain rfl : fields ++ [(name, v)] = stored :=
      List.concat_eq_append.symm.trans ((if_neg hname).symm.trans h)
    rw [List.mem_append, List.mem_singleton]
    constructor
    · rintro (hfield | rfl)
      · exact .inr ⟨hfield, hother hfield⟩
      · exact .inl rfl
    · rintro (rfl | ⟨hfield, -⟩)
      · exact .inr rfl
      · exact .inl hfield

/-- The old value of the field no longer counts. -/
theorem Json.tooLongFields_set : Json.tooLongFields (Msg.set fields name v) =
    (v.tooLong || Json.tooLongFields (fields.filter fun field => field.1 ≠ name)) := by
  obtain ⟨stored, h⟩ : ∃ stored : List (String × Json), Msg.set fields name v = stored := ⟨_, rfl⟩
  rw [h, Bool.eq_iff_iff, Bool.or_eq_true, Json.tooLongFields_iff, Json.tooLongFields_iff]
  constructor
  · rintro ⟨field, hfield, hlong⟩
    rcases (Msg.mem_set h).mp hfield with rfl | ⟨hold, hne⟩
    · exact .inl hlong
    · exact .inr ⟨field, List.mem_filter.mpr ⟨hold, by simpa using hne⟩, hlong⟩
  · rintro (hlong | ⟨field, hfield, hlong⟩)
    · exact ⟨(name, v), (Msg.mem_set h).mpr (.inl rfl), hlong⟩
    · obtain ⟨hold, hne⟩ := List.mem_filter.mp hfield
      exact ⟨field, (Msg.mem_set h).mpr (.inr ⟨hold, by simpa using hne⟩), hlong⟩

end

/-- The text of the `ValueError`. -/
def tooManyDigits : String :=
  "Exceeds the limit (4300 digits) for integer string conversion; " ++
    "use sys.set_int_max_str_digits() to increase the limit"

/-- What `v.get` is called on. -/
def Json.fields : Json → Except String Msg
  | .dict fields => .ok fields
  | v => .error ("'" ++ v.typeName ++ "' object has no attribute 'get'")

/-- A value as a part of a dict's key. Values that are equal in Python become the same. -/
def Json.hashed : Json → Except String Json
  | .bool b => .ok (.int b.toNat)
  | .float x =>
    match floatValue x with
    | .finite negative m e =>
      .ok (if IsIntegral m e then .int (truncate negative m e) else .float x)
    | _ => .ok (.float x)
  | .list _ => .error "unhashable type: 'list'"
  | .dict _ => .error "unhashable type: 'dict'"
  | v => .ok v

/-- A list or an object. -/
def Json.Unhashable : Json → Prop
  | .list _ | .dict _ => True
  | _ => False

theorem Json.hashed_error {v : Json} : (∃ text, v.hashed = .error text) ↔ v.Unhashable := by
  cases v with
  | float x =>
    unfold hashed
    simp only [Unhashable, iff_false, not_exists]
    intro text
    split <;> simp
  | _ => simp [hashed, Unhashable]

theorem Json.hashed_str {v : Json} {text : String} :
    v.hashed = .ok (.str text) ↔ v = .str text := by
  cases v with
  | float x =>
    simp only [hashed]
    cases floatValue x with
    | finite negative m e =>
      simp only [Except.ok.injEq, reduceCtorEq, iff_false]
      split_ifs <;> simp
    | _ => simp
  | _ => simp [hashed]

/-- Why `int(v)` raises. -/
inductive IntError
  | typeError
  | valueError
  | overflowError
  deriving DecidableEq, Repr

/-- `int(v)`. -/
def Json.toInt : Json → Except IntError Int
  | .int n => .ok n
  | .bool b => .ok b.toNat
  | .float x =>
    match floatValue x with
    | .nan => .error .valueError
    | .infinite => .error .overflowError
    | .finite negative m e => .ok (truncate negative m e)
  | .str text => ((int? text.toList).map Except.ok).getD (.error .valueError)
  | .null | .list _ | .dict _ => .error .typeError

end ReservationSystem
