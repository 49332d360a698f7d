import Mathlib.Algebra.Group.Nat.Defs
import Mathlib.Algebra.Ring.Int.Defs
import Mathlib.Data.List.Basic
import Mathlib.Data.List.Induction

/-!
# Numbers as Python reads them

`str.isdigit`, `int` of a string, and `int` of a float that is given by its text. The tables
are those of Unicode 15.1.
-/

namespace Numeral

/-! ## Digits -/

/-- The zeros of the decimal digits. The digits from 1 to 9 follow each of them. -/
def decimalZeros : List Nat :=
  [0x30, 0x660, 0x6f0, 0x7c0, 0x966, 0x9e6, 0xa66, 0xae6, 0xb66, 0xbe6, 0xc66, 0xce6, 0xd66,
    0xde6, 0xe50, 0xed0, 0xf20, 0x1040, 0x1090, 0x17e0, 0x1810, 0x1946, 0x19d0, 0x1a80, 0x1a90,
    0x1b50, 0x1bb0, 0x1c40, 0x1c50, 0xa620, 0xa8d0, 0xa900, 0xa9d0, 0xa9f0, 0xaa50, 0xabf0,
    0xff10, 0x104a0, 0x10d30, 0x11066, 0x110f0, 0x11136, 0x111d0, 0x112f0, 0x11450, 0x114d0,
    0x11650, 0x116c0, 0x11730, 0x118e0, 0x11950, 0x11c50, 0x11d50, 0x11da0, 0x11f50, 0x16a60,
    0x16ac0, 0x16b50, 0x1d7ce, 0x1d7d8, 0x1d7e2, 0x1d7ec, 0x1d7f6, 0x1e140, 0x1e2f0, 0x1e4f0,
    0x1e950, 0x1fbf0]

/-- The digits that are not decimal, superscripts for example. Each pair is a range. -/
def otherDigits : List (Nat × Nat) :=
  [(0xb2, 0xb3), (0xb9, 0xb9), (0x1369, 0x1371), (0x19da, 0x19da), (0x2070, 0x2070),
    (0x2074, 0x2079), (0x2080, 0x2089), (0x2460, 0x2468), (0x2474, 0x247c), (0x2488, 0x2490),
    (0x24ea, 0x24ea), (0x24f5, 0x24fd), (0x24ff, 0x24ff), (0x2776, 0x277e), (0x2780, 0x2788),
    (0x278a, 0x2792), (0x10a40, 0x10a43), (0x10e60, 0x10e68), (0x11052, 0x1105a),
    (0x1f100, 0x1f10a)]

/-- The white space around a number. -/
def blanks : List (Nat × Nat) :=
  [(0x9, 0xd), (0x20, 0x20), (0x85, 0x85), (0xa0, 0xa0), (0x1680, 0x1680), (0x2000, 0x200a),
    (0x2028, 0x2029), (0x202f, 0x202f), (0x205f, 0x205f), (0x3000, 0x3000)]

def InRanges (ranges : List (Nat × Nat)) (c : Char) : Prop :=
  ∃ r ∈ ranges, r.1 ≤ c.toNat ∧ c.toNat ≤ r.2

instance (ranges : List (Nat × Nat)) (c : Char) : Decidable (InRanges ranges c) :=
  inferInstanceAs (Decidable (∃ r ∈ ranges, r.1 ≤ c.toNat ∧ c.toNat ≤ r.2))

/-- The value of a decimal digit. -/
def decimal? (c : Char) : Option Nat :=
  (decimalZeros.find? fun n => n ≤ c.toNat ∧ c.toNat ≤ n + 9).map (c.toNat - ·)

/-- `c.isdigit()`. -/
def IsDigit (c : Char) : Prop := (decimal? c).isSome ∨ InRanges otherDigits c

instance (c : Char) : Decidable (IsDigit c) :=
  inferInstanceAs (Decidable ((decimal? c).isSome ∨ InRanges otherDigits c))

/-- `text.isdigit()`. -/
def AllDigits (text : List Char) : Prop := text ≠ [] ∧ ∀ c ∈ text, IsDigit c

instance (text : List Char) : Decidable (AllDigits text) :=
  inferInstanceAs (Decidable (text ≠ [] ∧ ∀ c ∈ text, IsDigit c))

/-! ## Integers -/

/-- The digits of a numeral. One underscore may stand between two of them. `after` says
whether a digit came just before. -/
def digits? (after : Bool) : List Char → Option (List Nat)
  | [] => if after then some [] else none
  | c :: text =>
    if c = '_' then
      if after then digits? false text else none
    else (decimal? c).bind fun d => (digits? true text).map (d :: ·)

def ofDigits (ds : List Nat) : Nat := ds.foldl (fun n d => 10 * n + d) 0

def strip (text : List Char) : List Char :=
  ((text.dropWhile (InRanges blanks ·)).reverse.dropWhile (InRanges blanks ·)).reverse

/-- `sys.get_int_max_str_digits()`, as it is by default. -/
def maxStrDigits : Nat := 4300

/-- `int(text)` of a numeral without a sign. -/
def unsigned? (text : List Char) : Option Nat :=
  (digits? false text).bind fun ds =>
    if ds.length ≤ maxStrDigits then some (ofDigits ds) else none

/-- `int(text)`. It raises `ValueError` where this is `none`. -/
def int? (text : List Char) : Option Int :=
  match strip text with
  | '+' :: text => (unsigned? text).map Int.ofNat
  | '-' :: text => (unsigned? text).map fun n => -(n : Int)
  | text => (unsigned? text).map Int.ofNat

/-! ## Floats -/

/-- What a float is. A finite one is `mantissa * 10 ^ exponent`, rounded to 53 bits. -/
inductive FloatValue
  | nan
  | infinite
  | finite (negative : Bool) (mantissa : Nat) (exponent : Int)

/-- The digits of a decimal fraction, before and after the point. -/
def fraction? (text : List Char) : Option (Nat × Int) :=
  let whole := text.takeWhile (· ≠ '.')
  let part := (text.dropWhile (· ≠ '.')).drop 1
  if part = [] then (unsigned? whole).map fun n => (n, 0)
  else (unsigned? (whole ++ part)).map fun n => (n, -part.length)

/-- The value of what `repr` prints for a float. -/
def floatValue (text : String) : FloatValue :=
  let negative := text.toList.head? = some '-'
  let body := if negative then text.toList.drop 1 else text.toList
  let mantissa := body.takeWhile (· ≠ 'e')
  let exponent := (body.dropWhile (· ≠ 'e')).drop 1
  if body = "inf".toList then .infinite
  else
    match fraction? mantissa, if exponent = [] then some 0 else int? exponent with
    | some (n, scale), some e => .finite negative n (scale + e)
    | _, _ => .nan

/-- The float that is printed as `n`. From `2 ^ 53` on the floats are integers, and `repr` pads
their digits with zeros. -/
def nearestFloat (n : Nat) : Nat :=
  if n < 2 ^ 53 then n
  else
    let unit := 2 ^ (n.log2 - 52)
    let below := n / unit
    if unit < 2 * (n % unit) ∨ unit = 2 * (n % unit) ∧ below % 2 = 1 then (below + 1) * unit
    else below * unit

/-- The integer part of a finite float. -/
def truncate (negative : Bool) (mantissa : Nat) (exponent : Int) : Int :=
  let n := nearestFloat (mantissa * 10 ^ exponent.toNat / 10 ^ (-exponent).toNat)
  if negative then -n else n

/-- A finite float that is an integer. -/
def IsIntegral (mantissa : Nat) (exponent : Int) : Prop :=
  mantissa % 10 ^ (-exponent).toNat = 0

instance (mantissa : Nat) (exponent : Int) : Decidable (IsIntegral mantissa exponent) :=
  inferInstanceAs (Decidable (_ = _))

/-! ## What `isdigit` says of `int` -/

section
variable {text : List Char} {c : Char}

theorem decimal?_isSome :
    (decimal? c).isSome ↔ ∃ n ∈ decimalZeros, n ≤ c.toNat ∧ c.toNat ≤ n + 9 := by
  simp only [decimal?, Option.isSome_map, List.find?_isSome, decide_eq_true_eq]

theorem IsDigit.not_blank (h : IsDigit c) : ¬ InRanges blanks c := by
  have hapart : blanks.all (fun b =>
      decimalZeros.all (fun n => b.2 < n || n + 9 < b.1) &&
        otherDigits.all fun r => b.2 < r.1 || r.2 < b.1) = true := by decide
  simp only [List.all_eq_true, Bool.and_eq_true, Bool.or_eq_true, decide_eq_true_eq] at hapart
  rintro ⟨b, hb, hlo, hhi⟩
  obtain ⟨hzeros, hothers⟩ := hapart b hb
  rcases h with h | ⟨r, hr, hrlo, hrhi⟩
  · obtain ⟨n, hn, hnlo, hnhi⟩ := decimal?_isSome.mp h
    have := hzeros n hn
    omega
  · have := hothers r hr
    omega

theorem AllDigits.strip (h : AllDigits text) : strip text = text := by
  have hnot (c : Char) (hc : c ∈ text) : decide (InRanges blanks c) = false :=
    decide_eq_false (h.2 c hc).not_blank
  have hkeep (text : List Char) (hall : ∀ c ∈ text, decide (InRanges blanks c) = false) :
      text.dropWhile (InRanges blanks ·) = text := by
    cases text with
    | nil => rfl
    | cons c text => rw [List.dropWhile_cons, hall c List.mem_cons_self]; rfl
  unfold Numeral.strip
  rw [hkeep text hnot, hkeep text.reverse fun c hc => hnot c (List.mem_reverse.mp hc),
    List.reverse_reverse]

/-- Without underscores a numeral is a row of decimal digits. -/
theorem digits?_length {after : Bool} (hsep : '_' ∉ text) (hne : after ∨ text ≠ []) :
    (digits? after text).map List.length =
      if text.all fun c => (decimal? c).isSome then some text.length else none := by
  induction text generalizing after with
  | nil => simp_all [digits?]
  | cons c text ih =>
    obtain ⟨hc, hsep⟩ := List.ne_and_not_mem_of_not_mem_cons hsep
    unfold digits?
    rw [if_neg (Ne.symm hc)]
    cases hd : decimal? c with
    | none => simp [hd]
    | some d =>
      have hstep : ((digits? true text).map (d :: ·)).map List.length =
          ((digits? true text).map List.length).map (· + 1) := by
        cases digits? true text <;> rfl
      rw [Option.bind_some, hstep, ih hsep (.inl rfl)]
      simp only [List.all_cons, hd, Option.isSome_some, Bool.true_and, List.length_cons]
      split_ifs <;> rfl

theorem AllDigits.int?_eq (h : AllDigits text) : int? text = (unsigned? text).map Int.ofNat := by
  obtain ⟨c, rest, rfl⟩ := List.exists_cons_of_ne_nil h.1
  have hc := h.2 c List.mem_cons_self
  have hplus : c ≠ '+' := by rintro rfl; revert hc; decide
  have hminus : c ≠ '-' := by rintro rfl; revert hc; decide
  unfold int?
  rw [h.strip]
  split <;> simp_all

/-- `int` takes a text of digits when all of them are decimal, and there are not too many. -/
theorem AllDigits.int?_isSome (h : AllDigits text) :
    (int? text).isSome ↔ (∀ c ∈ text, (decimal? c).isSome) ∧ text.length ≤ maxStrDigits := by
  have hsep : '_' ∉ text := by
    intro hmem
    have := h.2 _ hmem
    revert this
    decide
  have hlen := @digits?_length _ false hsep (.inr h.1)
  rw [h.int?_eq, Option.isSome_map, ← List.all_eq_true]
  unfold unsigned?
  cases hds : digits? false text with
  | none =>
    rw [hds] at hlen
    split_ifs at hlen with hall
    · simp at hlen
    · simp [hall]
  | some ds =>
    rw [hds] at hlen
    split_ifs at hlen with hall
    · obtain hlen : ds.length = text.length := by simpa using hlen
      rw [Option.bind_some, hlen]
      split_ifs with hmax
      · exact iff_of_true rfl ⟨hall, hmax⟩
      · exact iff_of_false (by simp) fun h => hmax h.2
    · simp at hlen

end

/-! ## The text of a number -/

section
variable {text : List Char} {c : Char} {n : Nat}

theorem decimal?_of_isDigit (h : c.isDigit) : decimal? c = some (c.toNat - '0'.toNat) := by
  obtain ⟨hlo, hhi⟩ : 0x30 ≤ c.toNat ∧ c.toNat ≤ 0x30 + 9 := Char.isDigit_iff_toNat.mp h
  have hfirst : decide (0x30 ≤ c.toNat ∧ c.toNat ≤ 0x30 + 9) = true := decide_eq_true ⟨hlo, hhi⟩
  have hzeros : decimalZeros = 0x30 :: decimalZeros.tail := rfl
  unfold decimal?
  rw [hzeros, List.find?_cons_of_pos (p := fun n => n ≤ c.toNat ∧ c.toNat ≤ n + 9) hfirst]
  rfl

theorem digits?_of_isDigit {after : Bool} (h : ∀ c ∈ text, c.isDigit) (hne : after ∨ text ≠ []) :
    digits? after text = some (text.map fun c => c.toNat - '0'.toNat) := by
  induction text generalizing after with
  | nil =>
    obtain rfl : after = true := by simpa using hne
    rfl
  | cons c text ih =>
    have hc := h c List.mem_cons_self
    have hsep : c ≠ '_' := by rintro rfl; revert hc; decide
    unfold digits?
    rw [if_neg hsep, decimal?_of_isDigit hc, Option.bind_some,
      ih (fun c' hc' => h c' (List.mem_cons_of_mem c hc')) (.inl rfl)]
    rfl

theorem ofDigits_toDigits (n : Nat) :
    ofDigits ((Nat.toDigits 10 n).map fun c => c.toNat - '0'.toNat) = n := by
  unfold ofDigits
  rw [List.foldl_map]
  exact Nat.ofDigitChars_eq_foldl.symm.trans Nat.ofDigitChars_ten_toDigits

theorem allDigits_toDigits (n : Nat) : AllDigits (Nat.toDigits 10 n) := by
  refine ⟨Nat.toDigits_ne_nil, fun c hc => .inl ?_⟩
  rw [decimal?_of_isDigit (Nat.isDigit_of_mem_toDigits (by decide) (by decide) hc)]
  rfl

/-- What `int` reads is what `str` wrote. -/
theorem int?_toDigits (h : n < 10 ^ maxStrDigits) : int? (Nat.toDigits 10 n) = some (n : Int) := by
  have hdigits : digits? false (Nat.toDigits 10 n) =
      some ((Nat.toDigits 10 n).map fun c => c.toNat - '0'.toNat) :=
    digits?_of_isDigit (fun _ => Nat.isDigit_of_mem_toDigits (by decide) (by decide))
      (.inr Nat.toDigits_ne_nil)
  have hlen : (Nat.toDigits 10 n).length ≤ maxStrDigits :=
    (Nat.length_toDigits_le_iff (by decide) (by decide)).mpr h
  rw [(allDigits_toDigits n).int?_eq]
  unfold unsigned?
  rw [hdigits, Option.bind_some, List.length_map, if_pos hlen, ofDigits_toDigits]
  rfl

/-! ## How large a number can be -/

theorem decimal?_le {d : Nat} (h : decimal? c = some d) : d ≤ 9 := by
  obtain ⟨z, hz, rfl⟩ := Option.map_eq_some_iff.mp h
  have hle := List.find?_some hz
  simp only [decide_eq_true_eq] at hle
  omega

theorem digits?_le {after : Bool} {ds : List Nat} (h : digits? after text = some ds) :
    ∀ d ∈ ds, d ≤ 9 := by
  induction text generalizing after ds with
  | nil =>
    unfold digits? at h
    split_ifs at h
    obtain rfl := Option.some.inj h
    exact List.forall_mem_nil _
  | cons c text ih =>
    unfold digits? at h
    split_ifs at h
    · exact ih h
    · obtain ⟨d, hd, h⟩ := Option.bind_eq_some_iff.mp h
      obtain ⟨rest, hrest, rfl⟩ := Option.map_eq_some_iff.mp h
      exact List.forall_mem_cons.mpr ⟨decimal?_le hd, ih hrest⟩

theorem ofDigits_lt {ds : List Nat} (h : ∀ d ∈ ds, d ≤ 9) : ofDigits ds < 10 ^ ds.length := by
  induction ds using List.reverseRecOn with
  | nil => exact Nat.one_pos
  | append_singleton ds d ih =>
    have hd : d ≤ 9 := h d (List.mem_append_right _ (List.mem_singleton_self d))
    have hds := ih fun d' hd' => h d' (List.mem_append_left _ hd')
    have hsnoc : ofDigits (ds ++ [d]) = 10 * ofDigits ds + d := by
      unfold ofDigits
      rw [List.foldl_append]
      rfl
    rw [hsnoc, List.length_append, List.length_singleton, Nat.pow_succ]
    omega

theorem unsigned?_lt (h : unsigned? text = some n) : n < 10 ^ maxStrDigits := by
  obtain ⟨ds, hds, h⟩ := Option.bind_eq_some_iff.mp h
  split_ifs at h with hlen
  obtain rfl := Option.some.inj h
  exact Nat.lt_of_lt_of_le (ofDigits_lt (digits?_le hds)) (Nat.pow_le_pow_right (by decide) hlen)

theorem int?_lt {i : Int} (h : int? text = some i) : i.natAbs < 10 ^ maxStrDigits := by
  unfold int? at h
  split at h
  · obtain ⟨m, hm, rfl⟩ := Option.map_eq_some_iff.mp h
    exact unsigned?_lt hm
  · obtain ⟨m, hcoe, rfl⟩ := Option.map_eq_some_iff.mp h
    obtain ⟨n, hn, hm⟩ := Option.bind_eq_some_iff.mp hcoe
    obtain rfl := Option.some.inj hm
    rw [Int.natAbs_neg]
    exact unsigned?_lt hn
  · obtain ⟨m, hm, rfl⟩ := Option.map_eq_some_iff.mp h
    exact unsigned?_lt hm

end

end Numeral
