import Mathlib.Data.List.Basic
import Mathlib.Data.List.TakeWhile

/-!
# Request targets as Python reads them

`urlparse` and `parse_qs` of `urllib.parse`, as far as the path and the query go.
-/

namespace Url

/-! ## The parts of a URL -/

/-- The text before the first `sep`, and what comes after it. -/
def cut (sep : Char) (text : List Char) : List Char × List Char :=
  (text.takeWhile (· ≠ sep), (text.dropWhile (· ≠ sep)).drop 1)

/-- The scheme, in lower case and empty if there is none, and the text after its colon. -/
def splitScheme (url : List Char) : List Char × List Char :=
  let (scheme, rest) := cut ':' url
  if ':' ∈ url ∧ (scheme.head?.map Char.isAlpha) = some true ∧
      scheme.all fun c => c.isAlphanum || c ∈ ['+', '-', '.'] then
    (scheme.map Char.toLower, rest)
  else ([], url)

/-- `_splitnetloc`, if the text starts with two slashes. -/
def splitNetloc : List Char → List Char × List Char
  | '/' :: '/' :: rest => rest.span (· ∉ ['/', '?', '#'])
  | url => ([], url)

/-- The schemes in `uses_params`. -/
def usesParams : List String :=
  ["", "ftp", "hdl", "prospero", "http", "imap", "https", "shttp", "rtsp", "rtsps", "rtspu", "sip",
    "sips", "mms", "sftp", "tel"]

/-- `_splitparams`: the text up to the first semicolon after the last slash. -/
def splitParams : List Char → List Char
  | [] => []
  | c :: rest => if c = ';' ∧ '/' ∉ rest then [] else c :: splitParams rest

structure Parsed where
  path : List Char
  query : List Char

/-- `urlparse`, or the text of its `ValueError`. `odd` has that text for a network location that
is refused although its brackets match. -/
def urlparse (odd : List Char → Option String) (url : List Char) : Except String Parsed :=
  let url := (url.dropWhile (· ≤ ' ')).filter (· ∉ ['\t', '\r', '\n'])
  let (scheme, url) := splitScheme url
  let (netloc, url) := splitNetloc url
  if ¬ ('[' ∈ netloc ↔ ']' ∈ netloc) then .error "Invalid IPv6 URL"
  else
    match odd netloc with
    | some text => .error text
    | none =>
      let (path, query) := cut '?' (cut '#' url).1
      .ok ⟨if String.ofList scheme ∈ usesParams then splitParams path else path, query⟩

/-- A character of a path that has no meaning of its own in a URL. -/
def Plain (c : Char) : Prop := ' ' < c ∧ c ∉ [':', '#', '?', ';']

instance : DecidablePred Plain := fun c =>
  inferInstanceAs (Decidable (' ' < c ∧ c ∉ [':', '#', '?', ';']))

theorem cut_of_not_mem {sep : Char} {text : List Char} (h : sep ∉ text) :
    cut sep text = (text, []) := by
  have hne : ∀ c ∈ text, decide (c ≠ sep) = true := by
    intro c hc
    simpa using fun heq : c = sep => h (heq ▸ hc)
  unfold cut
  rw [List.takeWhile_eq_self_iff.mpr hne, List.dropWhile_eq_nil_iff.mpr hne, List.drop_nil]

theorem splitParams_of_not_mem {text : List Char} (h : ';' ∉ text) : splitParams text = text := by
  induction text with
  | nil => rfl
  | cons c rest ih =>
    obtain ⟨hc, hrest⟩ := List.ne_and_not_mem_of_not_mem_cons h
    unfold splitParams
    rw [if_neg fun hcut => hc hcut.1.symm, ih hrest]

/-- A plain path is its own path. -/
theorem urlparse_plain {odd : List Char → Option String} {rest : List Char} (hodd : odd [] = none)
    (hslash : rest.head? ≠ some '/') (hplain : ∀ c ∈ rest, Plain c) :
    urlparse odd ('/' :: rest) = .ok ⟨'/' :: rest, []⟩ := by
  have hall : ∀ c ∈ '/' :: rest, Plain c := by
    intro c hc
    rcases List.mem_cons.mp hc with rfl | hc
    · exact ⟨by decide, by decide⟩
    · exact hplain c hc
  have hno (c : Char) (hc : c ∈ [':', '#', '?', ';']) : c ∉ '/' :: rest := fun hmem =>
    (hall c hmem).2 hc
  have hkept : (('/' :: rest).dropWhile (· ≤ ' ')).filter (· ∉ ['\t', '\r', '\n']) =
      '/' :: rest := by
    rw [List.dropWhile_cons_of_neg (by decide), List.filter_eq_self]
    intro c hc
    have hlt := (hall c hc).1
    simp only [List.mem_cons, List.not_mem_nil, or_false, decide_not, Bool.not_eq_true',
      decide_eq_false_iff_not]
    rintro (rfl | rfl | rfl) <;> exact absurd hlt (by decide)
  have hscheme : splitScheme ('/' :: rest) = ([], '/' :: rest) := by
    unfold splitScheme
    exact if_neg fun h => hno ':' (by decide) h.1
  have hnetloc : splitNetloc ('/' :: rest) = ([], '/' :: rest) := by
    unfold splitNetloc
    split
    · next heq =>
      obtain rfl := (List.cons.inj heq).2
      exact absurd rfl hslash
    · rfl
  unfold urlparse
  simp only [hkept, hscheme, hnetloc, hodd, cut_of_not_mem (hno '#' (by decide)),
    cut_of_not_mem (hno '?' (by decide)), splitParams_of_not_mem (hno ';' (by decide))]
  rfl

/-! ## Escapes -/

/-- Bytes that have yet to come: their number, the bounds for the next one, and the bits of the
character so far. -/
structure Pending where
  need : Nat
  lower : Nat
  upper : Nat
  bits : Nat

/-- The first byte of a longer character. -/
def lead (b : Nat) : Option Pending :=
  if 0xC2 ≤ b ∧ b ≤ 0xDF then some ⟨1, 0x80, 0xBF, b - 0xC0⟩
  else if b = 0xE0 then some ⟨2, 0xA0, 0xBF, 0⟩
  else if b = 0xED then some ⟨2, 0x80, 0x9F, 0xD⟩
  else if 0xE1 ≤ b ∧ b ≤ 0xEF then some ⟨2, 0x80, 0xBF, b - 0xE0⟩
  else if b = 0xF0 then some ⟨3, 0x90, 0xBF, 0⟩
  else if 0xF1 ≤ b ∧ b ≤ 0xF3 then some ⟨3, 0x80, 0xBF, b - 0xF0⟩
  else if b = 0xF4 then some ⟨3, 0x80, 0x8F, 4⟩
  else none

def start (b : Nat) : List Char × Option Pending :=
  if b < 0x80 then ([Char.ofNat b], none)
  else
    match lead b with
    | some p => ([], some p)
    | none => (['\uFFFD'], none)

/-- What one more byte adds to the text, and what is then pending. -/
def feed (b : Nat) : Option Pending → List Char × Option Pending
  | none => start b
  | some p =>
    if p.lower ≤ b ∧ b ≤ p.upper then
      if p.need = 1 then ([Char.ofNat (p.bits * 64 + b % 64)], none)
      else ([], some ⟨p.need - 1, 0x80, 0xBF, p.bits * 64 + b % 64⟩)
    else ('\uFFFD' :: (start b).1, (start b).2)

/-- `bytes.decode("utf-8", "replace")`. -/
def decodeReplace (pending : Option Pending) : List Nat → List Char
  | [] => if pending.isSome then ['\uFFFD'] else []
  | b :: bytes => (feed b pending).1 ++ decodeReplace (feed b pending).2 bytes

def hexDigit? (c : Char) : Option Nat :=
  if '0' ≤ c ∧ c ≤ '9' then some (c.toNat - 48)
  else if 'A' ≤ c ∧ c ≤ 'F' then some (c.toNat - 55)
  else if 'a' ≤ c ∧ c ≤ 'f' then some (c.toNat - 87)
  else none

/-- `unquote`, after the bytes of `run`. Only ASCII text is decoded. -/
def unquoteFrom (run : List Nat) : List Char → List Char
  | [] => decodeReplace none run
  | '%' :: a :: b :: rest =>
    match hexDigit? a, hexDigit? b with
    | some x, some y => unquoteFrom (run ++ [16 * x + y]) rest
    | _, _ => unquoteFrom (run ++ ['%'.toNat]) (a :: b :: rest)
  | c :: rest =>
    if c.toNat < 0x80 then unquoteFrom (run ++ [c.toNat]) rest
    else decodeReplace none run ++ c :: unquoteFrom [] rest

/-- `unquote_plus`. -/
def unquotePlus (text : List Char) : List Char :=
  unquoteFrom [] (text.map fun c => if c = '+' then ' ' else c)

/-! ## Queries -/

/-- `parse_qsl`. Fields without a value are left out. -/
def parseQsl (query : List Char) : List (List Char × List Char) :=
  ((query.splitOn '&').map (cut '=')).filterMap fun (name, value) =>
    if value = [] then none else some (unquotePlus name, unquotePlus value)

/-- `parse_qs(query)[name][0]`, if there is one. -/
def firstOf (query name : List Char) : Option (List Char) := (parseQsl query).lookup name

/-! ## What is read of a plain query -/

/-- A character that stands for itself in a value of a query. -/
def PlainValue (c : Char) : Prop := ' ' < c ∧ c ∉ ['#', '&', '%', '+']

instance : DecidablePred PlainValue := fun c =>
  inferInstanceAs (Decidable (' ' < c ∧ c ∉ ['#', '&', '%', '+']))

/-- `name=value&name=value`. -/
def queryOf (fields : List (List Char × List Char)) : List Char :=
  ['&'].intercalate (fields.map fun f => f.1 ++ '=' :: f.2)

theorem cut_append_cons {sep : Char} {first rest : List Char} (h : sep ∉ first) :
    cut sep (first ++ sep :: rest) = (first, rest) := by
  have hne : ∀ c ∈ first, decide (c ≠ sep) = true := by
    intro c hc
    simpa using fun heq : c = sep => h (heq ▸ hc)
  unfold cut
  rw [List.takeWhile_append_of_pos hne, List.dropWhile_append_of_pos hne]
  simp

/-- The path and the query of a target that starts with one slash. -/
theorem urlparse_query {odd : List Char → Option String} {rest query : List Char}
    (hodd : odd [] = none) (hslash : rest.head? ≠ some '/') (hne : rest ≠ [])
    (hplain : ∀ c ∈ rest, Plain c) (hquery : ∀ c ∈ query, ' ' < c ∧ c ≠ '#') :
    urlparse odd ('/' :: rest ++ '?' :: query) = .ok ⟨'/' :: rest, query⟩ := by
  have hpath : ∀ c ∈ '/' :: rest, Plain c := by
    intro c hc
    rcases List.mem_cons.mp hc with rfl | hc
    · exact ⟨by decide, by decide⟩
    · exact hplain c hc
  have hall : ∀ c ∈ '/' :: rest ++ '?' :: query, ' ' < c ∧ c ≠ '#' := by
    intro c hc
    rcases List.mem_append.mp hc with hc | hc
    · refine ⟨(hpath c hc).1, fun heq => (hpath c hc).2 ?_⟩
      rw [heq]
      decide
    · rcases List.mem_cons.mp hc with rfl | hc
      · exact ⟨by decide, by decide⟩
      · exact hquery c hc
  have hkept : (('/' :: rest ++ '?' :: query).dropWhile (· ≤ ' ')).filter
      (· ∉ ['\t', '\r', '\n']) = '/' :: rest ++ '?' :: query := by
    rw [List.cons_append, List.dropWhile_cons_of_neg (by decide), ← List.cons_append,
      List.filter_eq_self]
    intro c hc
    have hlt := (hall c hc).1
    simp only [List.mem_cons, List.not_mem_nil, or_false, decide_not, Bool.not_eq_true',
      decide_eq_false_iff_not]
    rintro (rfl | rfl | rfl) <;> exact absurd hlt (by decide)
  have hscheme : splitScheme ('/' :: rest ++ '?' :: query) = ([], '/' :: rest ++ '?' :: query) := by
    unfold splitScheme cut
    rw [List.cons_append, List.takeWhile_cons_of_pos (by decide)]
    exact if_neg fun h => absurd (h.2.1 : some ('/'.isAlpha) = some true) (by decide)
  have hnetloc : splitNetloc ('/' :: rest ++ '?' :: query) = ([], '/' :: rest ++ '?' :: query) := by
    unfold splitNetloc
    split
    · next heq =>
      obtain ⟨c, rest, rfl⟩ := List.exists_cons_of_ne_nil hne
      obtain rfl := (List.cons.inj (List.cons.inj heq).2).1
      exact absurd rfl hslash
    · rfl
  have hhash : '#' ∉ '/' :: rest ++ '?' :: query := fun hmem => (hall '#' hmem).2 rfl
  have hmark : '?' ∉ '/' :: rest := fun hmem => (hpath '?' hmem).2 (by decide)
  have hsemicolon : ';' ∉ '/' :: rest := fun hmem => (hpath ';' hmem).2 (by decide)
  unfold urlparse
  simp only [hkept, hscheme, hnetloc, hodd, cut_of_not_mem hhash, cut_append_cons hmark,
    splitParams_of_not_mem hsemicolon]
  rfl

theorem decodeReplace_ascii {bytes : List Nat} (h : ∀ b ∈ bytes, b < 0x80) :
    decodeReplace none bytes = bytes.map Char.ofNat := by
  induction bytes with
  | nil => rfl
  | cons b bytes ih =>
    have hfeed : feed b none = ([Char.ofNat b], none) := by
      unfold feed start
      rw [if_pos (h b List.mem_cons_self)]
    unfold decodeReplace
    rw [hfeed, ih fun b' hb' => h b' (List.mem_cons_of_mem b hb')]
    rfl

theorem unquoteFrom_plain {run : List Nat} {text : List Char} (hrun : ∀ b ∈ run, b < 0x80)
    (h : '%' ∉ text) : unquoteFrom run text = run.map Char.ofNat ++ text := by
  induction text generalizing run with
  | nil =>
    unfold unquoteFrom
    rw [decodeReplace_ascii hrun, List.append_nil]
  | cons c text ih =>
    obtain ⟨hc, htext⟩ := List.ne_and_not_mem_of_not_mem_cons h
    have hother : ∀ a b rest, c = '%' → text = a :: b :: rest → False :=
      fun _ _ _ heq => absurd heq.symm hc
    rw [unquoteFrom.eq_3 run c text hother]
    split_ifs with hascii
    · rw [ih _ htext]
      · simp
      · intro b hb
        rcases List.mem_append.mp hb with hb | hb
        · exact hrun b hb
        · obtain rfl := List.mem_singleton.mp hb
          exact hascii
    · rw [decodeReplace_ascii hrun, ih (List.forall_mem_nil _) htext]
      rfl

theorem unquotePlus_plain {text : List Char} (h : ∀ c ∈ text, PlainValue c) :
    unquotePlus text = text := by
  have hspaces : (text.map fun c => if c = '+' then ' ' else c) = text := by
    refine (List.map_congr_left fun c hc => if_neg fun heq => (h c hc).2 ?_).trans
      (List.map_id text)
    rw [heq]
    decide
  have hpercent : '%' ∉ text := fun hmem => (h '%' hmem).2 (by decide)
  unfold unquotePlus
  rw [hspaces, unquoteFrom_plain (List.forall_mem_nil _) hpercent]
  rfl

/-- A plain query is read as it was written. -/
theorem parseQsl_queryOf {fields : List (List Char × List Char)} (hne : fields ≠ [])
    (hnames : ∀ f ∈ fields, '=' ∉ f.1 ∧ ∀ c ∈ f.1, PlainValue c)
    (hvalues : ∀ f ∈ fields, f.2 ≠ [] ∧ ∀ c ∈ f.2, PlainValue c) :
    parseQsl (queryOf fields) = fields := by
  have hamp : ∀ l ∈ fields.map (fun f => f.1 ++ '=' :: f.2), '&' ∉ l := by
    intro l hl hmem
    obtain ⟨f, hf, rfl⟩ := List.mem_map.mp hl
    rcases List.mem_append.mp hmem with hmem | hmem
    · exact ((hnames f hf).2 '&' hmem).2 (by decide)
    · rcases List.mem_cons.mp hmem with heq | hmem
      · exact absurd heq (by decide)
      · exact ((hvalues f hf).2 '&' hmem).2 (by decide)
  unfold parseQsl queryOf
  rw [List.splitOn_intercalate '&' hamp (by simpa using hne), List.map_map, List.filterMap_map]
  refine (List.filterMap_congr fun f hf => ?_).trans List.filterMap_some
  obtain ⟨hequals, hname⟩ := hnames f hf
  obtain ⟨hfilled, hvalue⟩ := hvalues f hf
  simp only [Function.comp_apply, cut_append_cons hequals, if_neg hfilled,
    unquotePlus_plain hname, unquotePlus_plain hvalue]

end Url
