import ReservationSystem.Client.Dialogues
import ReservationSystem.Site.Http

/-!
# From the client's path to the gateway's message

`makeReservation` puts the user's answers into a path. `do_GET` takes it apart again.
-/

namespace ReservationSystem

open Numeral Url

section
variable {a : Ask} {odd : List Char → Option String}

/-- The fields of the query. -/
def Ask.queryFields (a : Ask) : List (List Char × List Char) := [
  ("date".toList, a.date.toList),
  ("timeslot".toList, a.timeslot.toList),
  ("party_size".toList, (toString a.partySize).toList)]

def Ask.pathPart (a : Ask) : List Char :=
  "/restaurants/".toList ++ a.restaurantId.toList ++ "/availability".toList

theorem Ask.path_toList (a : Ask) : a.path.toList = a.pathPart ++ '?' :: queryOf a.queryFields := by
  have hdate : "/availability?date=".toList =
      "/availability".toList ++ '?' :: ("date".toList ++ ['=']) := rfl
  have htimeslot : "&timeslot=".toList = '&' :: ("timeslot".toList ++ ['=']) := rfl
  have hsize : "&party_size=".toList = '&' :: ("party_size".toList ++ ['=']) := rfl
  unfold path pathPart queryFields queryOf List.intercalate
  simp only [String.toList_append, hdate, htimeslot, hsize, List.map_cons, List.map_nil,
    List.intersperse_cons_cons, List.intersperse_singleton, List.flatten_cons, List.flatten_nil,
    List.append_assoc, List.cons_append, List.nil_append, List.append_nil]

/-- The text of a number has a minus sign or consists of digits. -/
theorem toList_toString (n : Int) : (toString n).toList =
    if 0 ≤ n then Nat.toDigits 10 n.toNat else '-' :: Nat.toDigits 10 n.natAbs := by
  cases n with
  | ofNat m =>
    have hnat : 0 ≤ Int.ofNat m := Int.natCast_nonneg m
    rw [if_pos hnat]
    exact Nat.toList_repr
  | negSucc m =>
    rw [if_neg (Int.not_le.mpr (Int.negSucc_lt_zero m))]
    have htext : toString (Int.negSucc m) = "-" ++ Nat.repr (m + 1) := rfl
    rw [htext, String.toList_append, Nat.toList_repr]
    rfl

theorem partySize_toString {query : List Char} {n : Int}
    (hfirst : firstOf query "party_size".toList = some (toString n).toList)
    (hlt : n.natAbs < 10 ^ maxStrDigits) :
    Server.partySize query = .ok (if 0 ≤ n then n else 1) := by
  unfold Server.partySize
  rw [hfirst, toList_toString]
  by_cases hn : 0 ≤ n
  · have hnat : n.toNat = n.natAbs := by omega
    have hint : int? (Nat.toDigits 10 n.toNat) = some n := by
      rw [int?_toDigits (hnat ▸ hlt), Int.toNat_of_nonneg hn]
    simp only [if_pos hn, if_pos (allDigits_toDigits n.toNat), hint]
  · have hminus : ¬ AllDigits ('-' :: Nat.toDigits 10 n.natAbs) := by
      intro h
      have := h.2 '-' List.mem_cons_self
      revert this
      decide
    simp only [if_neg hn, if_neg hminus]

/-- The texts of a path that the gateway reads back as they are. -/
structure Ask.Readable (a : Ask) : Prop where
  sendable : sendable a.path = true
  restaurantId : ∀ c ∈ a.restaurantId.toList, c ∉ ['/', ':', '#', '?', ';']
  date : a.date ≠ "" ∧ ∀ c ∈ a.date.toList, c ∉ ['#', '&', '%', '+']
  timeslot : a.timeslot ≠ "" ∧ ∀ c ∈ a.timeslot.toList, c ∉ ['#', '&', '%', '+']
  partySize : a.partySize.natAbs < 10 ^ maxStrDigits

theorem toString_chars {n : Int} {c : Char} (hc : c ∈ (toString n).toList) :
    c.isDigit = true ∨ c = '-' := by
  rw [toList_toString] at hc
  split_ifs at hc
  · exact .inl (Nat.isDigit_of_mem_toDigits (by decide) (by decide) hc)
  · rcases List.mem_cons.mp hc with rfl | hc
    · exact .inr rfl
    · exact .inl (Nat.isDigit_of_mem_toDigits (by decide) (by decide) hc)

theorem digit_or_minus {c : Char} (h : c.isDigit = true ∨ c = '-') :
    isSpace c = false ∧ PlainValue c := by
  rcases h with h | rfl
  · obtain ⟨hlo, hhi⟩ : 48 ≤ c.toNat ∧ c.toNat ≤ 57 := Char.isDigit_iff_toNat.mp h
    refine ⟨?_, ?_, ?_⟩
    · unfold isSpace
      simp only [Bool.or_eq_false_iff, Bool.and_eq_false_iff, decide_eq_false_iff_not]
      omega
    · rw [Char.lt_def, UInt32.lt_iff_toNat_lt]
      exact Nat.lt_of_lt_of_le (by decide) hlo
    · intro hmem
      simp only [List.mem_cons, List.not_mem_nil, or_false] at hmem
      rcases hmem with rfl | rfl | rfl | rfl <;> exact absurd h (by decide)
  · exact ⟨by decide, by decide⟩

theorem toString_ne_nil (n : Int) : (toString n).toList ≠ [] := by
  rw [toList_toString]
  split_ifs
  · exact Nat.toDigits_ne_nil
  · exact List.cons_ne_nil _ _

theorem selector_eq {first last : List Char} (hlast : ∀ c ∈ last, isSpace c = false)
    (hne : last ≠ []) (hhash : '#' ∉ first ++ last) : selector (first ++ last) = first ++ last := by
  have hend : ((first ++ last).reverse.dropWhile isSpace).reverse = first ++ last := by
    obtain ⟨c, rest, hrest⟩ := List.exists_cons_of_ne_nil (List.reverse_ne_nil_iff.mpr hne)
    have hc : isSpace c = false := hlast c (List.mem_reverse.mp (hrest ▸ List.mem_cons_self))
    rw [List.reverse_append, hrest, List.cons_append, List.dropWhile_cons_of_neg (by simp [hc]),
      ← List.cons_append, ← hrest, ← List.reverse_append, List.reverse_reverse]
  unfold selector
  simp only [hend, if_neg hhash]

namespace Ask.Readable

theorem no_hash (h : a.Readable) : '#' ∉ a.path.toList := by
  have hnames : '#' ∉ "/restaurants/".toList ∧ '#' ∉ "/availability?date=".toList ∧
      '#' ∉ "&timeslot=".toList ∧ '#' ∉ "&party_size=".toList := by decide
  have hsize : '#' ∉ (toString a.partySize).toList := fun hc =>
    (digit_or_minus (toString_chars hc)).2.2 (by decide)
  unfold Ask.path
  simp only [String.toList_append, List.mem_append, not_or]
  exact ⟨⟨⟨⟨⟨⟨⟨hnames.1, fun hc => h.restaurantId _ hc (by decide)⟩, hnames.2.1⟩,
    fun hc => h.date.2 _ hc (by decide)⟩, hnames.2.2.1⟩,
    fun hc => h.timeslot.2 _ hc (by decide)⟩, hnames.2.2.2⟩, hsize⟩

/-- The path is sent as it is. -/
theorem selector (h : a.Readable) : selector a.path.toList = a.path.toList := by
  have hhash := h.no_hash
  unfold Ask.path at hhash ⊢
  rw [String.toList_append] at hhash ⊢
  exact selector_eq (fun c hc => (digit_or_minus (toString_chars hc)).1) (toString_ne_nil _) hhash

theorem above_blank (h : a.Readable) {c : Char} (hc : c ∈ a.path.toList) : ' ' < c := by
  have hall := List.all_eq_true.mp h.sendable
  rw [h.selector] at hall
  have hlo : 33 ≤ c.toNat := by
    have := hall c hc
    simp only [Bool.and_eq_true, decide_eq_true_eq] at this
    exact this.1
  rw [Char.lt_def, UInt32.lt_iff_toNat_lt]
  exact hlo

/-- The gateway's parser takes the path apart as the client has put it together. -/
theorem urlparse (h : a.Readable) (hodd : odd [] = none) :
    urlparse odd a.path.toList = .ok ⟨a.pathPart, queryOf a.queryFields⟩ := by
  have habove {c : Char} (hc : c ∈ a.pathPart ∨ c ∈ queryOf a.queryFields) : c ∈ a.path.toList := by
    rw [a.path_toList, List.mem_append, List.mem_cons]
    exact hc.imp_right .inr
  have hliterals : ("restaurants/".toList ++ "/availability".toList).all
      (fun c => decide (Plain c)) = true := by decide
  have hplain : ∀ c ∈ "restaurants/".toList ++ a.restaurantId.toList ++ "/availability".toList,
      Plain c := by
    intro c hc
    rcases List.mem_append.mp hc with hc | hc
    · rcases List.mem_append.mp hc with hc | hc
      · exact of_decide_eq_true (List.all_eq_true.mp hliterals c (List.mem_append_left _ hc))
      · have hpart : c ∈ a.pathPart :=
          List.mem_append_left _ (List.mem_append_right _ hc)
        refine ⟨h.above_blank (habove (.inl hpart)), fun hmem => h.restaurantId c hc ?_⟩
        exact List.mem_cons_of_mem '/' hmem
    · exact of_decide_eq_true (List.all_eq_true.mp hliterals c (List.mem_append_right _ hc))
  have hquery : ∀ c ∈ queryOf a.queryFields, ' ' < c ∧ c ≠ '#' := fun c hc =>
    ⟨h.above_blank (habove (.inr hc)), fun heq => h.no_hash (habove (.inr (heq ▸ hc)))⟩
  have hpart : a.pathPart = '/' :: ("restaurants/".toList ++ a.restaurantId.toList ++
      "/availability".toList) := rfl
  have hslash : ("restaurants/".toList ++ a.restaurantId.toList ++ "/availability".toList).head? ≠
      some '/' := by
    rw [List.append_assoc, List.head?_append, show "restaurants/".toList.head? = some 'r' from rfl]
    exact fun heq => absurd (Option.some.inj heq) (by decide)
  have hne : "restaurants/".toList ++ a.restaurantId.toList ++ "/availability".toList ≠ [] :=
    fun heq => absurd (List.append_eq_nil_iff.mp heq).2 (by decide)
  rw [a.path_toList, hpart]
  exact urlparse_query hodd hslash hne hplain hquery

theorem parseQsl (h : a.Readable) : parseQsl (queryOf a.queryFields) = a.queryFields := by
  have hvalue {text : String} (htext : ∀ c ∈ text.toList, c ∉ ['#', '&', '%', '+'])
      (hpath : ∀ c ∈ text.toList, c ∈ a.path.toList) : ∀ c ∈ text.toList, PlainValue c :=
    fun c hc => ⟨h.above_blank (hpath c hc), htext c hc⟩
  have hfilled {text : String} (hne : text ≠ "") : text.toList ≠ [] := fun heq =>
    hne (String.toList_inj.mp heq)
  have hnames : ["date".toList, "timeslot".toList, "party_size".toList].all (fun name =>
      '=' ∉ name && name.all fun c => decide (PlainValue c)) = true := by decide
  have hpath : ∀ c, c ∈ a.date.toList ∨ c ∈ a.timeslot.toList → c ∈ a.path.toList := by
    intro c hc
    unfold Ask.path
    simp only [String.toList_append, List.mem_append]
    tauto
  refine parseQsl_queryOf (List.cons_ne_nil _ _) (fun f hf => ?_) fun f hf => ?_
  · have hname := List.all_eq_true.mp hnames f.1 (by
      rcases List.mem_cons.mp hf with rfl | hf
      · exact List.mem_cons_self
      · rcases List.mem_cons.mp hf with rfl | hf
        · exact List.mem_cons_of_mem _ List.mem_cons_self
        · obtain rfl := List.mem_singleton.mp hf
          exact List.mem_cons_of_mem _ (List.mem_cons_of_mem _ List.mem_cons_self))
    simp only [Bool.and_eq_true, decide_eq_true_eq, List.all_eq_true] at hname
    exact hname
  · rcases List.mem_cons.mp hf with rfl | hf
    · exact ⟨hfilled h.date.1, hvalue h.date.2 fun c hc => hpath c (.inl hc)⟩
    · rcases List.mem_cons.mp hf with rfl | hf
      · exact ⟨hfilled h.timeslot.1, hvalue h.timeslot.2 fun c hc => hpath c (.inr hc)⟩
      · obtain rfl := List.mem_singleton.mp hf
        exact ⟨toString_ne_nil _, fun c hc => (digit_or_minus (toString_chars hc)).2⟩

theorem checkAvailabilityMessage (h : a.Readable) :
    Server.checkAvailabilityMessage (queryOf a.queryFields) = .ok a.message := by
  have hread (name : List Char) : firstOf (queryOf a.queryFields) name =
      a.queryFields.lookup name := congrArg (List.lookup name) h.parseQsl
  have hsize := partySize_toString (hread "party_size".toList) h.partySize
  unfold Server.checkAvailabilityMessage
  have hdate : a.queryFields.lookup "date".toList = some a.date.toList := rfl
  have htimeslot : a.queryFields.lookup "timeslot".toList = some a.timeslot.toList := rfl
  rw [hsize, hread, hread, hdate, htimeslot, Option.getD_some, Option.getD_some,
    String.ofList_toList, String.ofList_toList]
  rfl

end Ask.Readable

/-- The request for the tables reaches the restaurant with the user's date, timeslot and party
size. A negative size arrives as 1. -/
theorem Ask.passes {g : Server} (h : a.Readable) (hodd : g.odd [] = none) :
    g.Passes (.get (selector a.path.toList)) a.restaurantId a.message fun _ => 200 := by
  have hslash : '/' ∉ a.restaurantId.toList := fun hc => h.restaurantId _ hc (by decide)
  have hroute := @Server.Routes.availability a.pathPart (queryOf a.queryFields) a.restaurantId
    (Server.restaurantOf_names ⟨hslash, .inr (.inl rfl)⟩) (List.suffix_append _ _).isInfix
  rw [h.checkAvailabilityMessage] at hroute
  rw [h.selector]
  exact .get _ _ _ _ _ (h.urlparse hodd) hroute

/-- So does every request that the dialogue comes to, unless some text has a meaning of its own in
a URL. -/
theorem dialogue_passes {g : Server} {lines : BookingLines} {restaurants : List Restaurant}
    {dates : List String} (hodd : g.odd [] = none)
    (hask : lines.ask restaurants dates = some a) (hsend : sendable a.path = true)
    (hrid : ∀ c ∈ a.restaurantId.toList, c ∉ ['/', ':', '#', '?', ';'])
    (hdates : ∀ date ∈ dates, ∀ c ∈ date.toList, c ∉ ['#', '&', '%', '+'])
    (hslot : ∀ c ∈ a.timeslot.toList, c ∉ ['#', '&', '%', '+']) :
    g.Passes (.get (selector a.path.toList)) a.restaurantId a.message (fun _ => 200) ∧
      a.message.demand? = some (.read (.checkAvailability a.message)) := by
  obtain ⟨-, hdate, -, hdne, hsne, hsize⟩ := BookingLines.ask_spec hask
  exact ⟨Ask.passes ⟨hsend, hrid, ⟨hdne, hdates _ hdate⟩, ⟨hsne, hslot⟩, hsize⟩ hodd, rfl⟩

end

def aliceLines : BookingLines where
  restaurant := "1"
  date := "2"
  timeslot := " 1 "
  partySize := "2"
  preference := "window"
  accept := ""
  other := ""
  customer := "Alice"
  contact := ""

def oneEvening : List Restaurant := [⟨"restaurant_1", ["18:00", "20:00"]⟩]

def aliceAsk : Ask := ⟨"restaurant_1", "2026-05-01", "18:00", 2⟩

theorem alice_asks : aliceLines.ask oneEvening ["2026-04-30", "2026-05-01"] = some aliceAsk := rfl

theorem dialogue_passes_alice :
    (Site.gateway Site.twoWebs Site.fewLibraries (.start Site.twoWebs) fun _ _ => []).Passes
      (.get (selector aliceAsk.path.toList)) "restaurant_1" aliceAsk.message fun _ => 200 := by
  have hfree {text bad : List Char} (h : (text.all fun c => decide (c ∉ bad)) = true) :
      ∀ c ∈ text, c ∉ bad := fun c hc => of_decide_eq_true (List.all_eq_true.mp h c hc)
  refine (dialogue_passes rfl alice_asks (by decide) (hfree (by decide)) ?_ (hfree (by decide))).1
  intro date hdate
  rcases List.mem_pair.mp hdate with rfl | rfl
  · exact hfree (by decide)
  · exact hfree (by decide)

end ReservationSystem
