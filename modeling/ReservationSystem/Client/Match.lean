import ReservationSystem.Client.Modify
import ReservationSystem.Lib.FirstLeast

/-!
# The table that is assigned

The node offers the free tables that fit. The client takes the smallest one where the guests
would like to sit, or else the smallest one.
-/

namespace ReservationSystem

open FirstLeast

/-- `t["location"].lower() == preference.lower()`, where `lower` is `str.lower`. -/
def TableOffer.isAt (lower : String → String) (preference : String) (offer : TableOffer) : Bool :=
  lower offer.location = lower preference

/-- `matchTable`. -/
def matchTableFor (lower : String → String) (preference : Option String)
    (tables : List TableOffer) : Option TableOffer :=
  let candidates := tables.insertionSort (·.capacity ≤ ·.capacity)
  let preferred :=
    match preference with
    | none | some "" => []
    | some place => candidates.filter (·.isAt lower place)
  match preferred with
  | best :: _ => some best
  | [] => candidates.head?

theorem matchTableFor_none (lower : String → String) (tables : List TableOffer) :
    matchTableFor lower none tables = matchTable tables := rfl

/-- A table that the query can be offered: it fits, and it is free. -/
def Suits (cfg : Service) (s : Node) (query : Msg) (e : TableId × TableInfo) :
    Prop :=
  fits (query.getD "party_size" (.int 1)) e.2.capacity = true ∧
    s.reservations.get? (cfg.slotKey query e.1) = none

/-- And it is where the guests would like to sit. -/
def Wanted (cfg : Service) (s : Node) (query : Msg) (lower : String → String)
    (preference : Option String) (e : TableId × TableInfo) : Prop :=
  Suits cfg s query e ∧ ∃ place ∈ preference, lower e.2.location = lower place

/-- The first table, in the order of the restaurant, of the least capacity among those that
satisfy `P`. -/
def BestOf (tables : List (TableId × TableInfo)) (P : TableId × TableInfo → Prop)
    (e : TableId × TableInfo) : Prop :=
  ∃ before after, tables = before ++ e :: after ∧ P e ∧
    (∀ e' ∈ before, P e' → e.2.capacity < e'.2.capacity) ∧
      ∀ e' ∈ after, P e' → e.2.capacity ≤ e'.2.capacity

theorem BestOf.mem {tables : List (TableId × TableInfo)} {P : TableId × TableInfo → Prop}
    {e : TableId × TableInfo} (h : BestOf tables P e) : e ∈ tables ∧ P e := by
  obtain ⟨before, after, rfl, hp, -⟩ := h
  exact ⟨by simp, hp⟩

section
variable {lower : String → String} {preference : Option String} {tables : List TableOffer}
  {place : String}

theorem matchTable_eq :
    matchTable tables = firstLeast TableOffer.capacity (fun _ => true) tables := by
  unfold matchTable
  rw [← find?_insertionSort, ← List.head?_filter, List.filter_true]

theorem matchTableFor_place (hne : place ≠ "") :
    matchTableFor lower (some place) tables =
      (firstLeast TableOffer.capacity (·.isAt lower place) tables).or (matchTable tables) := by
  rw [← find?_insertionSort, ← List.head?_filter]
  unfold matchTableFor matchTable
  simp only
  cases (tables.insertionSort (·.capacity ≤ ·.capacity)).filter (·.isAt lower place) <;> rfl

end

section
variable {lower : String → String} {preference : Option String} {cfg : Service} {cat : Catalogue}
  {s : Node} {query : Msg} {restaurantId place : String} {date timeslot : Json}
  {offers : List TableOffer} {p : TableOffer → Bool} {best : TableOffer}

theorem suits_int {n : Int} (hn : query.getD "party_size" (.int 1) = .int n)
    (e : TableId × TableInfo) : Suits cfg s query e ↔
      n ≤ e.2.capacity ∧ s.reservations.get? (cfg.slotKey query e.1) = none := by
  unfold Suits
  rw [hn, fits_int, decide_eq_true_eq]

theorem mem_iff_suits (e : TableId × TableInfo) :
    (fits (query.getD "party_size" (.int 1)) e.2.capacity &&
        !decide (cfg.slotKey query e.1 ∈ s.reservations.keys)) = true ↔
      Suits cfg s query e := by
  unfold Suits
  rw [← Dict.not_mem_keys_iff]
  simp

variable (hread : s.read cfg cat (.checkAvailability query) =
  .availability restaurantId date timeslot offers)
include hread

theorem offers_eq : offers = (cfg.tables.entries.filter fun e =>
    fits (query.getD "party_size" (.int 1)) e.2.capacity &&
      !decide (cfg.slotKey query e.1 ∈ s.reservations.keys)).map fun e => e.2.offer e.1 := by
  simp only [Node.read, Service.checkAvailability] at hread
  split at hread
  case h_1 => simp [Reply.raised] at hread
  case h_2 tables htables =>
    obtain ⟨-, -, -, rfl⟩ := Reply.availability.inj hread
    exact offers_ok htables

/-- What the client picks from the offers is the best table of the restaurant. -/
theorem firstLeast_offers (h : firstLeast TableOffer.capacity p offers = some best) :
    ∃ e, best = e.2.offer e.1 ∧ BestOf cfg.tables.entries
      (fun e => Suits cfg s query e ∧ p (e.2.offer e.1) = true) e := by
  rw [offers_eq hread, firstLeast_map_filter, Option.map_eq_some_iff] at h
  obtain ⟨e, he, rfl⟩ := h
  obtain ⟨before, after, htables, hp, hbefore, hafter⟩ := firstLeast_spec he
  simp only [Bool.and_eq_true (_ && _), mem_iff_suits] at hp hbefore hafter
  exact ⟨e, rfl, before, after, htables, hp, hbefore, hafter⟩

theorem firstLeast_offers_none (h : firstLeast TableOffer.capacity p offers = none)
    {e : TableId × TableInfo} (he : e ∈ cfg.tables.entries) (hs : Suits cfg s query e) :
    p (e.2.offer e.1) = false := by
  rw [offers_eq hread, firstLeast_eq_none] at h
  refine h _ (List.mem_map.mpr ⟨e, List.mem_filter.mpr ⟨he, ?_⟩, rfl⟩)
  exact (mem_iff_suits e).mpr hs

theorem best_of_all (h : matchTable offers = some best) : ∃ e, best = e.2.offer e.1 ∧
    BestOf cfg.tables.entries (Suits cfg s query) e := by
  obtain ⟨e, he, hbest⟩ := firstLeast_offers hread (matchTable_eq ▸ h)
  simp only [and_true] at hbest
  exact ⟨e, he, hbest⟩

/-- The client gets the best table at the place that it prefers, if there is one, or else the
best table of all. -/
theorem matchTableFor_best (hpref : preference ≠ some "") :
    (offers = [] → ∀ e ∈ cfg.tables.entries, ¬ Suits cfg s query e) ∧
      (offers ≠ [] → ∃ e ∈ cfg.tables.entries,
        matchTableFor lower preference offers = some (e.2.offer e.1) ∧ Suits cfg s query e ∧
        ((∃ e' ∈ cfg.tables.entries, Wanted cfg s query lower preference e') →
          BestOf cfg.tables.entries (Wanted cfg s query lower preference) e) ∧
        ((∀ e' ∈ cfg.tables.entries, ¬ Wanted cfg s query lower preference e') →
          BestOf cfg.tables.entries (Suits cfg s query) e)) ∧
      ∀ n : Int, query.getD "party_size" (.int 1) = .int n → ∀ e, Suits cfg s query e ↔
        n ≤ e.2.capacity ∧ s.reservations.get? (cfg.slotKey query e.1) = none := by
  refine ⟨?_, fun hne => ?_, fun n hn => suits_int hn⟩
  · rintro rfl e he hs
    have hnone := firstLeast_offers_none (p := fun _ => true) hread rfl he hs
    simp at hnone
  · obtain ⟨best, hbest⟩ : ∃ best, matchTable offers = some best := by
      rw [matchTable_eq, ← Option.ne_none_iff_exists', Ne, firstLeast_eq_none]
      obtain ⟨offer, rest, rfl⟩ := List.exists_cons_of_ne_nil hne
      exact fun hall => by simpa using hall offer List.mem_cons_self
    obtain ⟨e, rfl, hall⟩ := best_of_all hread hbest
    cases preference with
    | none =>
      refine ⟨e, hall.mem.1, hbest, hall.mem.2, ?_, fun _ => hall⟩
      rintro ⟨e', -, -, place, hplace, -⟩
      simp at hplace
    | some place =>
      have hwanted : Wanted cfg s query lower (some place) =
          fun e => Suits cfg s query e ∧ (e.2.offer e.1).isAt lower place = true := by
        funext e
        simp only [Wanted, TableOffer.isAt, Option.mem_some_iff, exists_eq_left', decide_eq_true_eq]
        rfl
      rw [matchTableFor_place fun h => hpref (congrArg some h), hwanted]
      cases hplace : firstLeast TableOffer.capacity (·.isAt lower place) offers with
      | some best =>
        obtain ⟨e', rfl, hthere⟩ := firstLeast_offers hread hplace
        obtain ⟨hmem, hsuits⟩ := hthere.mem
        exact ⟨e', hmem, rfl, hsuits.1, fun _ => hthere, fun hno => absurd hsuits (hno e' hmem)⟩
      | none =>
        refine ⟨e, hall.mem.1, hbest, hall.mem.2, ?_, fun _ => hall⟩
        rintro ⟨e', he', hs, hat⟩
        simp [firstLeast_offers_none hread hplace he' hs] at hat

end

/-- Two guests who would like to sit at the window. -/
theorem matchTableFor_best_window :
    ∃ e ∈ urbanPlates.tables.entries,
      matchTableFor String.toLower (some "Window") [⟨"T1", 2, "window"⟩, ⟨"T2", 2, "window"⟩] =
        some (e.2.offer e.1) ∧
      Suits urbanPlates (.start urbanPlates false) (dinner "T1" "Alice") e := by
  have hread : (Node.start urbanPlates false).read urbanPlates plainCatalogue
      (.checkAvailability (dinner "T1" "Alice")) =
        .availability "restaurant_1" (.str "2026-05-01") (.str "18:00")
          [⟨"T1", 2, "window"⟩, ⟨"T2", 2, "window"⟩] := rfl
  obtain ⟨-, hbest, -⟩ := @matchTableFor_best String.toLower (some "Window") _ _ _ _ _ _ _ _
    hread (by decide)
  obtain ⟨e, he, hmatch, hsuits, -⟩ := hbest (by simp)
  exact ⟨e, he, hmatch, hsuits⟩

end ReservationSystem
