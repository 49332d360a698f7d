import ReservationSystem.Gateway.Http

/-!
# Whether the gateway answers

The handlers send one response for most requests. Some requests end in an exception, and some
paths that nobody has announced are answered.
-/

namespace ReservationSystem

open Gateway (Address)
open Numeral Raising Url

/-! ## What is expected -/

/-- The path is one of the three announced for a restaurant. -/
def Names (path : List Char) (rid : String) : Prop :=
  '/' ∉ rid.toList ∧
    (path = "/restaurants/".toList ++ rid.toList ∨
      path = "/restaurants/".toList ++ rid.toList ++ "/availability".toList ∨
      path = "/reservations/".toList ++ rid.toList)

namespace Server

/-- The path is announced, and the restaurant in it is known. -/
def Known (g : Server) (path : List Char) : Prop :=
  path = "/restaurants".toList ∨ ∃ rid ∈ g.restaurantServiceMap.keys, Names path rid

/-- The handler sends one response and ends, with a status as it should be. -/
def Answers (handler : Responding Unit) (ok : Nat → Prop) : Prop :=
  ∃ sent, handler.run.run [] = (.ok (), [sent]) ∧ ok sent.status

def GetAnswered (g : Server) (target : List Char) : Prop :=
  Answers (g.doGet target) fun status =>
    ∀ parsed, urlparse g.odd target = .ok parsed → ¬ g.Known parsed.path → status = 404

/-- The body holds this JSON value. -/
def Holds (g : Server) (body : ByteArray) (v : Json) : Prop :=
  body.size ≠ 0 ∧ ∃ text, Utf8.decode body = some text ∧ g.loads text = .ok v

/-- The body is a JSON object. -/
def HoldsObject (g : Server) (body : ByteArray) : Prop := ∃ fields, g.Holds body (.dict fields)

/-- The status of a body's request. When the body is no object and the path is unknown too, both
statuses are right. An empty name is a missing restaurant, not an unknown one. -/
structure Expected (g : Server) (path : List Char) (body : ByteArray) (status : Nat) : Prop where
  badBody : ¬ g.HoldsObject body → status = 400 ∨ path ≠ "/reservations".toList ∧ status = 404
  badPath : path ≠ "/reservations".toList →
    status = 404 ∨ ¬ g.HoldsObject body ∧ status = 400
  badRestaurant : ∀ fields, g.Holds body (.dict fields) → path = "/reservations".toList →
    (Msg.get fields "restaurant_id").truthy →
    (∀ known ∈ g.restaurantServiceMap.keys, Msg.get fields "restaurant_id" ≠ .str known) →
    status = 404

def BodyAnswered (g : Server) (handler : List Char → ByteArray → Responding Unit)
    (target : List Char) (body : ByteArray) : Prop :=
  Answers (handler target body) fun status =>
    ∀ parsed, urlparse g.odd target = .ok parsed → g.Expected parsed.path body status

/-! ## What goes wrong -/

/-- An error whose message is null, a number or a truth value. -/
def Unreadable (response : Msg) : Prop :=
  response.get "status" = .str "error" ∧
    match response.getD "message" (.str "") with
    | .str _ | .list _ | .dict _ => False
    | _ => True

/-- The paths that are handed on to the restaurant `rid`, and what it is asked. -/
inductive Routes (path query : List Char) (rid : String) : Except String Msg → Prop
  | availability (hsecond : restaurantOf path = .ok rid) (ha : "/availability".toList <:+: path) :
      Routes path query rid (checkAvailabilityMessage query)
  | info (hsecond : restaurantOf path = .ok rid) (ha : ¬ "/availability".toList <:+: path)
      (hr : "/restaurants/".toList <+: path) : Routes path query rid (.ok getInfoMessage)
  | list (hsecond : restaurantOf path = .ok rid) (ha : ¬ "/availability".toList <:+: path)
      (hr : "/reservations/".toList <+: path) :
      Routes path query rid (.ok (listReservationsMessage query))

/-- Digits of which one is not decimal, or too many of them. -/
def BadNumber (text : List Char) : Prop :=
  AllDigits text ∧ ((∃ c ∈ text, decimal? c = none) ∨ maxStrDigits < text.length)

/-- `do_GET` raises. -/
inductive GetRaises (g : Server) (target : List Char) : Prop
  | refused (text : String) (h : urlparse g.odd target = .error text)
  | short (path query : List Char) (h : urlparse g.odd target = .ok ⟨path, query⟩)
      (ha : "/availability".toList <:+: path) (hslashes : path.count '/' < 2)
  | badNumber (path query text : List Char) (rid : String)
      (h : urlparse g.odd target = .ok ⟨path, query⟩) (ha : "/availability".toList <:+: path)
      (hsecond : restaurantOf path = .ok rid) (hknown : rid ∈ g.restaurantServiceMap.keys)
      (hq : firstOf query "party_size".toList = some text) (hbad : BadNumber text)
  | unreadable (path query : List Char) (rid : String) (addr : Address) (message : Msg)
      (h : urlparse g.odd target = .ok ⟨path, query⟩) (hr : Routes path query rid (.ok message))
      (haddr : g.restaurantServiceMap.get? rid = some addr)
      (hbad : Unreadable (g.net addr message))
  | unreadableInfo (path query : List Char) (e : String × Address)
      (h : urlparse g.odd target = .ok ⟨path, query⟩) (hpath : path = "/restaurants".toList)
      (he : e ∈ g.restaurantServiceMap.entries) (hbad : Unreadable (g.net e.2 getInfoMessage))

/-- A branch takes the path, and the restaurant in it is known. The branches do not look at the
whole of it. -/
def Served (g : Server) (path : List Char) : Prop :=
  path = "/restaurants".toList ∨
    ("/availability".toList <:+: path ∨ "/restaurants/".toList <+: path ∨
      "/reservations/".toList <+: path) ∧
    ∃ rid ∈ g.restaurantServiceMap.keys, restaurantOf path = .ok rid

/-- `do_POST` or `do_DELETE` raises. -/
inductive BodyRaises (g : Server) (message : Msg → Msg) (target : List Char) (body : ByteArray) :
    Prop
  | refused (text : String) (h : urlparse g.odd target = .error text)
  | loads (text : List Char) (why : String) (hsize : body.size ≠ 0)
      (hdecode : Utf8.decode body = some text) (hloads : g.loads text = .error (.other why))
  | noObject (path query : List Char) (v : Json) (h : urlparse g.odd target = .ok ⟨path, query⟩)
      (hpath : path = "/reservations".toList) (hv : g.Holds body v) (hnull : v ≠ .null)
      (hobj : ∀ fields, v ≠ .dict fields)
  | unhashable (path query : List Char) (fields : Msg)
      (h : urlparse g.odd target = .ok ⟨path, query⟩) (hpath : path = "/reservations".toList)
      (hv : g.Holds body (.dict fields)) (htruthy : (fields.get "restaurant_id").truthy)
      (hbad : (fields.get "restaurant_id").Unhashable)
  | unreadable (path query : List Char) (fields : Msg) (rid : String) (addr : Address)
      (h : urlparse g.odd target = .ok ⟨path, query⟩) (hpath : path = "/reservations".toList)
      (hv : g.Holds body (.dict fields)) (hrid : fields.get "restaurant_id" = .str rid)
      (htruthy : (Json.str rid).truthy) (haddr : g.restaurantServiceMap.get? rid = some addr)
      (hbad : Unreadable (g.net addr (message fields)))

/-! ## The parts of the handlers -/

section
variable {g : Server} {ok : Nat → Prop} {path query : List Char} {rid rid' : String}
  {message message' : Except String Msg}

theorem answers_sendJson {status : Nat} {data : Json} :
    Answers (sendJson status data) ok ↔ ok status := by
  constructor
  · rintro ⟨sent, hrun, hok⟩
    obtain ⟨-, hsent⟩ := Prod.mk.inj hrun
    rw [← List.singleton_inj.mp hsent] at hok
    exact hok
  · exact fun hok => ⟨_, rfl, hok⟩

theorem answers_bind {α : Type} {x : Except String α} {f : α → Responding Unit} :
    Answers (liftM x >>= f) ok ↔ ∃ a, x = .ok a ∧ Answers (f a) ok := by
  unfold Answers
  rw [run_bind, run_lift]
  cases x with
  | error text =>
    constructor
    · rintro ⟨sent, hrun, -⟩
      cases (Prod.mk.inj hrun).1
    · rintro ⟨a, ha, -⟩
      cases ha
  | ok a => simp

theorem answers_liftM {α : Type} {x : Except String α} {a : α} {f : α → Responding Unit}
    (h : x = .ok a) : Answers (liftM x >>= f) ok ↔ Answers (f a) ok := by
  rw [answers_bind, h]
  exact ⟨fun ⟨_, heq, hf⟩ => Except.ok.inj heq ▸ hf, fun hf => ⟨a, rfl, hf⟩⟩

theorem looksDown_error {response : Msg} :
    (∃ text, looksDown response = .error text) ↔ Unreadable response := by
  unfold looksDown Unreadable
  by_cases herr : response.get "status" = .str "error"
  · rw [if_pos herr]
    cases response.getD "message" (.str "") <;> simp [saysUnavailable, herr]
  · simp [herr]

theorem failover_ok {addr : Address} {msg : Msg} :
    (∃ resp, g.sendToServiceWithFailover addr msg = .ok resp) ↔ ¬ Unreadable (g.net addr msg) := by
  rw [← looksDown_error]
  simp only [sendToServiceWithFailover, bind_eq_ok]
  cases looksDown (g.net addr msg) with
  | error text => simp
  | ok down => cases down <;> cases g.backupMap addr.2 <;> simp [pure, Except.pure]

theorem answers_forward {v : Json} {status : Msg → Nat} :
    Answers (g.forward v message status) ok ↔ ∃ addr, g.getServiceAddress v = .ok addr ∧
      match addr with
      | none => ok 404
      | some addr => ∃ msg resp, message = .ok msg ∧
        g.sendToServiceWithFailover addr msg = .ok resp ∧ ok (status resp) := by
  unfold forward
  rw [answers_bind]
  refine exists_congr fun addr => and_congr_right fun _ => ?_
  cases addr with
  | none => exact answers_sendJson
  | some addr =>
    simp only [answers_bind, answers_sendJson]
    cases message <;> simp [bind, Except.bind]

theorem getServiceAddress_str :
    g.getServiceAddress (.str rid) = .ok (g.restaurantServiceMap.get? rid) :=
  rfl

theorem restaurants_ok {es : List (String × Address)} : (∃ list, g.restaurants es = .ok list) ↔
    ∀ e ∈ es, ¬ Unreadable (g.net e.2 getInfoMessage) := by
  induction es with
  | nil => simp [restaurants]
  | cons e es ih =>
    rw [List.forall_mem_cons, ← ih, ← failover_ok]
    obtain ⟨rid, addr⟩ := e
    simp only [restaurants, bind_eq_ok]
    constructor
    · rintro ⟨_, resp, hresp, list, hlist, -⟩
      exact ⟨⟨resp, hresp⟩, list, hlist⟩
    · rintro ⟨⟨resp, hresp⟩, list, hlist⟩
      exact ⟨_, resp, hresp, list, hlist, rfl⟩

theorem partySize_ok : (∃ n, partySize query = .ok n) ↔
    ∀ text, firstOf query "party_size".toList = some text → ¬ BadNumber text := by
  unfold partySize
  cases firstOf query "party_size".toList with
  | none => simp
  | some text =>
    simp only [Option.some.injEq, forall_eq']
    by_cases hd : AllDigits text
    · have hint := hd.int?_isSome
      have hbad : BadNumber text ↔ ¬ (int? text).isSome := by
        rw [hint, not_and_or, Nat.not_le]
        simp [BadNumber, hd]
      rw [hbad, not_not, if_pos hd]
      cases int? text <;> simp
    · simp [hd, BadNumber]

theorem restaurantOf_ok : (∃ rid, restaurantOf path = .ok rid) ↔ 2 ≤ path.count '/' := by
  have hlen := Words.length_splitOn '/' path
  unfold restaurantOf
  cases hget : (path.splitOn '/')[2]? with
  | none =>
    have := List.getElem?_eq_none_iff.mp hget
    simp only [reduceCtorEq, exists_false, false_iff]
    omega
  | some rid =>
    obtain ⟨hlt, -⟩ := List.getElem?_eq_some_iff.mp hget
    simp only [Except.ok.injEq, exists_eq', true_iff]
    omega

theorem two_le_count {first : List Char} (h : first <+: path) (hfirst : first.count '/' = 2) :
    2 ≤ path.count '/' := by
  rw [← hfirst]
  exact h.sublist.count_le '/'

/-- The third part of a path with two slashes before it. -/
theorem restaurantOf_eq {second rest : List Char} {others : List (List Char)}
    (hsecond : '/' ∉ second) (hrest : rest.splitOn '/' = rid.toList :: others) :
    restaurantOf ('/' :: (second ++ '/' :: rest)) = .ok rid := by
  have hslash : ('/' :: (second ++ '/' :: rest)).splitOn '/' =
      [] :: second :: rid.toList :: others := by
    rw [List.splitOn_cons_eq_if_modifyHead, if_pos (beq_self_eq_true _),
      List.splitOn_append_cons_self_of_not_mem hsecond, hrest]
  unfold restaurantOf
  rw [hslash]
  simp

theorem restaurantOf_names (hn : Names path rid) : restaurantOf path = .ok rid := by
  have hrestaurants : '/' ∉ "restaurants".toList := by decide
  have hreservations : '/' ∉ "reservations".toList := by decide
  obtain ⟨hslash, rfl | rfl | rfl⟩ := hn
  · exact restaurantOf_eq hrestaurants (List.splitOn_eq_singleton hslash)
  · rw [List.append_assoc]
    exact restaurantOf_eq hrestaurants (List.splitOn_append_cons_self_of_not_mem hslash _)
  · exact restaurantOf_eq hreservations (List.splitOn_eq_singleton hslash)

theorem checkAvailabilityMessage_ok : (∃ msg, checkAvailabilityMessage query = .ok msg) ↔
    ∀ text, firstOf query "party_size".toList = some text → ¬ BadNumber text := by
  rw [← partySize_ok]
  unfold checkAvailabilityMessage
  cases partySize query with
  | error text => simp [bind, Except.bind]
  | ok n => exact iff_of_true ⟨_, rfl⟩ ⟨n, rfl⟩

/-! ## GET -/

theorem Routes.second (hr : Routes path query rid message) : restaurantOf path = .ok rid := by
  cases hr <;> assumption

theorem Routes.ne_restaurants (hr : Routes path query rid message) :
    path ≠ "/restaurants".toList := by
  rintro rfl
  have hcount := restaurantOf_ok.mp ⟨rid, hr.second⟩
  revert hcount
  decide

theorem prefixes_exclusive (h : "/restaurants/".toList <+: path) :
    ¬ "/reservations/".toList <+: path := by
  intro h'
  have hlt := List.prefix_of_prefix_length_le h h' (by decide)
  revert hlt
  decide

theorem Routes.unique (hr : Routes path query rid message) (hr' : Routes path query rid' message') :
    rid' = rid ∧ message' = message := by
  refine ⟨Except.ok.inj (hr'.second.symm.trans hr.second), ?_⟩
  cases hr with
  | availability _ ha => cases hr' <;> first | rfl | contradiction
  | info _ ha hp =>
    cases hr' with
    | availability => contradiction
    | info => rfl
    | list _ _ hp' => exact absurd hp' (prefixes_exclusive hp)
  | list _ ha hp =>
    cases hr' with
    | availability => contradiction
    | info _ _ hp' => exact absurd hp (prefixes_exclusive hp')
    | list => rfl

theorem Routes.error_iff (hr : Routes path query rid message) : (¬ ∃ msg, message = .ok msg) ↔
    "/availability".toList <:+: path ∧
      ∃ text, firstOf query "party_size".toList = some text ∧ BadNumber text := by
  cases hr with
  | availability _ ha =>
    rw [checkAvailabilityMessage_ok, iff_true_intro ha, true_and]
    simp only [not_forall, not_not, exists_prop]
  | info _ ha | list _ ha => exact iff_of_false (fun h => h ⟨_, rfl⟩) fun h => ha h.1

theorem mem_keys_iff :
    rid ∈ g.restaurantServiceMap.keys ↔ ∃ addr, g.restaurantServiceMap.get? rid = some addr := by
  rw [← not_iff_not, Dict.not_mem_keys_iff, ← Option.ne_none_iff_exists', not_not]

theorem getRaises_iff {target : List Char} (h : urlparse g.odd target = .ok ⟨path, query⟩)
    (hr : Routes path query rid message) :
    g.GetRaises target ↔ ∃ addr, g.restaurantServiceMap.get? rid = some addr ∧
      ¬ ∃ msg, message = .ok msg ∧ ¬ Unreadable (g.net addr msg) := by
  constructor
  · rintro (⟨text, h'⟩ | ⟨path', query', h', ha, hslashes⟩ |
      ⟨path', query', text, rid', h', ha, hsecond, hk, hq, hbad⟩ |
      ⟨path', query', rid', addr, msg, h', hr', haddr, hbad⟩ | ⟨path', query', e, h', hpath, -, -⟩)
      <;> rw [h] at h' <;> cases h'
    · have hcount := restaurantOf_ok.mp ⟨rid, hr.second⟩
      omega
    · obtain rfl := Except.ok.inj (hsecond.symm.trans hr.second)
      obtain ⟨addr, haddr⟩ := mem_keys_iff.mp hk
      refine ⟨addr, haddr, ?_⟩
      rintro ⟨msg, hmsg, -⟩
      exact hr.error_iff.mpr ⟨ha, text, hq, hbad⟩ ⟨msg, hmsg⟩
    · obtain ⟨rfl, rfl⟩ := hr.unique hr'
      refine ⟨addr, haddr, ?_⟩
      rintro ⟨_, ⟨⟩, hread⟩
      exact hread hbad
    · exact absurd hpath hr.ne_restaurants
  · rintro ⟨addr, haddr, hno⟩
    by_cases hmsg : ∃ msg, message = .ok msg
    · obtain ⟨msg, rfl⟩ := hmsg
      exact .unreadable _ _ _ _ _ h hr haddr (not_not.mp fun hread => hno ⟨msg, rfl, hread⟩)
    · obtain ⟨ha, text, hq, hbad⟩ := hr.error_iff.mp hmsg
      exact .badNumber _ _ _ _ h ha hr.second (mem_keys_iff.mpr ⟨addr, haddr⟩) hq hbad

theorem answers_forward_get {target : List Char} (h : urlparse g.odd target = .ok ⟨path, query⟩)
    (hr : Routes path query rid message) :
    Answers (g.forward (.str rid) message fun _ => 200) ok ↔ ¬ g.GetRaises target ∧
      (rid ∈ g.restaurantServiceMap.keys → ok 200) ∧
      (rid ∉ g.restaurantServiceMap.keys → ok 404) := by
  rw [getRaises_iff h hr, answers_forward, getServiceAddress_str, mem_keys_iff]
  cases g.restaurantServiceMap.get? rid with
  | none => simp
  | some addr =>
    simp only [Except.ok.injEq, exists_eq_left', Option.some.injEq, not_not, exists_eq',
      true_imp_iff, not_true_eq_false, false_imp_iff, and_true, ← failover_ok]
    constructor
    · rintro ⟨msg, resp, hmsg, hresp, hok⟩
      exact ⟨⟨msg, hmsg, resp, hresp⟩, hok⟩
    · rintro ⟨⟨msg, hmsg, resp, hresp⟩, hok⟩
      exact ⟨msg, resp, hmsg, hresp, hok⟩

/-- What becomes of a path, branch by branch. -/
theorem answers_get {target : List Char} (h : urlparse g.odd target = .ok ⟨path, query⟩) :
    Answers (g.doGet target) ok ↔
      if path = "/restaurants".toList then
        (∃ list, g.restaurants g.restaurantServiceMap.entries = .ok list) ∧ ok 200
      else if "/availability".toList <:+: path then
        ∃ rid, restaurantOf path = .ok rid ∧
          Answers (g.forward (.str rid) (checkAvailabilityMessage query) fun _ => 200) ok
      else if "/restaurants/".toList <+: path then
        ∃ rid, restaurantOf path = .ok rid ∧
          Answers (g.forward (.str rid) (.ok getInfoMessage) fun _ => 200) ok
      else if "/reservations/".toList <+: path then
        ∃ rid, restaurantOf path = .ok rid ∧
          Answers (g.forward (.str rid) (.ok (listReservationsMessage query)) fun _ => 200) ok
      else ok 404 := by
  unfold doGet
  rw [answers_liftM h]
  split
  · rw [answers_bind]
    simp only [answers_sendJson, exists_and_right]
  split
  · exact answers_bind
  split
  · exact answers_bind
  split
  · exact answers_bind
  · exact answers_sendJson

theorem answers_branch {target : List Char} (h : urlparse g.odd target = .ok ⟨path, query⟩)
    (hroutes : ∀ rid, restaurantOf path = .ok rid → Routes path query rid message)
    (hshort : path.count '/' < 2 → g.GetRaises target)
    (hrouted : "/availability".toList <:+: path ∨ "/restaurants/".toList <+: path ∨
      "/reservations/".toList <+: path) :
    (∃ rid, restaurantOf path = .ok rid ∧
      Answers (g.forward (.str rid) message fun _ => 200) ok) ↔
      ¬ g.GetRaises target ∧ (g.Served path → ok 200) ∧ (¬ g.Served path → ok 404) := by
  by_cases hcount : path.count '/' < 2
  · refine iff_of_false ?_ fun hr => hr.1 (hshort hcount)
    rintro ⟨rid, hsecond, -⟩
    exact absurd (restaurantOf_ok.mp ⟨rid, hsecond⟩) (Nat.not_le.mpr hcount)
  · obtain ⟨rid, hsecond⟩ := restaurantOf_ok.mpr (Nat.not_lt.mp hcount)
    have hserved : g.Served path ↔ rid ∈ g.restaurantServiceMap.keys := by
      simp only [Served, (hroutes rid hsecond).ne_restaurants, hrouted, hsecond, Except.ok.injEq,
        false_or, true_and, exists_eq_right']
    simp only [hsecond, Except.ok.injEq, exists_eq_left',
      answers_forward_get h (hroutes rid hsecond), hserved]

/-- Without a restaurant in the path, only the list can raise. -/
theorem getRaises_unrouted {target : List Char} (h : urlparse g.odd target = .ok ⟨path, query⟩)
    (hno : ∀ rid message, ¬ Routes path query rid message)
    (ha : ¬ "/availability".toList <:+: path) :
    g.GetRaises target ↔ path = "/restaurants".toList ∧
      ∃ e ∈ g.restaurantServiceMap.entries, Unreadable (g.net e.2 getInfoMessage) := by
  constructor
  · rintro (⟨text, h'⟩ | ⟨path', query', h', ha', -⟩ |
      ⟨path', query', text, rid, h', ha', -, -, -, -⟩ |
      ⟨path', query', rid, addr, msg, h', hr, -, -⟩ | ⟨path', query', e, h', hpath, he, hbad⟩)
      <;> rw [h] at h' <;> cases h'
    · exact absurd ha' ha
    · exact absurd ha' ha
    · exact absurd hr (hno _ _)
    · exact ⟨hpath, e, he, hbad⟩
  · rintro ⟨hpath, e, he, hbad⟩
    exact .unreadableInfo _ _ e h hpath he hbad

/-- Unless it raises, `do_GET` sends one response. -/
theorem answers_doGet {target : List Char} (h : urlparse g.odd target = .ok ⟨path, query⟩) :
    Answers (g.doGet target) ok ↔
      ¬ g.GetRaises target ∧ (g.Served path → ok 200) ∧ (¬ g.Served path → ok 404) := by
  rw [answers_get h]
  split
  case isTrue hpath =>
    have ha : ¬ "/availability".toList <:+: path := by
      rw [hpath]
      decide
    have hserved : g.Served path := .inl hpath
    rw [getRaises_unrouted h (fun rid message hr => hr.ne_restaurants hpath) ha, restaurants_ok]
    simp only [eq_true hserved, eq_true hpath, true_and, not_exists, not_and, true_imp_iff,
      not_true_eq_false, false_imp_iff, and_true]
  split
  case isTrue ha =>
    exact answers_branch h (fun rid hsecond => .availability hsecond ha)
      (fun hs => .short _ _ h ha hs) (.inl ha)
  case isFalse hpath ha =>
  split
  case isTrue hr =>
    exact answers_branch h (fun rid hsecond => .info hsecond ha hr)
      (fun hs => absurd (two_le_count hr (by decide)) (Nat.not_le.mpr hs)) (.inr (.inl hr))
  case isFalse hinfo =>
  split
  case isTrue hr =>
    exact answers_branch h (fun rid hsecond => .list hsecond ha hr)
      (fun hs => absurd (two_le_count hr (by decide)) (Nat.not_le.mpr hs)) (.inr (.inr hr))
  case isFalse hlist =>
    have hno (rid : String) (message : Except String Msg) : ¬ Routes path query rid message := by
      rintro (⟨-, ha'⟩ | ⟨-, -, hr⟩ | ⟨-, -, hr⟩)
      · exact ha ha'
      · exact hinfo hr
      · exact hlist hr
    have hserved : ¬ g.Served path := by
      rintro (hp | ⟨ha' | hr | hr, -⟩)
      · exact hpath hp
      · exact ha ha'
      · exact hinfo hr
      · exact hlist hr
    rw [getRaises_unrouted h hno ha]
    exact ⟨fun hok => ⟨fun hr => hpath hr.1, fun hs => absurd hs hserved, fun _ => hok⟩,
      fun hr => hr.2.2 hserved⟩

theorem getAnswered_iff (target : List Char) : g.GetAnswered target ↔ ¬ g.GetRaises target ∧
    ∀ parsed, urlparse g.odd target = .ok parsed → g.Served parsed.path → g.Known parsed.path := by
  unfold GetAnswered
  cases h : urlparse g.odd target with
  | error text =>
    refine iff_of_false ?_ fun hr => hr.1 (.refused text h)
    unfold doGet
    rw [answers_bind, h]
    rintro ⟨_, ⟨⟩, -⟩
  | ok parsed =>
    simp only [Except.ok.injEq, forall_eq']
    rw [answers_doGet h]
    refine and_congr_right fun _ => ⟨fun hr hs => ?_, fun hk => ⟨fun hs hn => ?_, fun _ _ => rfl⟩⟩
    · by_contra hn
      exact absurd (hr.1 hs hn) (by decide)
    · exact absurd (hk hs) hn

/-! ## POST and DELETE -/

theorem getServiceAddress_some {v : Json} {addr : Address} :
    g.getServiceAddress v = .ok (some addr) ↔
      ∃ rid, v = .str rid ∧ g.restaurantServiceMap.get? rid = some addr := by
  simp only [getServiceAddress, bind_eq_ok]
  constructor
  · rintro ⟨k, hk, heq⟩
    split at heq
    · exact ⟨_, Json.hashed_str.mp hk, Except.ok.inj heq⟩
    · cases Except.ok.inj heq
  · rintro ⟨rid, rfl, haddr⟩
    exact ⟨.str rid, rfl, congrArg Except.ok haddr⟩

theorem getServiceAddress_ok {v : Json} :
    (∃ addr, g.getServiceAddress v = .ok addr) ↔ ¬ v.Unhashable := by
  rw [← Json.hashed_error]
  simp only [getServiceAddress, bind_eq_ok]
  cases v.hashed with
  | error text => simp
  | ok k => cases k <;> simp [pure, Except.pure]

theorem answers_onReservations {message : Msg → Msg} {failed : Nat} {target : List Char}
    {body : ByteArray} (h : urlparse g.odd target = .ok ⟨path, query⟩) :
    Answers (g.onReservations message failed target body) ok ↔
      ∃ v, g.readBody body = .ok v ∧
        if v = .null then ok 400
        else if path = "/reservations".toList then
          ∃ fields, v.fields = .ok fields ∧
            if (fields.get "restaurant_id").truthy then
              Answers (g.forward (fields.get "restaurant_id") (.ok (message fields)) fun resp =>
                if resp.get "status" = .str "ok" then 200 else failed) ok
            else ok 400
        else ok 404 := by
  unfold onReservations
  rw [answers_liftM h, answers_bind]
  refine exists_congr fun v => and_congr_right fun _ => ?_
  split
  · exact answers_sendJson
  split
  · rw [answers_bind]
    refine exists_congr fun fields => and_congr_right fun _ => ?_
    dsimp only
    split
    · exact Iff.rfl
    · exact answers_sendJson
  · exact answers_sendJson

theorem Holds.unique {body : ByteArray} {v v' : Json} (hv : g.Holds body v)
    (hv' : g.Holds body v') : v = v' := by
  obtain ⟨-, text, hdecode, hloads⟩ := hv
  obtain ⟨-, text', hdecode', hloads'⟩ := hv'
  obtain rfl := Option.some.inj (hdecode.symm.trans hdecode')
  exact Except.ok.inj (hloads.symm.trans hloads')

theorem Holds.readBody {body : ByteArray} {v : Json} (hv : g.Holds body v) :
    g.readBody body = .ok v := by
  obtain ⟨hsize, text, hdecode, hloads⟩ := hv
  unfold Server.readBody
  rw [if_neg hsize]
  simp only [hdecode, hloads]

/-- What `_readBody` makes of a body that holds no value. -/
theorem readBody_cases {body : ByteArray} (hno : ∀ v, ¬ g.Holds body v) :
    g.readBody body = .ok (.dict []) ∨ g.readBody body = .ok .null ∨
      ∃ text why, body.size ≠ 0 ∧ Utf8.decode body = some text ∧
        g.loads text = .error (.other why) ∧ g.readBody body = .error why := by
  unfold readBody
  by_cases hsize : body.size = 0
  · exact .inl (if_pos hsize)
  rw [if_neg hsize]
  cases hdecode : Utf8.decode body with
  | none => exact .inr (.inl rfl)
  | some text =>
    dsimp only
    cases hloads : g.loads text with
    | ok v => exact absurd ⟨hsize, text, hdecode, hloads⟩ (hno v)
    | error e =>
      cases e with
      | jsonDecodeError => exact .inr (.inl rfl)
      | other why => exact .inr (.inr ⟨text, why, hsize, rfl, hloads, rfl⟩)

theorem readBody_error {text : List Char} {body : ByteArray} {why : String}
    (hsize : body.size ≠ 0) (hdecode : Utf8.decode body = some text)
    (hloads : g.loads text = .error (.other why)) : g.readBody body = .error why := by
  unfold readBody
  rw [if_neg hsize]
  simp only [hdecode, hloads]

theorem bodyRaises_iff {message : Msg → Msg} {target : List Char} {body : ByteArray}
    (h : urlparse g.odd target = .ok ⟨path, query⟩) :
    g.BodyRaises message target body ↔ (∃ why, g.readBody body = .error why) ∨
      path = "/reservations".toList ∧
        ((∃ v, g.Holds body v ∧ v ≠ .null ∧ ∀ fields, v ≠ .dict fields) ∨
          ∃ fields, g.Holds body (.dict fields) ∧ (Msg.get fields "restaurant_id").truthy ∧
            ((Msg.get fields "restaurant_id").Unhashable ∨
              ∃ rid addr, Msg.get fields "restaurant_id" = .str rid ∧
                g.restaurantServiceMap.get? rid = some addr ∧
                Unreadable (g.net addr (message fields)))) := by
  constructor
  · rintro (⟨text, h'⟩ | ⟨text, why, hsize, hdecode, hloads⟩ |
      ⟨path', query', v, h', hpath, hv, hnull, hobj⟩ |
      ⟨path', query', fields, h', hpath, hv, htruthy, hbad⟩ |
      ⟨path', query', fields, rid, addr, h', hpath, hv, hrid, htruthy, haddr, hbad⟩)
    · rw [h] at h'
      cases h'
    · exact .inl ⟨why, readBody_error hsize hdecode hloads⟩
    all_goals
      rw [h] at h'
      cases h'
    · exact .inr ⟨hpath, .inl ⟨v, hv, hnull, hobj⟩⟩
    · exact .inr ⟨hpath, .inr ⟨fields, hv, htruthy, .inl hbad⟩⟩
    · exact .inr ⟨hpath, .inr ⟨fields, hv, hrid ▸ htruthy, .inr ⟨rid, addr, hrid, haddr, hbad⟩⟩⟩
  · rintro (⟨why, hread⟩ | ⟨hpath, ⟨v, hv, hnull, hobj⟩ | ⟨fields, hv, htruthy, hbad |
      ⟨rid, addr, hrid, haddr, hbad⟩⟩⟩)
    · have hno (v : Json) (hv : g.Holds body v) : False := by
        rw [hv.readBody] at hread
        cases hread
      obtain hread' | hread' | ⟨text, why', hsize, hdecode, hloads, -⟩ := readBody_cases hno
      · rw [hread] at hread'
        cases hread'
      · rw [hread] at hread'
        cases hread'
      · exact .loads text why' hsize hdecode hloads
    · exact .noObject _ _ v h hpath hv hnull hobj
    · exact .unhashable _ _ fields h hpath hv htruthy hbad
    · exact .unreadable _ _ fields rid addr h hpath hv hrid (hrid ▸ htruthy) haddr hbad

/-- A restaurant that is known may get any status. -/
theorem answers_forward_body {v : Json} {msg : Msg} {status : Msg → Nat}
    (hok : ∀ known ∈ g.restaurantServiceMap.keys, v = .str known → ∀ n, ok n) :
    Answers (g.forward v (.ok msg) status) ok ↔
      (¬ v.Unhashable ∧ ∀ rid addr, v = .str rid → g.restaurantServiceMap.get? rid = some addr →
        ¬ Unreadable (g.net addr msg)) ∧
      ((∀ known ∈ g.restaurantServiceMap.keys, v ≠ .str known) → ok 404) := by
  rw [answers_forward, ← getServiceAddress_ok]
  cases haddr : g.getServiceAddress v with
  | error text => simp
  | ok addr =>
    simp only [Except.ok.injEq, exists_eq_left', exists_eq', true_and]
    cases addr with
    | none =>
      have hno (rid : String) (hv : v = .str rid) : g.restaurantServiceMap.get? rid = none := by
        rw [hv, getServiceAddress_str] at haddr
        exact Except.ok.inj haddr
      constructor
      · refine fun h404 => ⟨fun rid addr hv hget => ?_, fun _ => h404⟩
        rw [hno rid hv] at hget
        cases hget
      · refine fun hr => hr.2 fun known hk hv => ?_
        rw [← not_not (a := known ∈ _), Dict.not_mem_keys_iff] at hk
        exact hk (hno known hv)
    | some addr =>
      obtain ⟨rid, rfl, hget⟩ := getServiceAddress_some.mp haddr
      have hk := mem_keys_iff.mpr ⟨addr, hget⟩
      constructor
      · rintro ⟨_, resp, ⟨⟩, hresp, -⟩
        refine ⟨?_, fun hno => absurd rfl (hno rid hk)⟩
        rintro _ addr' ⟨⟩ hget'
        obtain rfl := Option.some.inj (hget.symm.trans hget')
        exact failover_ok.mp ⟨resp, hresp⟩
      · rintro ⟨hread, -⟩
        obtain ⟨resp, hresp⟩ := failover_ok.mpr (hread rid addr rfl hget)
        exact ⟨msg, resp, rfl, hresp, hok rid hk rfl _⟩

theorem expected_of_not_object {body : ByteArray} {n : Nat} (hno : ¬ g.HoldsObject body) :
    g.Expected path body n ↔ n = 400 ∨ path ≠ "/reservations".toList ∧ n = 404 := by
  constructor
  · exact fun he => he.badBody hno
  · intro hn
    refine ⟨fun _ => hn, fun _ => ?_, fun fields hv => absurd ⟨fields, hv⟩ hno⟩
    exact hn.elim (fun h400 => .inr ⟨hno, h400⟩) fun h404 => .inl h404.2

/-! ### An object -/

section
variable {message : Msg → Msg} {failed : Nat} {target : List Char} {body : ByteArray} {fields : Msg}
  {v : Json} (h : urlparse g.odd target = .ok ⟨path, query⟩)
include h

theorem bodyRaises_object (hv : g.Holds body (.dict fields)) :
    g.BodyRaises message target body ↔ path = "/reservations".toList ∧
      (fields.get "restaurant_id").truthy ∧ ((fields.get "restaurant_id").Unhashable ∨
        ∃ rid addr, fields.get "restaurant_id" = .str rid ∧
          g.restaurantServiceMap.get? rid = some addr ∧
          Unreadable (g.net addr (message fields))) := by
  rw [bodyRaises_iff h, hv.readBody]
  constructor
  · rintro (⟨why, ⟨⟩⟩ | ⟨hpath, ⟨v, hv', -, hobj⟩ | ⟨fields', hv', hbad⟩⟩)
    · exact absurd (hv'.unique hv) (hobj fields)
    · obtain rfl := Json.dict.inj (hv'.unique hv)
      exact ⟨hpath, hbad⟩
  · exact fun hr => .inr ⟨hr.1, .inr ⟨fields, hv, hr.2⟩⟩

theorem answered_object (hv : g.Holds body (.dict fields)) :
    Answers (g.onReservations message failed target body) (g.Expected path body) ↔
      ¬ g.BodyRaises message target body := by
  have hobj : g.HoldsObject body := ⟨fields, hv⟩
  have hexpected (n : Nat) : g.Expected path body n ↔
      (path ≠ "/reservations".toList → n = 404) ∧ (path = "/reservations".toList →
        (fields.get "restaurant_id").truthy →
        (∀ known ∈ g.restaurantServiceMap.keys, fields.get "restaurant_id" ≠ .str known) →
        n = 404) := by
    constructor
    · exact fun he => ⟨fun hpath => (he.badPath hpath).resolve_right fun hno => hno.1 hobj,
        he.badRestaurant fields hv⟩
    · refine fun he => ⟨fun hno => absurd hobj hno, fun hpath => .inl (he.1 hpath), ?_⟩
      intro fields' hv'
      obtain rfl := Json.dict.inj (hv'.unique hv)
      exact he.2
  rw [answers_onReservations h, bodyRaises_object h hv, hv.readBody]
  simp only [Except.ok.injEq, exists_eq_left', reduceCtorEq, if_false, Json.fields]
  by_cases hpath : path = "/reservations".toList
  case neg =>
    rw [if_neg hpath, hexpected]
    exact iff_of_true ⟨fun _ => rfl, fun hp => absurd hp hpath⟩ fun hr => hpath hr.1
  by_cases htruthy : (fields.get "restaurant_id").truthy = true
  case neg =>
    rw [if_pos hpath, if_neg htruthy, hexpected]
    exact iff_of_true ⟨fun hp => absurd hpath hp, fun _ ht => absurd ht htruthy⟩ fun hr =>
      htruthy hr.2.1
  rw [if_pos hpath, if_pos htruthy, answers_forward_body]
  · simp only [eq_true hpath, eq_true htruthy, true_and, not_or, not_exists, not_and]
    refine and_iff_left fun hunknown => ?_
    rw [hexpected]
    exact ⟨fun _ => rfl, fun _ _ _ => rfl⟩
  · intro known hk hv' n
    rw [hexpected]
    exact ⟨fun hp => absurd hpath hp, fun _ _ hno => absurd hv' (hno known hk)⟩

/-! ### Anything else -/

theorem bodyRaises_value (hv : g.Holds body v) (hobj : ∀ fields, v ≠ .dict fields) :
    g.BodyRaises message target body ↔ path = "/reservations".toList ∧ v ≠ .null := by
  rw [bodyRaises_iff h, hv.readBody]
  constructor
  · rintro (⟨why, ⟨⟩⟩ | ⟨hpath, ⟨v', hv', hnull, -⟩ | ⟨fields, hv', -⟩⟩)
    · exact ⟨hpath, hv'.unique hv ▸ hnull⟩
    · exact absurd (hv.unique hv') (hobj fields)
  · exact fun hr => .inr ⟨hr.1, .inl ⟨v, hv, hr.2, hobj⟩⟩

theorem answered_value (hv : g.Holds body v) (hobj : ∀ fields, v ≠ .dict fields) :
    Answers (g.onReservations message failed target body) (g.Expected path body) ↔
      ¬ g.BodyRaises message target body := by
  have hno : ¬ g.HoldsObject body := by
    rintro ⟨fields, hv'⟩
    exact hobj fields (hv.unique hv')
  rw [answers_onReservations h, bodyRaises_value h hv hobj, hv.readBody]
  simp only [Except.ok.injEq, exists_eq_left']
  by_cases hnull : v = .null
  · rw [if_pos hnull, expected_of_not_object hno]
    exact iff_of_true (.inl rfl) fun hr => hr.2 hnull
  rw [if_neg hnull]
  by_cases hpath : path = "/reservations".toList
  · rw [if_pos hpath]
    refine iff_of_false ?_ (not_not_intro ⟨hpath, hnull⟩)
    rintro ⟨fields, hfields, -⟩
    cases v with
    | dict fields' => exact hobj fields' rfl
    | _ => cases hfields
  · rw [if_neg hpath, expected_of_not_object hno]
    exact iff_of_true (.inr ⟨hpath, rfl⟩) fun hr => hpath hr.1

theorem answered_nothing (hno : ∀ v, ¬ g.Holds body v) :
    Answers (g.onReservations message failed target body) (g.Expected path body) ↔
      ¬ g.BodyRaises message target body := by
  have hobj : ¬ g.HoldsObject body := fun ⟨fields, hv⟩ => hno _ hv
  have hraises : g.BodyRaises message target body ↔ ∃ why, g.readBody body = .error why := by
    rw [bodyRaises_iff h]
    refine or_iff_left ?_
    rintro ⟨-, ⟨v, hv, -⟩ | ⟨fields, hv, -⟩⟩ <;> exact hno _ hv
  rw [answers_onReservations h, hraises]
  obtain hread | hread | ⟨-, why, -, -, -, hread⟩ := readBody_cases hno <;> rw [hread]
  · simp only [Except.ok.injEq, exists_eq_left', reduceCtorEq, if_false, Json.fields, exists_false,
      not_false_eq_true, iff_true]
    by_cases hpath : path = "/reservations".toList
    · rw [if_pos hpath]
      exact ⟨([] : Msg), rfl, (expected_of_not_object hobj).mpr (.inl rfl)⟩
    · rw [if_neg hpath, expected_of_not_object hobj]
      exact .inr ⟨hpath, rfl⟩
  · simp only [Except.ok.injEq, exists_eq_left', if_true, reduceCtorEq, exists_false,
      not_false_eq_true, iff_true]
    rw [expected_of_not_object hobj]
    exact .inl rfl
  · refine iff_of_false ?_ (not_not_intro ⟨why, rfl⟩)
    rintro ⟨_, ⟨⟩, -⟩

end

theorem bodyAnswered_iff {message : Msg → Msg} {failed : Nat} (target : List Char)
    (body : ByteArray) : g.BodyAnswered (g.onReservations message failed) target body ↔
      ¬ g.BodyRaises message target body := by
  unfold BodyAnswered
  cases h : urlparse g.odd target with
  | error text =>
    refine iff_of_false ?_ (not_not_intro (.refused text h))
    unfold onReservations
    rw [answers_bind, h]
    rintro ⟨_, ⟨⟩, -⟩
  | ok parsed =>
    simp only [Except.ok.injEq, forall_eq']
    by_cases hval : ∃ v, g.Holds body v
    · obtain ⟨v, hv⟩ := hval
      by_cases hobj : ∃ fields, v = .dict fields
      · obtain ⟨fields, rfl⟩ := hobj
        exact answered_object h hv
      · exact answered_value h hv (not_exists.mp hobj)
    · exact answered_nothing h (not_exists.mp hval)

/-! ## In front of the nodes -/

/-- The JSON of a node's reply, as far as the gateway looks at it. -/
structure Encodes (reply : Reply) (m : Msg) : Prop where
  status : m.get "status" = .str (match reply.status with | .ok => "ok" | .error => "error")
  message : m.getD "message" (.str "") = .str reply.message

theorem looksDown_encodes {reply : Reply} {m : Msg} (henc : Encodes reply m) :
    looksDown m = .ok (reply.status = .error ∧ System.mentionsUnavailable reply.message) := by
  unfold looksDown
  rw [henc.status, henc.message]
  cases reply.status <;> simp [saysUnavailable]

/-- No node gives an answer that the gateway cannot read. -/
theorem Encodes.readable {reply : Reply} {m : Msg} (henc : Encodes reply m) : ¬ Unreadable m := by
  rw [← looksDown_error, looksDown_encodes henc]
  rintro ⟨_, ⟨⟩⟩

/-- In front of nodes, the gateway fails over as it does on their replies. -/
theorem failover_encodes {encode : Reply → Msg} {msg : Msg} {net : Address → Gateway.Attempt}
    (henc : ∀ reply, Encodes reply (encode reply))
    (hnet : ∀ a, g.net a msg = encode (Gateway.sendToService (net a))) (addr : Address) :
    g.sendToServiceWithFailover addr msg =
      .ok (encode (Gateway.sendToServiceWithFailover g.backupMap g.replicationHost net addr.1
        addr.2).reply) := by
  unfold sendToServiceWithFailover Gateway.sendToServiceWithFailover Gateway.failoverPort
  simp only [hnet, looksDown_encodes (henc _), bind, Except.bind, decide_eq_true_eq]
  split_ifs with hdown
  · cases g.backupMap addr.2 <;> rfl
  · rfl

/-! ## The gateway as a whole -/

/-- The gateway answers as it should unless it raises, or serves a path that is not announced. -/
theorem gateway_answers_iff (g : Server) :
    (∀ target, g.GetAnswered target ↔ ¬ g.GetRaises target ∧
      ∀ parsed, urlparse g.odd target = .ok parsed → g.Served parsed.path →
        g.Known parsed.path) ∧
      ∀ target body,
        (g.BodyAnswered g.doPost target body ↔ ¬ g.BodyRaises bookMessage target body) ∧
        (g.BodyAnswered g.doDelete target body ↔ ¬ g.BodyRaises cancelMessage target body) :=
  ⟨getAnswered_iff, fun target body => ⟨bodyAnswered_iff target body, bodyAnswered_iff target body⟩⟩

/-- A gateway in front of one restaurant, which answers everything with ok. -/
def oneRestaurant : Server where
  restaurantServiceMap := ⟨[("restaurant_1", ("127.0.0.1", 6001))], by decide⟩
  backupMap _ := none
  replicationHost := "127.0.0.1"
  loads _ := .error .jsonDecodeError
  odd _ := none
  printable _ := true
  net _ _ := [("status", .str "ok")]

/-- `GET /availability`. -/
theorem availability_escapes :
    (oneRestaurant.doGet "/availability".toList).run.run [] =
        (.error "list index out of range", []) ∧
      ¬ oneRestaurant.GetAnswered "/availability".toList := by
  have hrun : (oneRestaurant.doGet "/availability".toList).run.run [] =
      (.error "list index out of range", []) := rfl
  refine ⟨hrun, ?_⟩
  rintro ⟨sent, hsent, -⟩
  rw [hrun] at hsent
  cases (Prod.mk.inj hsent).1

end

end Server

end ReservationSystem
