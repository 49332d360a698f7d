import ReservationSystem.Lib.Words
import ReservationSystem.Node.Decisions
import ReservationSystem.Node.Queries
import ReservationSystem.System.Invariants

/-!
# When the gateway asks the backup

`sendToServiceWithFailover` in front of a primary that may answer anything its handlers can
answer, or nothing at all.
-/

namespace ReservationSystem.Gateway

open Machine
open ReservationSystem.System (mentionsUnavailable unavailable)

/-! ## Sending -/

abbrev Address := String × Nat

/-- What comes of a connection: the answer, or the text of the exception that `sendToService`
catches (refused, timed out or lost). -/
inductive Attempt
  | answered (reply : Reply)
  | noResponse (text : String)

def sendToService : Attempt → Reply
  | .answered reply => reply
  | .noResponse text => .written (unavailable text)

/-- The answer that the gateway passes on, and the nodes it has asked, in order. -/
structure Exchange where
  reply : Reply
  contacted : List Address

/-- The port to try next: `BACKUP_MAP.get(port)`, after an answer that says so. -/
def failoverPort (backupMap : Nat → Option Nat) (port : Nat) (reply : Reply) : Option Nat :=
  if reply.status = .error ∧ mentionsUnavailable reply.message then backupMap port else none

def sendToServiceWithFailover (backupMap : Nat → Option Nat) (replicationHost : String)
    (net : Address → Attempt) (host : String) (port : Nat) : Exchange :=
  match failoverPort backupMap port (sendToService (net (host, port))) with
  | none => ⟨sendToService (net (host, port)), [(host, port)]⟩
  | some backupPort =>
    ⟨sendToService (net (replicationHost, backupPort)),
      [(host, port), (replicationHost, backupPort)]⟩

/-- The backup is asked exactly when the primary gave no answer, and an answer of the primary
is passed on as it is. -/
def FailsOverRightly (backupMap : Nat → Option Nat) (replicationHost : String)
    (net : Address → Attempt) (host : String) (port : Nat) : Prop :=
  ((∃ backupPort,
      (sendToServiceWithFailover backupMap replicationHost net host port).contacted =
        [(host, port), (replicationHost, backupPort)]) ↔
      (∃ text, net (host, port) = .noResponse text) ∧ (backupMap port).isSome) ∧
    ∀ reply, net (host, port) = .answered reply →
      sendToServiceWithFailover backupMap replicationHost net host port =
        ⟨reply, [(host, port)]⟩

/-! ## What the primary may do -/

/-- It stays silent, or reads, or runs a handler `h` from some state, among others. -/
inductive Behaviour
  | silent (text : String)
  | reads
  | runs (s : Node) (h : Thread) (es : List Node.Event)

/-- The answers to a query. Other handlers can write while it is read. -/
inductive Reads (cfg : Service) (cat : Catalogue) : Query → Reply → Prop
  | atOnce (s : Node) (q : Query) : Reads cfg cat q (s.read cfg cat q)
  | available (msg : Msg) (taken : TableId → Bool) :
      Reads cfg cat (.checkAvailability msg) (cfg.checkAvailability msg taken)
  | listed (msg : Msg) (results : List Reservation) :
      Reads cfg cat (.listReservations msg) (.reservations results results.length)
  | resized (msg : Msg) :
      Reads cfg cat (.listReservations msg) (.raised "dictionary changed size during iteration")
  | rekeyed (msg : Msg) :
      Reads cfg cat (.listReservations msg) (.raised "dictionary keys changed during iteration")

inductive Answers (cfg : Service) (cat : Catalogue) : Demand → Behaviour → Attempt → Prop
  | silent (demand : Demand) (text : String) :
      Answers cfg cat demand (.silent text) (.noResponse text)
  | read (q : Query) (reply : Reply) (hr : Reads cfg cat q reply) :
      Answers cfg cat (.read q) .reads (.answered reply)
  | wrote (req : Request) (s s' : Node) (h : Thread) (es : List Node.Event) (resp : Response)
      (hc : req.IsClient) (he : exec (Node.step cfg) s (.receive h req :: es) = some s')
      (hd : s'.handlers h = some ⟨req, .done resp⟩) :
      Answers cfg cat (.write req) (.runs s h es) (.answered (.written resp))

/-- `msg.get("table_id")`. -/
def tableField : Request → Json
  | .book msg | .cancel msg => msg.get "table_id"
  | .applyReplication _ => .null

/-- The value can be hashed, and is no table of the restaurant. -/
def Unknown (cfg : Service) : Json → Prop
  | .list _ | .dict _ => False
  | .str t => t ∉ cfg.tables.keys
  | _ => True

/-- The branches on which a text from outside that mentions "unavailable" gets into an error
message. -/
inductive Misleads (cfg : Service) : Demand → Behaviour → Prop
  | unknownAction (action : Json) (hm : mentionsUnavailable (cfg.fstr action)) :
      Misleads cfg (.read (.unknown action)) .reads
  | unknownTable (req : Request) (s : Node) (h : Thread) (es : List Node.Event)
      (hu : Unknown cfg (tableField req)) (hm : mentionsUnavailable (cfg.fstr (tableField req))) :
      Misleads cfg (.write req) (.runs s h es)
  | slotTaken (msg : Msg) (s t : Node) (h : Thread) (es : List Node.Event)
      (ht : Node.Takes cfg s (.receive h (.book msg) :: es) h t .check)
      (htaken : t.reservations.get? ((Request.book msg).key cfg) ≠ none)
      (hm : mentionsUnavailable (cfg.fstr (msg.get "table_id")) ∨
        mentionsUnavailable (cfg.fstr (msg.get "timeslot"))) :
      Misleads cfg (.write (.book msg)) (.runs s h es)
  | raised (req : Request) (s t : Node) (h : Thread) (es : List Node.Event) (text : String)
      (ht : Node.Takes cfg s (.receive h req :: es) h t (.returned (.raised text)))
      (hm : mentionsUnavailable text) :
      Misleads cfg (.write req) (.runs s h es)

/-! ## Texts that mention the word -/

theorem mentionsUnavailable_iff (text : String) :
    mentionsUnavailable text ↔ "unavailable".toList <:+: text.toList := by
  simp only [mentionsUnavailable, List.any_eq_true, List.mem_tails, List.isPrefixOf_iff_prefix,
    List.infix_iff_prefix_suffix, and_comm]

theorem mentions_blank (x y : String) :
    mentionsUnavailable (x ++ " " ++ y) ↔ mentionsUnavailable x ∨ mentionsUnavailable y := by
  simp only [mentionsUnavailable_iff, String.toList_append]
  rw [List.append_assoc]
  exact Words.infix_append_cons_iff (by decide)

theorem mentions_before {a x : String} (b : String) (ha : a = " " ++ b) :
    mentionsUnavailable (x ++ a) ↔ mentionsUnavailable x ∨ mentionsUnavailable b := by
  rw [ha, ← String.append_assoc, mentions_blank]

theorem mentions_after {a x : String} (b : String) (ha : a = b ++ " ") :
    mentionsUnavailable (a ++ x) ↔ mentionsUnavailable b ∨ mentionsUnavailable x := by
  rw [ha, mentions_blank]

theorem mentions_unknownTable (x : String) :
    mentionsUnavailable ("Table " ++ x ++ " does not exist") ↔ mentionsUnavailable x := by
  have h₁ : mentionsUnavailable "Table" = false := by decide
  have h₂ : mentionsUnavailable "does not exist" = false := by decide
  rw [mentions_before (a := " does not exist") "does not exist" rfl,
    mentions_after (a := "Table ") "Table" rfl]
  simp [h₁, h₂]

theorem mentions_conflict (x y : String) :
    mentionsUnavailable ("Table " ++ x ++ " at " ++ y ++ " is already booked") ↔
      mentionsUnavailable x ∨ mentionsUnavailable y := by
  have hat : "Table " ++ x ++ " at " = "Table " ++ x ++ " at" ++ " " := by
    rw [show " at " = " at" ++ " " from rfl, ← String.append_assoc]
  have h₁ : mentionsUnavailable "Table" = false := by decide
  have h₂ : mentionsUnavailable "at" = false := by decide
  have h₃ : mentionsUnavailable "is already booked" = false := by decide
  rw [mentions_before (a := " is already booked") "is already booked" rfl, mentions_after _ hat,
    mentions_before (a := " at") "at" rfl, mentions_after (a := "Table ") "Table" rfl]
  simp [h₁, h₂, h₃]

theorem mentions_unknownAction (x : String) :
    mentionsUnavailable ("Unknown action: " ++ x) ↔ mentionsUnavailable x := by
  have h : mentionsUnavailable "Unknown action:" = false := by decide
  rw [mentions_after (a := "Unknown action: ") "Unknown action:" rfl]
  simp [h]

/-! ## Which answers mention it -/

variable {cfg : Service} {cat : Catalogue} {demand : Demand} {b : Behaviour} {reply : Reply}
  {req : Request} {resp : Response} {v : Json}

/-- The answer would be taken for a sign that the primary is down. -/
def LooksDown (reply : Reply) : Prop :=
  reply.status = .error ∧ mentionsUnavailable reply.message

theorem refuse_unknown (hu : Unknown cfg v) :
    cfg.refuse v = some (errorAnswer ("Table " ++ cfg.fstr v ++ " does not exist")) := by
  cases v with
  | list xs => exact hu.elim
  | dict fields => exact hu.elim
  | str t => exact if_neg hu
  | _ => rfl

theorem refuse_mentions (hr : cfg.refuse v = some resp) (hm : mentionsUnavailable resp.message) :
    Unknown cfg v ∧ mentionsUnavailable (cfg.fstr v) := by
  have hu : Unknown cfg v := by
    cases v with
    | list xs | dict fields =>
      obtain rfl := Option.some.inj hr
      exact absurd hm (by decide)
    | str t =>
      intro hmem
      simp [Service.refuse, hmem] at hr
    | _ => trivial
  rw [refuse_unknown hu] at hr
  obtain rfl := Option.some.inj hr
  exact ⟨hu, (mentions_unknownTable _).mp hm⟩

theorem precheck_eq (hc : req.IsClient) : cfg.precheck req = cfg.refuse (tableField req) := by
  cases req with
  | applyReplication msg => exact hc.elim
  | _ => rfl

section
variable {s s₀ s' t : Node} {h : Thread} {es : List Node.Event} {a : Action}

theorem takes_receive (hs : s.step cfg (.receive h req) = some s₀)
    (ht : Node.Takes cfg s (.receive h req :: es) h t a) : Node.Takes cfg s₀ es h t a := by
  obtain ⟨before, after, heq, he⟩ := ht
  cases before with
  | nil => simp at heq
  | cons e before =>
    obtain ⟨rfl, rfl⟩ := List.cons.inj heq
    simp only [exec, hs, Option.bind_some] at he
    exact ⟨before, after, rfl, he⟩

theorem takes_cons (hs : s.step cfg (.receive h req) = some s₀)
    (ht : Node.Takes cfg s₀ es h t a) : Node.Takes cfg s (.receive h req :: es) h t a := by
  obtain ⟨before, after, rfl, he⟩ := ht
  exact ⟨.receive h req :: before, after, rfl, by simp [exec, hs, he]⟩

theorem received (hs : s.step cfg (.receive h req) = some s₀) :
    ∃ p, s₀.handlers h = some ⟨req, p⟩ ∧ p.resp? = cfg.precheck req := by
  cases Node.step_spec hs with
  | receive h req hnew hadm => exact ⟨.received, Function.update_self .., hadm.symm⟩
  | refuse h req resp hnew hadm => exact ⟨.done resp, Function.update_self .., hadm.symm⟩

theorem decides_mentions (hd : Node.Decides cfg t req a resp) (herr : resp.status = .error)
    (hm : mentionsUnavailable resp.message)
    (ht : Node.Takes cfg s (.receive h req :: es) h t a) :
    Misleads cfg (.write req) (.runs s h es) := by
  cases hd with
  | lockTimeout => exact absurd hm (by decide)
  | conflict hno =>
    cases req with
    | book msg => exact .slotTaken msg s t h es ht hno ((mentions_conflict _ _).mp hm)
    | _ =>
      have hnot : ¬ mentionsUnavailable "No reservation found to cancel" := by decide
      exact absurd hm hnot
  | returned o ho =>
    cases o with
    | raised text => exact .raised req s t h es text ht hm
    | _ => exact absurd hm (by decide)
  | confirmed resp hok => simp [hok] at herr

theorem looksDown_run (hc : req.IsClient)
    (he : exec (Node.step cfg) s (.receive h req :: es) = some s')
    (hd : s'.handlers h = some ⟨req, .done resp⟩) :
    LooksDown (.written resp) ↔ Misleads cfg (.write req) (.runs s h es) := by
  simp only [exec, Option.bind_eq_some_iff] at he
  obtain ⟨s₀, hs₀, he⟩ := he
  obtain ⟨p, hp, hresp⟩ := received hs₀
  constructor
  · rintro ⟨herr, hm⟩
    cases hpre : cfg.precheck req with
    | some resp' =>
      have hkeep := Node.resp?_after hp (hresp.trans hpre) he hd
      obtain rfl := Option.some.inj hkeep
      rw [precheck_eq hc] at hpre
      obtain ⟨hu, hv⟩ := refuse_mentions hpre hm
      exact .unknownTable req s h es hu hv
    | none =>
      obtain ⟨t, a, ht, hdec⟩ := Node.decides_of_answer hc hp (hresp.trans hpre) he hd rfl
      exact decides_mentions hdec herr hm (takes_cons hs₀ ht)
  · intro hmis
    cases hmis with
    | unknownTable req s h es hu hm =>
      have hpre := (precheck_eq hc).trans (refuse_unknown hu)
      obtain rfl := Option.some.inj (Node.resp?_after hp (hresp.trans hpre) he hd)
      exact ⟨rfl, (mentions_unknownTable _).mpr hm⟩
    | slotTaken msg s t h es ht htaken hm =>
      obtain ⟨hcheck, -⟩ := Node.answer_of_step hc hp he hd rfl (takes_receive hs₀ ht)
      rw [hcheck rfl htaken]
      exact ⟨rfl, (mentions_conflict _ _).mpr hm⟩
    | raised req s t h es text ht hm =>
      obtain ⟨-, hraised⟩ := Node.answer_of_step hc hp he hd rfl (takes_receive hs₀ ht)
      rw [hraised text rfl]
      exact ⟨rfl, hm⟩

end

theorem offers_error {partySize : Json} {taken : TableId → Bool} {text : String}
    {tables : List (TableId × TableInfo)}
    (h : availableTables partySize taken tables = .error text) :
    mentionsUnavailable text = false := by
  induction tables with
  | nil => simp [availableTables] at h
  | cons e rest ih =>
    obtain ⟨t, table⟩ := e
    unfold availableTables at h
    cases hsmall : tooSmall table.capacity partySize with
    | error text' =>
      simp only [hsmall, Except.error.injEq] at h
      subst h
      rw [tooSmall_error hsmall]
      cases partySize <;> simp only [Json.typeName] <;> decide
    | ok small =>
      simp only [hsmall] at h
      cases small with
      | true => exact ih h
      | false =>
        split_ifs at h
        · exact ih h
        · cases hrest : availableTables partySize taken rest with
          | error text' =>
            simp only [hrest, Except.map, Except.error.injEq] at h
            exact ih (h ▸ hrest)
          | ok offers => simp [hrest, Except.map] at h

theorem looksDown_checkAvailability (msg : Msg) (taken : TableId → Bool) :
    ¬ LooksDown (cfg.checkAvailability msg taken) := by
  rintro ⟨herr, hm⟩
  unfold Service.checkAvailability at herr hm
  split at hm
  · simp [Reply.raised, Reply.message, errorAnswer, offers_error ‹_›] at hm
  · simp_all [Reply.status]

theorem looksDown_read {q : Query} (hr : Reads cfg cat q reply) :
    LooksDown reply ↔ Misleads cfg (.read q) .reads := by
  have hno (hq : ∀ action, q ≠ .unknown action) : ¬ Misleads cfg (.read q) .reads := by
    rintro ⟨action, -⟩
    exact hq action rfl
  cases hr with
  | available msg taken => exact iff_of_false (looksDown_checkAvailability msg taken) (hno nofun)
  | listed msg results => exact iff_of_false (by simp [LooksDown, Reply.status]) (hno nofun)
  | resized msg | rekeyed msg =>
    exact iff_of_false (fun h => absurd h.2 (by decide)) (hno nofun)
  | atOnce s q =>
    cases q with
    | unknown action =>
      constructor
      · exact fun h => .unknownAction action ((mentions_unknownAction _).mp h.2)
      · intro hmis
        cases hmis with
        | unknownAction _ hm => exact ⟨rfl, (mentions_unknownAction _).mpr hm⟩
    | getInfo =>
      refine iff_of_false ?_ (hno nofun)
      rintro ⟨herr, hm⟩
      simp only [Node.read, Service.getRestaurantInfo] at herr hm
      split at hm
      · exact absurd hm (by decide)
      · exact absurd hm (by decide)
      · simp_all [Reply.status]
    | checkAvailability msg =>
      exact iff_of_false (looksDown_checkAvailability msg _) (hno nofun)
    | listReservations msg =>
      refine iff_of_false ?_ (hno nofun)
      simp [LooksDown, Node.read, listReservations, Reply.status]

theorem looksDown_iff (ha : Answers cfg cat demand b (.answered reply)) :
    LooksDown reply ↔ Misleads cfg demand b := by
  cases ha with
  | read q reply hr => exact looksDown_read hr
  | wrote req s s' h es resp hc he hd => exact looksDown_run hc he hd

/-! ## The failover -/

section
variable {backupMap : Nat → Option Nat} {replicationHost host : String} {port : Nat}
  {net : Address → Attempt}

theorem exchange_of_none
    (h : failoverPort backupMap port (sendToService (net (host, port))) = none) :
    sendToServiceWithFailover backupMap replicationHost net host port =
      ⟨sendToService (net (host, port)), [(host, port)]⟩ := by
  simp only [sendToServiceWithFailover, h]

theorem contacted_iff {backupPort : Nat} :
    (sendToServiceWithFailover backupMap replicationHost net host port).contacted =
        [(host, port), (replicationHost, backupPort)] ↔
      failoverPort backupMap port (sendToService (net (host, port))) = some backupPort := by
  unfold sendToServiceWithFailover
  split <;> simp_all

theorem failoverPort_isSome :
    (∃ backupPort, failoverPort backupMap port reply = some backupPort) ↔
      LooksDown reply ∧ (backupMap port).isSome := by
  unfold failoverPort LooksDown
  split_ifs with h <;> simp [h, Option.isSome_iff_exists]

/-- The gateway goes by the text of the answer: its decision is right exactly when it has no
backup to ask, or when no text that the primary repeats misleads it. -/
theorem fails_over_rightly_iff (ha : Answers cfg cat demand b (net (host, port))) :
    FailsOverRightly backupMap replicationHost net host port ↔
      ¬ ((backupMap port).isSome ∧ Misleads cfg demand b) := by
  unfold FailsOverRightly
  simp only [contacted_iff, failoverPort_isSome]
  cases hnet : net (host, port) with
  | noResponse text =>
    rw [hnet] at ha
    have hdown : LooksDown (sendToService (.noResponse text)) :=
      ⟨rfl, System.mentionsUnavailable_unavailable text⟩
    have hmis : ¬ Misleads cfg demand b := by
      cases ha
      exact nofun
    simp [hdown, hmis]
  | answered reply =>
    rw [hnet] at ha
    have hsend : sendToService (.answered reply) = reply := rfl
    simp only [hsend, looksDown_iff ha, reduceCtorEq, exists_false, false_and, iff_false,
      Attempt.answered.injEq, forall_eq']
    constructor
    · exact fun h => fun hboth => h.1 hboth.symm
    · intro h
      have hnone : failoverPort backupMap port (sendToService (net (host, port))) = none := by
        rw [hnet, ← Option.not_isSome_iff_eq_none, Option.isSome_iff_exists, failoverPort_isSome,
          hsend, looksDown_iff ha, and_comm]
        exact h
      exact ⟨fun hboth => h hboth.symm, by rw [exchange_of_none hnone, hnet, hsend]⟩

end

/-- A network in which only the primary answers: what it says of a booking of table `t`. -/
def primaryOnly (t : String) (a : Address) : Attempt :=
  if a = ("127.0.0.1", 6001) then
    .answered (.written (errorAnswer ("Table " ++ t ++ " does not exist")))
  else .noResponse "[Errno 111] Connection refused"

theorem primaryOnly_answers (t : String) (ht : t ∉ urbanPlates.tables.keys) :
    Answers urbanPlates plainCatalogue (.write (.book (dinner t "Alice")))
      (.runs (.start urbanPlates false) (.client 0) []) (primaryOnly t ("127.0.0.1", 6001)) := by
  have hpre : urbanPlates.precheck (.book (dinner t "Alice")) =
      some (errorAnswer ("Table " ++ t ++ " does not exist")) := if_neg ht
  have hc : (Request.book (dinner t "Alice")).IsClient := trivial
  have hs := Node.Course.exec_eq (s := .start urbanPlates false) (h := .client 0) hc rfl
    (.refused _ hpre)
  exact .wrote _ _ _ _ _ _ hc hs (by simp [Node.after])

theorem fails_over_rightly_unknownTable :
    FailsOverRightly (fun _ => some 7001) "127.0.0.1" (primaryOnly "T9") "127.0.0.1" 6001 := by
  refine (fails_over_rightly_iff (primaryOnly_answers "T9" (by decide))).mpr ?_
  rintro ⟨-, hmis⟩
  cases hmis with
  | unknownTable _ _ _ _ _ hm => exact absurd hm (by decide)
  | slotTaken _ _ _ _ _ _ _ hm => exact absurd hm (by decide)
  | raised _ _ _ _ _ _ ht => simpa using ht.mem

/-- The primary has answered that there is no such table, and the backup is asked. -/
theorem fails_over_wrongly :
    Answers urbanPlates plainCatalogue (.write (.book (dinner "unavailable" "Alice")))
        (.runs (.start urbanPlates false) (.client 0) [])
        (primaryOnly "unavailable" ("127.0.0.1", 6001)) ∧
      ¬ FailsOverRightly (fun _ => some 7001) "127.0.0.1" (primaryOnly "unavailable")
        "127.0.0.1" 6001 := by
  refine ⟨primaryOnly_answers _ (by decide), fun h => ?_⟩
  have hpassed := h.2 _ rfl
  exact absurd (congrArg Exchange.contacted hpassed) (by decide)

end ReservationSystem.Gateway
