import ReservationSystem.Lib.Utf8
import ReservationSystem.Message

/-!
# Messages on a socket

`common/protocol.py`: a message is one JSON object and a newline. TCP cuts the bytes into
chunks as it likes, and `receiveMessage` decodes each chunk on its own.
-/

namespace ReservationSystem.Protocol

open Utf8

/-- Python's `json` module. -/
structure JsonModule where
  dumps : Json → List Char
  loads : List Char → Option Json

/-- What its documentation says of the value `m`: `dumps` writes printable ASCII, and `loads`
reads it back. -/
structure JsonModule.Documented (json : JsonModule) (m : Json) : Prop where
  ascii : ∀ c ∈ json.dumps m, ' ' ≤ c ∧ c ≤ '~'
  loads_dumps : json.loads (json.dumps m) = some m

/-- How `receiveMessage` ends: it returns a message or raises. -/
inductive Received
  | message (m : Json)
  | connectionError
  | unicodeDecodeError
  | jsonDecodeError

variable (json : JsonModule)

/-- `sendMessage`: the bytes that `sendall` is given. -/
def sendMessage (m : Json) : ByteArray := encode (json.dumps m ++ ['\n'])

/-- `json.loads` of the first line of the buffer. -/
def parseLine (buffer : List Char) : Received :=
  match json.loads (buffer.takeWhile (· ≠ '\n')) with
  | some m => .message m
  | none => .jsonDecodeError

/-- The loop of `receiveMessage`. Each `recv` takes the next chunk, of any length, and nothing
when there is none left: the other side has closed the connection. -/
def receiveLoop : List ByteArray → List Char → Received
  | [], buffer => if '\n' ∈ buffer then parseLine json buffer else .connectionError
  | chunk :: chunks, buffer =>
    if '\n' ∈ buffer then parseLine json buffer
    else
      match decode chunk with
      | none => .unicodeDecodeError
      | some [] => .connectionError
      | some text => receiveLoop chunks (buffer ++ text)

/-- `receiveMessage`, on a socket that delivers these chunks. -/
def receiveMessage (chunks : List ByteArray) : Received := receiveLoop json chunks []

def joined : List ByteArray → ByteArray
  | [] => .empty
  | chunk :: chunks => chunk ++ joined chunks

/-- Every chunk that is read holds whole characters: no boundary up to the end of the chunk
with the first newline falls inside one. -/
def WholeCharacters (chunks : List ByteArray) : Prop :=
  ∀ before chunk rest, chunks = before ++ chunk :: rest → (∀ b ∈ before, newline ∉ b.data) →
    (decode chunk).isSome

variable {json} {chunks : List ByteArray} {chunk : ByteArray} {buffer cs line rest : List Char}
  {m : Json}

/-! ## The loop -/

theorem wholeCharacters_cons :
    WholeCharacters (chunk :: chunks) ↔
      ∃ text, decode chunk = some text ∧ ('\n' ∉ text → WholeCharacters chunks) := by
  constructor
  · intro h
    obtain ⟨text, htext⟩ := Option.isSome_iff_exists.mp (h [] chunk chunks rfl (by simp))
    refine ⟨text, htext, fun hn before c rest heq hb => ?_⟩
    refine h (chunk :: before) c rest (by rw [heq]; rfl) ?_
    rw [decode_eq_some_iff.mp htext] at *
    simpa [newline_mem_encode, hn] using hb
  · rintro ⟨text, htext, h⟩ before c rest heq hb
    cases before with
    | nil =>
      obtain ⟨rfl, -⟩ := List.cons.inj heq
      exact Option.isSome_of_eq_some htext
    | cons b before =>
      obtain ⟨rfl, heq'⟩ := List.cons.inj heq
      have hn : '\n' ∉ text := by
        have := hb _ List.mem_cons_self
        rwa [decode_eq_some_iff.mp htext, newline_mem_encode] at this
      exact h hn before c rest heq' fun b hmem => hb b (List.mem_cons_of_mem _ hmem)

theorem takeWhile_line (hline : '\n' ∉ line) :
    (line ++ '\n' :: rest).takeWhile (· ≠ '\n') = line := by
  rw [List.takeWhile_append_of_pos]
  · simp
  · intro c hc
    simpa using fun h : c = '\n' => hline (h ▸ hc)

theorem parseLine_eq (hline : '\n' ∉ line) (hm : json.loads line = some m) (hn : '\n' ∈ buffer)
    (htext : buffer ++ cs = line ++ '\n' :: rest) : parseLine json buffer = .message m := by
  obtain ⟨l, r, rfl, hl⟩ := List.eq_append_cons_of_mem hn
  have heq := congrArg (List.takeWhile (· ≠ '\n')) htext
  rw [List.append_assoc, List.cons_append, takeWhile_line hl, takeWhile_line hline] at heq
  rw [parseLine, takeWhile_line hl, heq, hm]

theorem receiveLoop_done (hn : '\n' ∈ buffer) :
    receiveLoop json chunks buffer = parseLine json buffer := by
  cases chunks <;> rw [receiveLoop, if_pos hn]

/-- The loop finds the line exactly when no chunk that it reads ends inside a character. -/
theorem receiveLoop_iff (hline : '\n' ∉ line) (hm : json.loads line = some m)
    (hchunks : ∀ c ∈ chunks, c ≠ .empty) (hcs : joined chunks = encode cs)
    (hbuffer : '\n' ∉ buffer) (htext : buffer ++ cs = line ++ '\n' :: rest) :
    receiveLoop json chunks buffer = .message m ↔ WholeCharacters chunks := by
  induction chunks generalizing buffer cs with
  | nil =>
    obtain rfl : cs = [] := encode_eq_empty.mp hcs.symm
    rw [List.append_nil] at htext
    exact absurd (htext ▸ by simp) hbuffer
  | cons chunk chunks ih =>
    rw [wholeCharacters_cons, receiveLoop, if_neg hbuffer]
    cases hdec : decode chunk with
    | none => simp
    | some text =>
      have hne : text ≠ [] := by
        rintro rfl
        exact hchunks chunk List.mem_cons_self (decode_eq_some_iff.mp hdec)
      rw [joined, decode_eq_some_iff.mp hdec] at hcs
      obtain ⟨cs', rfl, hcs'⟩ := encode_eq_append hcs.symm
      rw [← List.append_assoc] at htext
      have hstep : receiveLoop json chunks (buffer ++ text) = .message m ↔
          ('\n' ∉ text → WholeCharacters chunks) := by
        by_cases hn : '\n' ∈ text
        · have hmem : '\n' ∈ buffer ++ text := List.mem_append_right buffer hn
          simp [receiveLoop_done hmem, parseLine_eq hline hm hmem htext, hn]
        · rw [ih (fun c hc => hchunks c (List.mem_cons_of_mem chunk hc)) hcs'
            (by simp [hbuffer, hn]) htext]
          simp [hn]
      cases text with
      | nil => exact absurd rfl hne
      | cons c text => simpa using hstep

/-- A stream of whole characters whose first line is the JSON value `m`. -/
def Stream (json : JsonModule) (stream : ByteArray) (m : Json) : Prop :=
  ∃ line rest, decode stream = some (line ++ '\n' :: rest) ∧ '\n' ∉ line ∧
    json.loads line = some m

theorem receiveMessage_iff {stream : ByteArray} (hs : Stream json stream m)
    (hchunks : ∀ c ∈ chunks, c ≠ .empty) (hjoin : joined chunks = stream) :
    receiveMessage json chunks = .message m ↔ WholeCharacters chunks := by
  obtain ⟨line, rest, hcs, hline, hm⟩ := hs
  exact receiveLoop_iff hline hm hchunks (hjoin.trans (decode_eq_some_iff.mp hcs)) (by simp) rfl

/-! ## Any segmentation of raw UTF-8 -/

/-- Two ways to cut a stream both give its first line, exactly when neither of them cuts a
character of a chunk that is read. -/
theorem received_iff_whole {stream : ByteArray} {chunks₁ chunks₂ : List ByteArray}
    (hs : Stream json stream m)
    (hchunks₁ : ∀ c ∈ chunks₁, c ≠ .empty) (hjoin₁ : joined chunks₁ = stream)
    (hchunks₂ : ∀ c ∈ chunks₂, c ≠ .empty) (hjoin₂ : joined chunks₂ = stream) :
    (receiveMessage json chunks₁ = .message m ∧ receiveMessage json chunks₂ = .message m) ↔
      WholeCharacters chunks₁ ∧ WholeCharacters chunks₂ := by
  rw [receiveMessage_iff hs hchunks₁ hjoin₁, receiveMessage_iff hs hchunks₂ hjoin₂]

/-! ## What `sendMessage` writes -/

theorem ascii_lt {c : Char} (h : c ≤ '~') : c.toNat < 128 :=
  Nat.lt_of_le_of_lt (Char.le_def.mp h) (by decide)

theorem newline_not_mem_dumps (hd : json.Documented m) : '\n' ∉ json.dumps m :=
  fun h => absurd (hd.ascii _ h).1 (by decide)

theorem sent_ascii {ms : List Json} (hd : ∀ m ∈ ms, json.Documented m) :
    ∀ c ∈ ms.flatMap fun m => json.dumps m ++ ['\n'], c.toNat < 128 := by
  intro c hc
  obtain ⟨m, hm, hc⟩ := List.mem_flatMap.mp hc
  rcases List.mem_append.mp hc with hc | hc
  · exact ascii_lt ((hd m hm).ascii c hc).2
  · rw [List.mem_singleton.mp hc]
    decide

theorem joined_encode {α : Type*} (text : α → List Char) (l : List α) :
    joined (l.map fun x => encode (text x)) = encode (l.flatMap text) := by
  induction l with
  | nil => rfl
  | cons x l ih => rw [List.map_cons, joined, ih, List.flatMap_cons, encode_append]

theorem joined_sendMessage (ms : List Json) :
    joined (ms.map (sendMessage json)) = encode (ms.flatMap fun m => json.dumps m ++ ['\n']) :=
  joined_encode _ ms

theorem wholeCharacters_of_ascii (hcs : ∀ c ∈ cs, c.toNat < 128)
    (h : joined chunks = encode cs) : WholeCharacters chunks := by
  induction chunks generalizing cs with
  | nil => exact fun before chunk rest heq => absurd heq (by simp)
  | cons chunk chunks ih =>
    obtain ⟨as, bs, rfl, ha, hb⟩ := ascii_eq_append hcs h
    exact wholeCharacters_cons.mpr ⟨as, decode_eq_some_iff.mpr ha, fun _ =>
      ih (fun c hc => hcs c (List.mem_append_right as hc)) hb⟩

theorem receiveLoop_closed (hcs : ∀ c ∈ cs, c.toNat < 128) (hn : '\n' ∉ cs)
    (h : joined chunks = encode cs) (hbuffer : '\n' ∉ buffer) :
    receiveLoop json chunks buffer = .connectionError := by
  induction chunks generalizing cs buffer with
  | nil => rw [receiveLoop, if_neg hbuffer]
  | cons chunk chunks ih =>
    obtain ⟨as, bs, rfl, ha, hb⟩ := ascii_eq_append hcs h
    rw [List.mem_append, not_or] at hn
    rw [receiveLoop, if_neg hbuffer, decode_eq_some_iff.mpr ha]
    cases as with
    | nil => rfl
    | cons a as =>
      exact ih (fun c hc => hcs c (List.mem_append_right _ hc)) hn.2 hb (by simp_all)

/-- What `sendMessage` writes, `receiveMessage` reads, however TCP cuts it and whatever is sent
next. If the connection closes before the newline, it raises `ConnectionError`. -/
theorem framing_round_trip {ms : List Json} (hd : ∀ x ∈ m :: ms, json.Documented x) :
    (∀ chunks, (∀ c ∈ chunks, c ≠ .empty) →
      joined chunks = joined ((m :: ms).map (sendMessage json)) →
        receiveMessage json chunks = .message m) ∧
    ∀ chunks rest, rest ≠ .empty → joined chunks ++ rest = sendMessage json m →
      receiveMessage json chunks = .connectionError := by
  have hm := hd m List.mem_cons_self
  constructor
  · intro chunks hchunks hjoin
    rw [joined_sendMessage] at hjoin
    have htext : [] ++ (m :: ms).flatMap (fun m => json.dumps m ++ ['\n']) =
        json.dumps m ++ '\n' :: ms.flatMap fun m => json.dumps m ++ ['\n'] := by
      rw [List.nil_append, List.flatMap_cons, List.append_assoc, List.singleton_append]
    exact (receiveLoop_iff (newline_not_mem_dumps hm) hm.loads_dumps hchunks hjoin (by simp)
      htext).mpr (wholeCharacters_of_ascii (sent_ascii hd) hjoin)
  · intro chunks rest hrest hjoin
    have hsent : ∀ c ∈ [m].flatMap fun m => json.dumps m ++ ['\n'], c.toNat < 128 :=
      sent_ascii (by simpa using hm)
    have hascii : ∀ c ∈ json.dumps m ++ ['\n'], c.toNat < 128 := by simpa using hsent
    rw [sendMessage] at hjoin
    obtain ⟨as, bs, heq, ha, hb⟩ := ascii_eq_append hascii hjoin
    obtain rfl | ⟨bs', c, rfl⟩ := List.eq_nil_or_concat bs
    · exact absurd hb hrest
    · -- What has come is a part of the line.
      rw [List.concat_eq_append, ← List.append_assoc] at heq
      obtain ⟨hline, -⟩ := List.append_inj' heq rfl
      refine receiveLoop_closed (fun c hc => hascii c ?_) (fun hn => ?_) ha (by simp)
      · exact List.mem_append_left _ (hline ▸ List.mem_append_left bs' hc)
      · exact newline_not_mem_dumps hm (hline ▸ List.mem_append_left bs' hn)

/-! ## A message to try things on -/

def pong : Json := .dict [("status", .str "ok"), ("note", .str "é\n")]

/-- The text of `pong` up to its `é` and after it. -/
def pongStart : List Char := "\x7b\"status\": \"ok\", \"note\": \"".toList
def pongEnd : List Char := "\\n\"\x7d".toList

/-- The `json` module on `pong`: `dumps` escapes the `é`, and `loads` takes it raw as well. -/
def pongJson : JsonModule where
  dumps _ := pongStart ++ "\\u00e9".toList ++ pongEnd
  loads text :=
    if text = pongStart ++ "\\u00e9".toList ++ pongEnd ∨ text = pongStart ++ 'é' :: pongEnd then
      some pong
    else none

theorem pongStart_ne : pongStart ≠ [] := by decide

theorem pong_documented : pongJson.Documented pong where
  ascii c hc := by
    have hall : (pongJson.dumps pong).all (fun c => ' ' ≤ c && c ≤ '~') = true := by decide
    simpa using List.all_eq_true.mp hall c hc
  loads_dumps := rfl

theorem framing_round_trip_pong :
    receiveMessage pongJson [encode pongStart, encode ("\\u00e9".toList ++ pongEnd),
      encode ['\n'], sendMessage pongJson pong] = .message pong := by
  have hd : ∀ m ∈ [pong, pong], pongJson.Documented m := by simp [pong_documented]
  refine (framing_round_trip hd).1 _ (by simp [sendMessage, pongStart_ne]) ?_
  simp only [joined, List.map_cons, List.map_nil, sendMessage, pongJson, encode_append,
    ByteArray.append_assoc]

/-- `pong` with its `é` written raw. -/
def rawPong : List Char := pongStart ++ 'é' :: pongEnd ++ ['\n']

theorem rawPong_stream : Stream pongJson (encode rawPong) pong := by
  refine ⟨pongStart ++ 'é' :: pongEnd, [], decode_eq_some_iff.mpr rfl, ?_, rfl⟩
  decide

theorem wholeCharacters_encode (texts : List (List Char)) :
    WholeCharacters (texts.map encode) := by
  rintro before chunk rest heq -
  have hmem : chunk ∈ texts.map encode := by simp [heq]
  obtain ⟨text, -, rfl⟩ := List.mem_map.mp hmem
  exact Option.isSome_of_eq_some (decode_eq_some_iff.mpr rfl)

theorem received_iff_whole_rawPong :
    (WholeCharacters [encode rawPong] ∧
        WholeCharacters [encode pongStart, encode ('é' :: pongEnd ++ ['\n'])]) ∧
      receiveMessage pongJson [encode rawPong] = .message pong ∧
        receiveMessage pongJson [encode pongStart, encode ('é' :: pongEnd ++ ['\n'])] =
          .message pong := by
  have hwhole : WholeCharacters [encode rawPong] ∧
      WholeCharacters [encode pongStart, encode ('é' :: pongEnd ++ ['\n'])] :=
    ⟨wholeCharacters_encode [rawPong],
      wholeCharacters_encode [pongStart, 'é' :: pongEnd ++ ['\n']]⟩
  refine ⟨hwhole, (received_iff_whole rawPong_stream ?_ ?_ ?_ ?_).mpr hwhole⟩
  · simp [rawPong]
  · simp [joined]
  · simp [pongStart_ne]
  · simp [joined, rawPong, ← encode_append]

/-- The same stream, cut between the two bytes of its `é`. -/
def cutPong : List ByteArray :=
  [encode pongStart ++ [0xC3].toByteArray, [0xA9].toByteArray ++ encode (pongEnd ++ ['\n'])]

theorem joined_cutPong : joined cutPong = encode rawPong := by
  have heq : [0xC3].toByteArray ++ [0xA9].toByteArray = encode ['é'] := rfl
  rw [cutPong, joined, joined, joined, ByteArray.append_empty, ByteArray.append_assoc,
    ← ByteArray.append_assoc (a := [0xC3].toByteArray), heq, ← encode_append, ← encode_append]
  simp [rawPong]

theorem not_received : ¬ ∀ (json : JsonModule) (stream : ByteArray) (m : Json)
    (chunks₁ chunks₂ : List ByteArray), Stream json stream m →
      (∀ c ∈ chunks₁, c ≠ .empty) → joined chunks₁ = stream →
        (∀ c ∈ chunks₂, c ≠ .empty) → joined chunks₂ = stream →
          receiveMessage json chunks₁ = .message m ∧ receiveMessage json chunks₂ = .message m := by
  intro h
  obtain ⟨-, h⟩ := h pongJson (encode rawPong) pong [encode rawPong] cutPong rawPong_stream
    (by simp [rawPong]) (by simp [joined]) (by decide) joined_cutPong
  have hnone : decode (encode pongStart ++ [0xC3].toByteArray) = none := by
    rw [decode_append, show decode [0xC3].toByteArray = none from by decide]
    rfl
  rw [receiveMessage, cutPong, receiveLoop, if_neg (by simp), hnone] at h
  simp at h

end ReservationSystem.Protocol
