import Mathlib.Data.List.Basic

/-!
# Bytes and text

`bytes.decode("utf-8")`, and what it does with a text that is cut into pieces.
-/

namespace Utf8

variable {cs ds : List Char} {a b : ByteArray}

/-- `text.encode("utf-8")`. -/
def encode (cs : List Char) : ByteArray := (String.ofList cs).toByteArray

theorem encode_eq (cs : List Char) : encode cs = cs.utf8Encode := String.toByteArray_ofList

@[simp]
theorem encode_append : encode (cs ++ ds) = encode cs ++ encode ds := by
  simp only [encode_eq, List.utf8Encode_append]

@[simp]
theorem encode_eq_empty : encode cs = .empty ↔ cs = [] := by
  rw [encode_eq, List.utf8Encode_eq_empty]

/-- The text whose encoding is exactly these bytes, if there is one. -/
def decode (b : ByteArray) : Option (List Char) := b.utf8Decode?.map Array.toList

theorem decode_eq_some_iff : decode b = some cs ↔ b = encode cs := by
  rw [encode_eq]
  constructor
  · intro h
    obtain ⟨text, htext, rfl⟩ := Option.map_eq_some_iff.mp h
    have hsome : b.utf8Decode?.isSome := by rw [htext]; rfl
    have hget := ByteArray.utf8Encode_get_utf8Decode? (b := b) (h := hsome)
    simp only [htext, Option.get_some] at hget
    exact hget.symm
  · rintro rfl
    simp [decode]

theorem decode_append : decode (encode cs ++ b) = (decode b).map (cs ++ ·) := by
  rw [encode_eq]
  induction cs with
  | nil => simp
  | cons c cs ih =>
    rw [List.utf8Encode_cons, ByteArray.append_assoc, decode,
      ByteArray.utf8Decode?_utf8Encode_singleton_append]
    rw [decode] at ih
    cases h : (cs.utf8Encode ++ b).utf8Decode? <;> cases h' : decode b <;> simp_all

/-- A text whose encoding starts with that of `cs` starts with `cs`. -/
theorem encode_eq_append (h : encode ds = encode cs ++ b) :
    ∃ rest, ds = cs ++ rest ∧ b = encode rest := by
  have hd : decode (encode cs ++ b) = (decode b).map (cs ++ ·) := decode_append
  rw [← h, decode_eq_some_iff.mpr rfl, eq_comm, Option.map_eq_some_iff] at hd
  obtain ⟨rest, hrest, heq⟩ := hd
  exact ⟨rest, heq.symm, decode_eq_some_iff.mp hrest⟩

/-! ## Bytes of characters -/

theorem toByte_of_ascii {c : Char} (h : c.toNat < 128) :
    String.utf8EncodeChar c = [UInt8.ofNat c.toNat] := by
  have hv : c.val.toNat ≤ 127 := Nat.le_of_lt_succ h
  simp only [String.utf8EncodeChar, hv, if_true]
  rfl

theorem encode_ascii (h : ∀ c ∈ cs, c.toNat < 128) :
    encode cs = (cs.map fun c => UInt8.ofNat c.toNat).toByteArray := by
  have heq : cs.flatMap String.utf8EncodeChar = cs.map fun c => UInt8.ofNat c.toNat := by
    induction cs with
    | nil => rfl
    | cons c cs ih =>
      rw [List.flatMap_cons, toByte_of_ascii (h c List.mem_cons_self),
        ih fun c' hc' => h c' (List.mem_cons_of_mem c hc'), List.map_cons, List.singleton_append]
  rw [encode_eq, List.utf8Encode, heq]

/-- An ASCII text can be cut anywhere. -/
theorem ascii_eq_append (hcs : ∀ c ∈ cs, c.toNat < 128) (h : a ++ b = encode cs) :
    ∃ as bs, cs = as ++ bs ∧ a = encode as ∧ b = encode bs := by
  rw [encode_ascii hcs] at h
  have hl : a.data.toList ++ b.data.toList = cs.map fun c => UInt8.ofNat c.toNat := by
    have := congrArg (fun x : ByteArray => x.data.toList) h
    simpa using this
  obtain ⟨as, bs, rfl, ha, hb⟩ := List.append_eq_map_iff.mp hl
  refine ⟨as, bs, rfl, ?_, ?_⟩
  · rw [encode_ascii fun c hc => hcs c (List.mem_append_left bs hc), ha]
    exact ByteArray.ext (by simp)
  · rw [encode_ascii fun c hc => hcs c (List.mem_append_right as hc), hb]
    exact ByteArray.ext (by simp)

/-- The newline. -/
def newline : UInt8 := 10

theorem newline_eq_ofNat {n : Nat} (h : newline = UInt8.ofNat n) : n % 256 = 10 := by
  have := congrArg UInt8.toNat h
  rw [UInt8.toNat_ofNat'] at this
  exact this.symm

/-- Its byte occurs in no other character. -/
theorem newline_mem_utf8EncodeChar {c : Char} :
    newline ∈ String.utf8EncodeChar c ↔ c = '\n' := by
  constructor
  · intro h
    by_cases hc : c.toNat < 128
    · rw [toByte_of_ascii hc, List.mem_singleton] at h
      have hn : c.toNat = 10 := (Nat.mod_eq_of_lt (by omega)).symm.trans (newline_eq_ofNat h)
      exact Char.ext (UInt32.toNat_inj.mp hn)
    · have hv : ¬ c.val.toNat ≤ 127 := fun h => hc (Nat.lt_succ_of_le h)
      simp only [String.utf8EncodeChar, hv, if_false] at h
      -- All bytes of such a character are 128 or more.
      split_ifs at h <;> simp only [List.mem_cons, List.not_mem_nil, or_false] at h
      · rcases h with h | h <;> have := newline_eq_ofNat h <;> omega
      · rcases h with h | h | h <;> have := newline_eq_ofNat h <;> omega
      · rcases h with h | h | h | h <;> have := newline_eq_ofNat h <;> omega
  · rintro rfl
    decide

theorem newline_mem_encode : newline ∈ (encode cs).data ↔ '\n' ∈ cs := by
  rw [encode_eq, List.utf8Encode, List.data_toByteArray, List.mem_toArray, List.mem_flatMap]
  simp only [newline_mem_utf8EncodeChar, exists_eq_right]

end Utf8
