import Mathlib.Tactic.IntervalCases
import ComponentAtlas.Text.Utf8

/-!
Text that was written is read back: the bytes of a character begin none but that character.
-/

namespace ComponentAtlas.Text

section Bytes

/-- With `left` bytes to go the loop adds those from place `i` on. -/
theorem toList_loop (bytes : ByteArray) (left i : ℕ) (h : i + left = bytes.size)
    (seen : List UInt8) :
    ByteArray.toList.loop bytes i seen = seen.reverse ++ bytes.data.toList.drop i := by
  have size : bytes.data.toList.length = bytes.size := rfl
  induction left generalizing i seen with
  | zero =>
      rw [ByteArray.toList.loop, if_neg (by omega), List.drop_eq_nil_of_le (by omega),
        List.append_nil]
  | succ left ih =>
      have inside : i < bytes.data.toList.length := by omega
      have byte : bytes.get! i = bytes.data.toList[i] := getElem!_pos bytes.data i inside
      rw [ByteArray.toList.loop, if_pos (size ▸ inside), ih (i + 1) (by omega),
        List.drop_eq_getElem_cons inside, byte, List.reverse_cons, List.append_assoc]
      rfl

theorem encodeUtf8_eq (s : String) : encodeUtf8 s = s.toList.flatMap String.utf8EncodeChar := by
  have bytes : s.toUTF8 = (s.toList.flatMap String.utf8EncodeChar).toByteArray := by
    conv_lhs => rw [← String.ofList_toList (s := s)]
    rfl
  rw [encodeUtf8, ByteArray.toList, toList_loop _ _ 0 (Nat.zero_add _), bytes,
    List.toList_data_toByteArray]
  rfl

end Bytes

section Characters

variable {v : ℕ} (position : ℕ) (done : List Char) (rest : List UInt8)

/-- A continuation byte adds six bits. -/
theorem complete_cons {seen value low high more n : ℕ} (above : low ≤ n) (below : n ≤ high)
    (small : n < 256) :
    complete seen value low high (more + 1) (UInt8.ofNat n :: rest) =
      complete (seen + 1) (value * 64 + n % 64) 0x80 0xBF more rest := by
  rw [complete]
  simp only [UInt8.toNat_ofNat_of_lt' small, above, below, decide_true, Bool.and_self, if_true]

theorem decodeFrom_one (h : v < 0x80) :
    decodeFrom position done (UInt8.ofNat v :: rest) =
      decodeFrom (position + 1) (Char.ofNat v :: done) rest := by
  rw [decodeFrom, UInt8.toNat_ofNat_of_lt' (h.trans (by decide)), if_pos h]

/-- A first byte takes as many bytes as it asks for. -/
theorem decodeFrom_lead {n more low high bits code : ℕ} (first : 0x80 ≤ n) (small : n < 256)
    (asks : lead? n = some ⟨more, low, high, bits⟩)
    (completed : complete 1 bits low high more rest = .ok code) :
    decodeFrom position done (UInt8.ofNat n :: rest) =
      decodeFrom (position + 1 + more) (Char.ofNat code :: done) (rest.drop more) := by
  rw [decodeFrom, UInt8.toNat_ofNat_of_lt' small, if_neg (by omega), asks]
  simp only [completed]

theorem lead?_two {k : ℕ} (low : 2 ≤ k) (high : k < 32) :
    lead? (k + 0xc0) = some ⟨1, 0x80, 0xBF, k⟩ := by
  interval_cases k <;> rfl

theorem lead?_three {k : ℕ} (high : k < 16) :
    lead? (k + 0xe0) =
      some ⟨2, if k = 0 then 0xA0 else 0x80, if k = 13 then 0x9F else 0xBF, k⟩ := by
  interval_cases k <;> rfl

theorem lead?_four {k : ℕ} (high : k < 5) :
    lead? (k + 0xf0) =
      some ⟨3, if k = 0 then 0x90 else 0x80, if k = 4 then 0x8F else 0xBF, k⟩ := by
  interval_cases k <;> rfl

theorem decodeFrom_two (low : 0x80 ≤ v) (high : v < 0x800) :
    decodeFrom position done
        (UInt8.ofNat (v / 64 % 0x20 + 0xc0) :: UInt8.ofNat (v % 0x40 + 0x80) :: rest) =
      decodeFrom (position + 2) (Char.ofNat v :: done) rest := by
  rw [Nat.mod_eq_of_lt (show v / 64 < 0x20 by omega)]
  have asks := lead?_two (show 2 ≤ v / 64 by omega) (by omega)
  refine decodeFrom_lead position done _ (by omega) (by omega) asks ?_
  rw [complete_cons _ (by omega) (by omega) (by omega), complete]
  congr 1
  omega

/-- The bounds of the second byte rule out the values of two bytes and those that stand for no
character. -/
theorem decodeFrom_three (low : 0x800 ≤ v) (high : v < 0x10000)
    (scalar : v < 0xd800 ∨ 0xdfff < v) :
    decodeFrom position done
        (UInt8.ofNat (v / 4096 % 0x10 + 0xe0) :: UInt8.ofNat (v / 64 % 0x40 + 0x80) ::
          UInt8.ofNat (v % 0x40 + 0x80) :: rest) =
      decodeFrom (position + 3) (Char.ofNat v :: done) rest := by
  rw [Nat.mod_eq_of_lt (show v / 4096 < 0x10 by omega)]
  have asks := lead?_three (show v / 4096 < 16 by omega)
  have above : (if v / 4096 = 0 then 0xA0 else 0x80) ≤ v / 64 % 0x40 + 0x80 := by
    split <;> omega
  have below : v / 64 % 0x40 + 0x80 ≤ if v / 4096 = 13 then 0x9F else 0xBF := by
    split <;> omega
  refine decodeFrom_lead position done _ (by omega) (by omega) asks ?_
  rw [complete_cons _ above below (by omega), complete_cons _ (by omega) (by omega) (by omega),
    complete]
  congr 1
  omega

theorem decodeFrom_four (low : 0x10000 ≤ v) (high : v < 0x110000) :
    decodeFrom position done
        (UInt8.ofNat (v / 262144 % 0x08 + 0xf0) :: UInt8.ofNat (v / 4096 % 0x40 + 0x80) ::
          UInt8.ofNat (v / 64 % 0x40 + 0x80) :: UInt8.ofNat (v % 0x40 + 0x80) :: rest) =
      decodeFrom (position + 4) (Char.ofNat v :: done) rest := by
  rw [Nat.mod_eq_of_lt (show v / 262144 < 0x08 by omega)]
  have asks := lead?_four (show v / 262144 < 5 by omega)
  have above : (if v / 262144 = 0 then 0x90 else 0x80) ≤ v / 4096 % 0x40 + 0x80 := by
    split <;> omega
  have below : v / 4096 % 0x40 + 0x80 ≤ if v / 262144 = 4 then 0x8F else 0xBF := by
    split <;> omega
  refine decodeFrom_lead position done _ (by omega) (by omega) asks ?_
  rw [complete_cons _ above below (by omega), complete_cons _ (by omega) (by omega) (by omega),
    complete_cons _ (by omega) (by omega) (by omega), complete]
  congr 1
  omega

theorem decodeFrom_character (c : Char) : ∃ next,
    decodeFrom position done (String.utf8EncodeChar c ++ rest) =
      decodeFrom next (c :: done) rest := by
  have scalar : c.toNat < 0xd800 ∨ 0xdfff < c.toNat ∧ c.toNat < 0x110000 := c.valid
  have code : c.val.toNat = c.toNat := rfl
  have same : Char.ofNat c.toNat = c := Char.ofNat_toNat c
  unfold String.utf8EncodeChar
  dsimp only
  rw [code]
  split
  · have read := decodeFrom_one position done rest (show c.toNat < 0x80 by omega)
    exact ⟨_, same ▸ read⟩
  · split
    · have read := decodeFrom_two position done rest (show 0x80 ≤ c.toNat by omega) (by omega)
      exact ⟨_, same ▸ read⟩
    · split
      · have read := decodeFrom_three position done rest (show 0x800 ≤ c.toNat by omega) (by omega)
          (by omega)
        exact ⟨_, same ▸ read⟩
      · have read := decodeFrom_four position done rest (show 0x10000 ≤ c.toNat by omega) (by omega)
        exact ⟨_, same ▸ read⟩

end Characters

theorem decodeFrom_characters (position : ℕ) (done cs : List Char) :
    decodeFrom position done (cs.flatMap String.utf8EncodeChar) = .ok (done.reverse ++ cs) := by
  induction cs generalizing position done with
  | nil => rw [List.flatMap_nil, decodeFrom, List.append_nil]
  | cons c cs ih =>
      rw [List.flatMap_cons]
      obtain ⟨next, read⟩ := decodeFrom_character position done (cs.flatMap String.utf8EncodeChar) c
      rw [read, ih, List.reverse_cons, List.append_assoc]
      rfl

/-- A text that was written is read back. -/
theorem decodeUtf8_encodeUtf8 (s : String) : decodeUtf8 (encodeUtf8 s) = .ok s.toList := by
  rw [encodeUtf8_eq, decodeUtf8, decodeFrom_characters]
  rfl

end ComponentAtlas.Text
