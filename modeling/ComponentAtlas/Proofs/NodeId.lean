import Mathlib.Data.Int.ModEq
import Mathlib.Tactic.Ring
import ComponentAtlas.Proofs.Text.Pieces
import ComponentAtlas.Source.Basic

/-!
When two declarations have one id. The digits of a hash read back as the number that they write,
and none of them is an underscore, so an id tells its name and its hash apart. The hash of a path
is its polynomial in thirty-one up to multiples of the word size and up to sign, and no more of
the path than that can be told from an id.
-/

namespace ComponentAtlas

open Text

section Digits

def base36Value (c : Char) : Nat := if c.toNat < 58 then c.toNat - 48 else c.toNat - 87

theorem base36Value_base36Digit {n : Nat} (h : n < 36) : base36Value (base36Digit n) = n := by
  have all : ∀ m ∈ List.range 36, base36Value (base36Digit m) = m := by decide
  exact all n (List.mem_range.mpr h)

theorem base36Digit_ne_underscore {n : Nat} (h : n < 36) : base36Digit n ≠ '_' := by
  have all : ∀ m ∈ List.range 36, base36Digit m ≠ '_' := by decide
  exact all n (List.mem_range.mpr h)

/-- Digits read from the left, after a number already read. -/
def readBase36 (n : Nat) (digits : List Char) : Nat :=
  digits.foldl (fun n c => 36 * n + base36Value c) n

theorem readBase36_base36Onto (n : Nat) (digits : List Char) :
    readBase36 0 (base36Onto n digits) = readBase36 n digits := by
  fun_induction base36Onto n digits with
  | case1 n digits small =>
      simp [readBase36, base36Value_base36Digit small]
  | case2 n digits large ih =>
      have digit : n % 36 < 36 := Nat.mod_lt _ (by decide)
      rw [ih, readBase36, List.foldl_cons, base36Value_base36Digit digit, Nat.div_add_mod,
        readBase36]

theorem base36Onto_no_underscore (n : Nat) (digits : List Char) (h : '_' ∉ digits) :
    '_' ∉ base36Onto n digits := by
  fun_induction base36Onto n digits with
  | case1 n digits small =>
      exact List.not_mem_cons_of_ne_of_not_mem (base36Digit_ne_underscore small).symm h
  | case2 n digits large ih =>
      have digit : n % 36 < 36 := Nat.mod_lt _ (by decide)
      exact ih (List.not_mem_cons_of_ne_of_not_mem (base36Digit_ne_underscore digit).symm h)

theorem base36_inj {m n : Nat} (h : base36 m = base36 n) : m = n := by
  have digits : base36Onto m [] = base36Onto n [] := String.ofList_injective h
  have values := congrArg (readBase36 0) digits
  rw [readBase36_base36Onto, readBase36_base36Onto] at values
  exact values

/-- The digits of base thirty-six in the order of their values. -/
def base36Digits : List Char := "0123456789abcdefghijklmnopqrstuvwxyz".toList

theorem base36Digit_mem {n : Nat} (h : n < 36) : base36Digit n ∈ base36Digits := by
  have all : ∀ m ∈ List.range 36, base36Digit m ∈ base36Digits := by decide
  exact all n (List.mem_range.mpr h)

theorem base36Digit_ne_zero {n : Nat} (some_value : n ≠ 0) (h : n < 36) : base36Digit n ≠ '0' := by
  have all : ∀ m ∈ List.range 36, m ≠ 0 → base36Digit m ≠ '0' := by decide
  exact all n (List.mem_range.mpr h) some_value

theorem base36Onto_subset (n : Nat) {digits : List Char} (h : digits ⊆ base36Digits) :
    base36Onto n digits ⊆ base36Digits := by
  fun_induction base36Onto n digits with
  | case1 n digits small => exact List.cons_subset.mpr ⟨base36Digit_mem small, h⟩
  | case2 n digits large ih =>
      exact ih (List.cons_subset.mpr ⟨base36Digit_mem (Nat.mod_lt n (by decide)), h⟩)

theorem base36Onto_ne_nil (n : Nat) (digits : List Char) : base36Onto n digits ≠ [] := by
  fun_induction base36Onto n digits with
  | case1 n digits small => exact List.cons_ne_nil _ _
  | case2 n digits large ih => exact ih

/-- A number below a power of thirty-six has no more digits than the exponent says. -/
theorem length_base36Onto_le {n k : Nat} (digits : List Char) (h : n < 36 ^ (k + 1)) :
    (base36Onto n digits).length ≤ k + 1 + digits.length := by
  induction k generalizing n digits with
  | zero =>
      rw [base36Onto, if_pos (by simpa using h), List.length_cons]
      omega
  | succ k ih =>
      rw [base36Onto]
      split
      · rw [List.length_cons]
        omega
      · have fewer : n / 36 < 36 ^ (k + 1) := by
          rw [Nat.div_lt_iff_lt_mul (by decide), ← pow_succ]
          exact h
        have rest := ih (base36Digit (n % 36) :: digits) fewer
        rw [List.length_cons] at rest
        omega

/-- Numbers but zero do not start with the digit of zero. -/
theorem head?_base36Onto (n : Nat) (digits : List Char) (some_value : n ≠ 0) :
    (base36Onto n digits).head? ≠ some '0' := by
  fun_induction base36Onto n digits with
  | case1 n digits small =>
      rw [List.head?_cons]
      exact fun same => base36Digit_ne_zero some_value small (Option.some.inj same)
  | case2 n digits large ih => exact ih (by omega)

/-- Numbers within the signed word are written with one digit to six, without leading zeros. -/
theorem base36Onto_written {n : Nat} (small : n ≤ 2 ^ 31) :
    (1 ≤ (base36Onto n []).length ∧ (base36Onto n []).length ≤ 6) ∧
      base36Onto n [] ⊆ base36Digits ∧
      (base36Onto n [] = ['0'] ∨ (base36Onto n []).head? ≠ some '0') ∧
      readBase36 0 (base36Onto n []) = n := by
  have six : 2 ^ 31 < 36 ^ 6 := by decide
  refine ⟨⟨?_, ?_⟩, ?_, ?_, ?_⟩
  · exact List.length_pos_iff.mpr (base36Onto_ne_nil n [])
  · exact length_base36Onto_le [] (small.trans_lt six)
  · exact base36Onto_subset n (List.nil_subset _)
  · by_cases zero : n = 0
    · rw [zero, base36Onto]
      exact .inl rfl
    · exact .inr (head?_base36Onto n [] zero)
  · exact readBase36_base36Onto n []

end Digits

section Hashes

/-- Every code point counts thirty-one times for each character that follows it. -/
def pathSum : List Char → Nat
  | [] => 0
  | c :: rest => c.toNat * 31 ^ rest.length + pathSum rest

theorem wordSize_eq : wordSize = 2 ^ 32 := rfl

theorem foldl_hash (s : List Char) (h : Nat) :
    s.foldl (fun h c => (31 * h + c.toNat) % wordSize) (h % wordSize) =
      (h * 31 ^ s.length + pathSum s) % wordSize := by
  induction s generalizing h with
  | nil => simp [pathSum]
  | cons c rest ih =>
      have step : (31 * (h % wordSize) + c.toNat) % wordSize = (31 * h + c.toNat) % wordSize := by
        rw [Nat.add_mod, Nat.mul_mod, Nat.mod_mod, ← Nat.mul_mod, ← Nat.add_mod]
      rw [List.foldl_cons, step, ih, pathSum, List.length_cons, pow_succ]
      congr 1
      ring

theorem rollingHash_eq (s : List Char) : rollingHash s = pathSum s % wordSize := by
  have run := foldl_hash s 0
  rw [Nat.zero_mod, Nat.zero_mul, Nat.zero_add] at run
  exact run

/-- Signed words have one magnitude where they are equal or opposite. -/
theorem signedMagnitude_eq_iff {h k : Nat} (hh : h < wordSize) (hk : k < wordSize) :
    signedMagnitude h = signedMagnitude k ↔ h = k ∨ (h + k) % wordSize = 0 := by
  simp only [signedMagnitude, wordSize] at *
  by_cases low : h < 4294967296 / 2 <;> by_cases low' : k < 4294967296 / 2 <;>
    simp only [low, low', if_true, if_false] <;> omega

/-- The hashes of two paths are equal or opposite, which is what their digits do not tell. -/
def HashesMeet (p q : String) : Prop :=
  (pathSum p.toList : ℤ) ≡ pathSum q.toList [ZMOD 2 ^ 32] ∨
    (pathSum p.toList : ℤ) ≡ -pathSum q.toList [ZMOD 2 ^ 32]

theorem pathHash_eq_iff (p q : String) : pathHash p = pathHash q ↔ HashesMeet p q := by
  have word : 0 < wordSize := by decide
  have magnitudes : pathHash p = pathHash q ↔
      signedMagnitude (rollingHash p.toList) = signedMagnitude (rollingHash q.toList) :=
    ⟨base36_inj, congrArg base36⟩
  rw [magnitudes, rollingHash_eq, rollingHash_eq,
    signedMagnitude_eq_iff (Nat.mod_lt _ word) (Nat.mod_lt _ word), HashesMeet]
  simp only [Int.ModEq, wordSize]
  omega

/-- The magnitude of a word is that of its signed reading. -/
theorem signedMagnitude_mod (n : Nat) :
    signedMagnitude (n % wordSize) = (Int.bmod n wordSize).natAbs := by
  have below : n % wordSize < wordSize := Nat.mod_lt n (by decide)
  have half : ((wordSize : ℤ) + 1) / 2 = (wordSize / 2 : ℕ) := rfl
  rw [signedMagnitude, Int.bmod, ← Int.natCast_mod, half]
  by_cases low : n % wordSize < wordSize / 2
  · rw [if_pos low, if_pos (Int.ofNat_lt.mpr low), Int.natAbs_natCast]
  · rw [if_neg low, if_neg (mt Int.ofNat_lt.mp low)]
    omega

/-- Magnitudes reach half the word size, as the least signed word has no opposite. -/
theorem natAbs_bmod_le (n : ℤ) : (Int.bmod n (2 ^ 32)).natAbs ≤ 2 ^ 31 := by
  have lower : -(((2 ^ 32 : ℕ) : ℤ) / 2) ≤ n.bmod (2 ^ 32) := Int.le_bmod (by decide)
  have upper : n.bmod (2 ^ 32) < (((2 ^ 32 : ℕ) : ℤ) + 1) / 2 := Int.bmod_lt (by decide)
  omega

theorem pathHash_toList (path : String) :
    (pathHash path).toList = base36Onto (Int.bmod (pathSum path.toList) (2 ^ 32)).natAbs [] := by
  rw [pathHash, base36, String.toList_ofList, rollingHash_eq, signedMagnitude_mod, wordSize_eq]

end Hashes

section Ids

theorem nodeId_toList (path name : String) :
    (nodeId path name).toList = name.toList ++ '_' :: (pathHash path).toList := by
  change ((name ++ "_") ++ pathHash path).toList = _
  rw [String.toList_append, String.toList_append, List.append_assoc]
  rfl

theorem pathHash_no_underscore (path : String) : '_' ∉ (pathHash path).toList := by
  rw [pathHash_toList]
  exact base36Onto_no_underscore _ [] List.not_mem_nil

/-- One id means one name and hashes that are equal or opposite. -/
theorem nodeId_eq_iff (p q n m : String) :
    nodeId p n = nodeId q m ↔ n = m ∧ HashesMeet p q := by
  rw [← pathHash_eq_iff]
  constructor
  · intro same
    have chars := congrArg String.toList same
    rw [nodeId_toList, nodeId_toList] at chars
    obtain ⟨names, hashes⟩ :=
      append_cons_inj (pathHash_no_underscore p) (pathHash_no_underscore q) chars
    exact ⟨String.toList_injective names, String.toList_injective hashes⟩
  · rintro ⟨rfl, hashes⟩
    rw [nodeId, nodeId, hashes]

/-- Ids are equal exactly where the names are and the hashes of the paths are equal or opposite. The
part of an id behind the name is a number in base thirty-six without leading zeros, of one digit to
six, and it is the magnitude of the hash as a signed word. -/
theorem nodeId_tells (p q n m : String) :
    (nodeId p n = nodeId q m ↔ n = m ∧ HashesMeet p q) ∧
      nodeId p n = n ++ "_" ++ pathHash p ∧
      let digits := (pathHash p).toList
      (1 ≤ digits.length ∧ digits.length ≤ 6) ∧ digits ⊆ base36Digits ∧
        (digits = ['0'] ∨ digits.head? ≠ some '0') ∧
        readBase36 0 digits = (Int.bmod (pathSum p.toList) (2 ^ 32)).natAbs := by
  refine ⟨nodeId_eq_iff p q n m, rfl, ?_⟩
  rw [pathHash_toList]
  exact base36Onto_written (natAbs_bmod_le _)

/-- The hash of this path is the least signed word, the only one whose magnitude is no signed
word. -/
example : pathHash "polygenelubricants" = "zik0zk" := by decide +kernel

end Ids

end ComponentAtlas
