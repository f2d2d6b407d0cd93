import ComponentAtlas.Decimal.Reading

/-!
Which readings give the undefined number. Rounding a number with digits never gives it, so the word
for it is the only text that does. Any other number is either below zero or at least zero.
-/

namespace ComponentAtlas.Decimal

open Float.Model (UnpackedFloat Format)

section Fields

theorem isNaN_dite {p : Prop} [Decidable p] {f : p → UnpackedFloat} {g : ¬ p → UnpackedFloat}
    (hf : ∀ h, (f h).isNaN = false) (hg : ∀ h, (g h).isNaN = false) :
    (dite p f g).isNaN = false := by
  by_cases h : p
  · rw [dif_pos h, hf h]
  · rw [dif_neg h, hg h]

theorem isNaN_ite {p : Prop} [Decidable p] {f g : UnpackedFloat} (hf : f.isNaN = false)
    (hg : g.isNaN = false) : (ite p f g).isNaN = false :=
  isNaN_dite (fun _ => hf) fun _ => hg

/-- Only the largest exponent stands for no number. -/
theorem isNaN_unpack_of_exponent {b : BitVec Format.binary64.numBits}
    (h : UnpackedFloat.unpackExponent b ≠ -1#(Format.binary64.exponentBits)) :
    (UnpackedFloat.unpack .binary64 b).isNaN = false := by
  unfold UnpackedFloat.unpack
  dsimp only
  rw [if_neg h]
  exact isNaN_ite (isNaN_dite (fun _ => rfl) fun _ => rfl) rfl

theorem exponent_ne {biased : Nat} (h : biased + 1 < 2048) :
    BitVec.ofNat 11 biased ≠ -1#11 := by
  bv_omega

theorem isNaN_packed (f : UnpackedFloat) :
    (UnpackedFloat.unpack .binary64 (UnpackedFloat.pack .binary64 f)).isNaN = f.isNaN := by
  cases f with
  | notANumber => rfl
  | infinity s => cases s <;> rfl
  | zero s => cases s <;> rfl
  | finite s m e positive =>
      have number : (UnpackedFloat.finite s m e positive).isNaN = false := rfl
      rw [number]
      unfold UnpackedFloat.pack
      dsimp only
      split
      · cases s <;> rfl
      · rename_i small
        split
        · refine isNaN_unpack_of_exponent ?_
          rw [UnpackedFloat.unpackExponent_packComponents]
          exact exponent_ne (Nat.lt_of_not_le small)
        · refine isNaN_unpack_of_exponent ?_
          rw [UnpackedFloat.unpackExponent_packComponents]
          decide

theorem isNaN_roundWithAccuracy (s : UnpackedFloat.Sign) (m : Nat) (e : Int)
    (accuracy : UnpackedFloat.Accuracy) :
    (UnpackedFloat.roundWithAccuracy .binary64 s m e accuracy).isNaN = false := by
  unfold UnpackedFloat.roundWithAccuracy
  exact isNaN_dite (fun _ => rfl) fun _ => rfl

/-- Neither zero nor infinite nor undefined. -/
def hasDigits : UnpackedFloat → Bool
  | .finite _ _ _ _ => true
  | _ => false

theorem isNaN_unpacked_mul (f : UnpackedFloat) {g : UnpackedFloat} (h : hasDigits g = true) :
    (UnpackedFloat.mul .binary64 f g).isNaN = f.isNaN := by
  cases g with
  | notANumber | infinity s | zero s => cases h
  | finite s m e positive =>
      cases f with
      | notANumber | infinity t | zero t => rfl
      | finite t n k some => exact isNaN_roundWithAccuracy _ _ _ _

theorem isNaN_unpacked_div (f : UnpackedFloat) {g : UnpackedFloat} (h : hasDigits g = true) :
    (UnpackedFloat.div .binary64 f g).isNaN = f.isNaN := by
  cases g with
  | notANumber | infinity s | zero s => cases h
  | finite s m e positive =>
      cases f with
      | notANumber | infinity t | zero t => rfl
      | finite t n k some => exact isNaN_roundWithAccuracy _ _ _ _

theorem isNaN_unpacked_ofNat (n : Nat) : (UnpackedFloat.ofNat .binary64 n).isNaN = false := by
  unfold UnpackedFloat.ofNat UnpackedFloat.ofInt UnpackedFloat.normalize
  split
  · exact isNaN_roundWithAccuracy _ _ _ _
  · rfl
  · exact isNaN_roundWithAccuracy _ _ _ _

theorem isNaN_unpacked_ofScientific (m : Nat) (e : Int) :
    (UnpackedFloat.ofScientific .binary64 m e).isNaN = false := by
  unfold UnpackedFloat.ofScientific
  refine isNaN_dite (fun _ => rfl) fun _ => isNaN_ite rfl (isNaN_ite rfl (isNaN_ite ?_ ?_))
  · exact isNaN_unpacked_mul _ rfl
  · exact isNaN_unpacked_div _ rfl

end Fields

section Numbers

theorem isNaN_neg (x : Float) : (-x).isNaN = x.isNaN := by
  have packed : (-x).isNaN = x.toModel.unpack.neg.isNaN := isNaN_packed _
  rw [packed, Float.isNaN, Float.Model.isNaN]
  cases x.toModel.unpack <;> rfl

theorem isNaN_toFloat (n : UInt64) : n.toFloat.isNaN = false :=
  (isNaN_packed _).trans (isNaN_unpacked_ofNat _)

theorem isNaN_mul (x : Float) {y : Float} (h : hasDigits y.toModel.unpack = true) :
    (x * y).isNaN = x.isNaN :=
  (isNaN_packed _).trans (isNaN_unpacked_mul _ h)

theorem isNaN_div (x : Float) {y : Float} (h : hasDigits y.toModel.unpack = true) :
    (x / y).isNaN = x.isNaN :=
  (isNaN_packed _).trans (isNaN_unpacked_div _ h)

theorem hasDigits_powerOfTen : ∀ x ∈ Float.exactlyRepresentablePowersOfTen.toList,
    hasDigits x.toModel.unpack = true := by
  decide

theorem isNaN_ofScientific (m : Nat) (down : Bool) (e : Nat) :
    (Float.ofScientific m down e).isNaN = false := by
  unfold Float.ofScientific
  split
  · -- Small numbers are multiplied with a power of ten from the table, or divided by it.
    rename_i small
    have bound : e < Float.exactlyRepresentablePowersOfTen.size := Nat.lt_succ_of_le small.2
    have power := hasDigits_powerOfTen _ (Array.getElem_mem_toList bound)
    dsimp only
    split
    · exact (isNaN_div _ power).trans (isNaN_toFloat _)
    · exact (isNaN_mul _ power).trans (isNaN_toFloat _)
  · exact (isNaN_packed _).trans (isNaN_unpacked_ofScientific _ _)

theorem isNaN_pow10 (sign : Sign) (digits : Nat) (power : Int) :
    (pow10 sign digits power).isNaN = false := by
  have zero : (0.0 : Float).isNaN = false := by decide
  have unsigned : ∀ x : Float, x.isNaN = false →
      (if sign = .minus then -x else x).isNaN = false := by
    intro x defined
    split
    · rw [isNaN_neg, defined]
    · exact defined
  refine unsigned _ ?_
  split
  · exact zero
  · split
    · exact isNaN_ofScientific _ _ _
    · split
      · exact zero
      · exact isNaN_ofScientific _ _ _

/-- Only the word for it gives the undefined number. -/
theorem isNaN_reading_iff (r : Reading) : r.toFloat.isNaN = true ↔ r = .undefined := by
  cases r with
  | value sign digits power =>
      exact iff_of_false (Bool.eq_false_iff.mp (isNaN_pow10 sign digits power)) nofun
  | infinite sign =>
      have defined : (Reading.infinite sign).toFloat.isNaN = false := by
        cases sign <;> decide
      exact iff_of_false (Bool.eq_false_iff.mp defined) nofun
  | undefined => exact iff_of_true (by decide) rfl

theorem lt_iff (x y : Float) :
    x < y ↔ UnpackedFloat.lt x.toModel.unpack y.toModel.unpack = true := by
  show decide (Float.Model.lt x.toModel y.toModel = true) = true ↔ _
  rw [decide_eq_true_iff]
  exact Iff.rfl

theorem le_iff (x y : Float) :
    x ≤ y ↔ UnpackedFloat.le x.toModel.unpack y.toModel.unpack = true := by
  show decide (Float.Model.le x.toModel y.toModel = true) = true ↔ _
  rw [decide_eq_true_iff]
  exact Iff.rfl

theorem compare_swap (a b : UnpackedFloat) : b.compare a = (a.compare b).map Ordering.swap := by
  cases a with
  | notANumber => cases b with
    | infinity s => cases s <;> rfl
    | finite s => cases s <;> rfl
    | _ => rfl
  | infinity s => cases b with
    | infinity t => cases s <;> cases t <;> rfl
    | finite t => cases s <;> cases t <;> rfl
    | _ => cases s <;> rfl
  | zero s => cases b with
    | infinity t => cases t <;> rfl
    | finite t => cases t <;> rfl
    | _ => rfl
  | finite s m e positive => cases b with
    | infinity t => cases s <;> cases t <;> rfl
    | finite t n f positive' =>
        have sizes :
            (compare f e).then (compare n m) = ((compare e f).then (compare m n)).swap := by
          rw [Ordering.swap_then, ← Std.OrientedCmp.eq_swap, ← Std.OrientedCmp.eq_swap]
        cases s with
        | positive =>
          cases t with
          | positive => exact congrArg some sizes
          | negative => rfl
        | negative =>
          cases t with
          | positive => rfl
          | negative => exact congrArg (fun o => some (Ordering.swap o)) sizes
    | _ => cases s <;> rfl

/-- Only the undefined number compares with none. -/
theorem compare_eq_none_iff (a b : UnpackedFloat) :
    a.compare b = none ↔ a.isNaN = true ∨ b.isNaN = true := by
  cases a with
  | notANumber => exact iff_of_true rfl (.inl rfl)
  | zero => cases b with
    | notANumber => exact iff_of_true rfl (.inr rfl)
    | zero => exact iff_of_false nofun nofun
    | infinity t | finite t => cases t <;> exact iff_of_false nofun nofun
  | infinity s | finite s => cases b with
    | notANumber => cases s <;> exact iff_of_true rfl (.inr rfl)
    | zero => cases s <;> exact iff_of_false nofun nofun
    | infinity t | finite t => cases s <;> cases t <;> exact iff_of_false nofun nofun

/-- Of two numbers that are defined the first is at most the second or above it. -/
theorem le_iff_not_lt (x y : Float) :
    x ≤ y ↔ ¬ y < x ∧ x.isNaN = false ∧ y.isNaN = false := by
  have none_iff := compare_eq_none_iff x.toModel.unpack y.toModel.unpack
  rw [le_iff, lt_iff, UnpackedFloat.le, UnpackedFloat.lt, compare_swap x.toModel.unpack]
  cases compared : x.toModel.unpack.compare y.toModel.unpack with
  | none =>
      refine iff_of_false Bool.false_ne_true fun ⟨_, hx, hy⟩ => ?_
      rcases none_iff.mp compared with undefined | undefined
      · exact Bool.false_ne_true (hx.symm.trans undefined)
      · exact Bool.false_ne_true (hy.symm.trans undefined)
  | some o =>
      have defined := mt none_iff.mpr (compared ▸ Option.some_ne_none o)
      rw [not_or, Bool.not_eq_true, Bool.not_eq_true] at defined
      refine Iff.trans ?_ (and_iff_left defined).symm
      cases o <;> decide

/-- The undefined number is neither below zero nor at least zero, and any other is one of both. -/
theorem ge_zero_iff (x : Float) : x ≥ 0.0 ↔ ¬ x < 0.0 ∧ x.isNaN = false := by
  have zero : (0.0 : Float).isNaN = false := by decide
  rw [ge_iff_le, le_iff_not_lt, and_iff_right zero]

end Numbers

end ComponentAtlas.Decimal
