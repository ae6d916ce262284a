import HiddenClass.Value
import Mathlib.Algebra.Group.Nat.Defs
import Mathlib.Data.Nat.Log

/-!
Whole numbers of at most fifty-three bits are doubles, and nothing is lost by taking them for one.
-/

namespace HiddenClass

namespace Double

theorem nearestQuotient_one (n : Nat) : nearestQuotient n 1 = n := by
  simp [nearestQuotient, Nat.mod_one]

/-- The logarithm of a whole number. -/
theorem quotientLog_one {n : Nat} (positive : n ≠ 0) : quotientLog n 1 = n.log2 := by
  have reached : 1 <<< n.log2 ≤ n := by
    rw [Nat.one_shiftLeft]
    exact Nat.log2_self_le positive
  have log : Nat.log2 1 = 0 := by decide
  unfold quotientLog
  simp [log, reached]

/-- The mantissa of a whole number is the number moved up to fifty-three bits. -/
theorem mantissa_bounds {n : Nat} (positive : n ≠ 0) (small : n.log2 ≤ 52) :
    4503599627370496 ≤ n * 2 ^ (52 - n.log2) ∧ n * 2 ^ (52 - n.log2) < 2 * 4503599627370496 := by
  have split : 2 ^ n.log2 * 2 ^ (52 - n.log2) = 4503599627370496 := by
    rw [← Nat.pow_add, Nat.add_sub_cancel' small]
  have room : 0 < 2 ^ (52 - n.log2) := Nat.two_pow_pos _
  have above : n < 2 ^ n.log2 * 2 := by
    rw [← Nat.pow_succ]
    exact Nat.lt_log2_self
  constructor
  · rw [← split]
    exact Nat.mul_le_mul_right _ (Nat.log2_self_le positive)
  · rw [← split, ← Nat.mul_assoc, Nat.mul_comm 2]
    exact Nat.mul_lt_mul_of_pos_right above room

theorem ofMagnitude_of_lt {exponent fraction : Nat} (finite : exponent < 2047)
    (small : fraction < 4503599627370496) (negative : Bool) :
    ofMagnitude negative (exponent * 4503599627370496 + fraction) =
      .finite negative ⟨exponent, finite⟩ ⟨fraction, small⟩ := by
  have quotient : (exponent * 4503599627370496 + fraction) / 4503599627370496 = exponent := by omega
  have rest : (exponent * 4503599627370496 + fraction) % 4503599627370496 = fraction := by omega
  have bound : (exponent * 4503599627370496 + fraction) / 4503599627370496 < 2047 := by omega
  unfold ofMagnitude
  rw [dif_pos bound]
  simp only [quotient, rest]

/-- The fields of a whole number. -/
theorem ofQuotient_one {n : Nat} (positive : n ≠ 0) (small : n.log2 < 52) (negative : Bool) :
    ∃ (exponent : n.log2 + 1023 < 2047)
      (fraction : n * 2 ^ (52 - n.log2) - 4503599627370496 < 4503599627370496),
      ofQuotient negative n 1 =
        .finite negative ⟨n.log2 + 1023, exponent⟩ ⟨n * 2 ^ (52 - n.log2) - 4503599627370496, fraction⟩ := by
  obtain ⟨least, most⟩ := mantissa_bounds positive (Nat.le_of_lt small)
  have exponent : n.log2 + 1023 < 2047 := by omega
  have fraction : n * 2 ^ (52 - n.log2) - 4503599627370496 < 4503599627370496 := by omega
  have unit : max ((n.log2 : Int) - 52) (-1074) = Int.negSucc (51 - n.log2) := by omega
  have shift : 51 - n.log2 + 1 = 52 - n.log2 := by omega
  have field : (Int.negSucc (51 - n.log2) + 1074).toNat = n.log2 + 1022 := by omega
  have magnitude : (n.log2 + 1022) * 4503599627370496 + n * 2 ^ (52 - n.log2) =
      (n.log2 + 1023) * 4503599627370496 + (n * 2 ^ (52 - n.log2) - 4503599627370496) := by omega
  refine ⟨exponent, fraction, ?_⟩
  unfold ofQuotient
  rw [if_neg positive, quotientLog_one positive]
  simp only [unit, shift, field, nearestQuotient_one, Nat.shiftLeft_eq]
  rw [magnitude]
  exact ofMagnitude_of_lt exponent fraction negative

/-- A whole number below fifty-two bits is its own integer part. -/
theorem truncate_ofNat {n : Nat} (small : n < 4503599627370496) : (ofNat n).truncate = some (n : Int) := by
  by_cases zero : n = 0
  · rw [zero]
    rfl
  · have log : n.log2 < 52 := (Nat.log2_lt zero).mpr (by omega)
    obtain ⟨least, _⟩ := mantissa_bounds zero (Nat.le_of_lt log)
    obtain ⟨exponent, fraction, fields⟩ := ofQuotient_one zero log false
    have scale : max ((n.log2 + 1023 : Nat) : Int) 1 - 1075 = Int.negSucc (51 - n.log2) := by omega
    have shift : 51 - n.log2 + 1 = 52 - n.log2 := by omega
    have whole : 4503599627370496 + (n * 2 ^ (52 - n.log2) - 4503599627370496) =
        n * 2 ^ (52 - n.log2) := by omega
    rw [ofNat, fields]
    unfold truncate mantissa Double.scale
    simp only [scale, if_neg (Nat.succ_ne_zero _), whole, shift, Nat.shiftRight_eq_div_pow]
    rw [Nat.mul_div_cancel _ (Nat.two_pow_pos _)]
    rfl

/-- From this exponent on the mantissa is not shifted down. -/
theorem le_truncate_finite {exponent : Fin 2047} (large : 1075 ≤ exponent.val)
    (fraction : Fin 4503599627370496) {whole : Int}
    (truncated : (finite false exponent fraction).truncate = some whole) :
    4503599627370496 ≤ whole := by
  have up : max (exponent.val : Int) 1 - 1075 = ((exponent.val - 1075 : Nat) : Int) := by omega
  have normal : ¬exponent.val = 0 := by omega
  have kept : 4503599627370496 + fraction.val ≤
      (4503599627370496 + fraction.val) <<< (exponent.val - 1075) := by
    rw [Nat.shiftLeft_eq]
    exact Nat.le_mul_of_pos_right _ (Nat.two_pow_pos _)
  unfold truncate mantissa Double.scale at truncated
  simp only [up, if_neg normal] at truncated
  have same := Option.some.inj truncated
  change (((4503599627370496 + fraction.val) <<< (exponent.val - 1075) : Nat) : Int) = whole at same
  omega

/-- A whole number of more bits stays far above all words, whichever way it is rounded. -/
theorem le_truncate_ofNat {n : Nat} (large : 4503599627370496 ≤ n) {whole : Int}
    (truncated : (ofNat n).truncate = some whole) : 4503599627370496 ≤ whole := by
  have positive : n ≠ 0 := by omega
  have log : 52 ≤ n.log2 := (Nat.le_log2 positive).mpr large
  have unit : max ((n.log2 : Int) - 52) (-1074) = ((n.log2 - 52 : Nat) : Int) := by omega
  have field : (((n.log2 - 52 : Nat) : Int) + 1074).toNat = n.log2 + 1022 := by omega
  have split : 4503599627370496 * 2 ^ (n.log2 - 52) = 2 ^ n.log2 := by
    rw [show (4503599627370496 : Nat) = 2 ^ 52 from rfl, ← Nat.pow_add, Nat.add_sub_cancel' log]
  have floor : 4503599627370496 ≤ n / (1 <<< (n.log2 - 52)) := by
    rw [Nat.one_shiftLeft, Nat.le_div_iff_mul_le (Nat.two_pow_pos _), split]
    exact Nat.log2_self_le positive
  have rounded : 4503599627370496 ≤ nearestQuotient n (1 <<< (n.log2 - 52)) := by
    unfold nearestQuotient
    simp only
    split
    · exact floor
    · split <;> omega
  unfold ofNat ofQuotient at truncated
  rw [if_neg positive, quotientLog_one positive] at truncated
  simp only [unit, field] at truncated
  unfold ofMagnitude at truncated
  split at truncated
  · refine le_truncate_finite ?_ _ truncated
    change 1075 ≤ ((n.log2 + 1022) * 4503599627370496 +
      nearestQuotient n (1 <<< (n.log2 - 52))) / 4503599627370496
    omega
  · cases truncated

/-- Both zeros have the same integer part, and otherwise equal numbers are one. -/
theorem truncate_of_sameNumber {x y : Double} (same : x.sameNumber y = true) :
    y.truncate = x.truncate := by
  have zero : ∀ z : Double, z.isZero = true → z.truncate = some 0 := by
    intro z isZero
    cases z with
    | nan => cases isZero
    | infinity negative => cases isZero
    | finite negative exponent fraction =>
      obtain ⟨first, second⟩ := Bool.and_eq_true_iff.mp isZero
      have noExponent : exponent = 0 := Fin.ext (of_decide_eq_true first)
      have noFraction : fraction = 0 := Fin.ext (of_decide_eq_true second)
      rw [noExponent, noFraction]
      cases negative <;> rfl
  have either : x = y ∨ x.isZero = true ∧ y.isZero = true := by
    cases x with
    | nan => cases same
    | infinity negative =>
      exact ((Bool.or_eq_true _ _).mp same).imp of_decide_eq_true Bool.and_eq_true_iff.mp
    | finite negative exponent fraction =>
      exact ((Bool.or_eq_true _ _).mp same).imp of_decide_eq_true Bool.and_eq_true_iff.mp
  rcases either with rfl | ⟨first, second⟩
  · rfl
  · rw [zero x first, zero y second]

theorem ofInt_natCast (n : Nat) : ofInt n = ofNat n := by
  have positive : decide ((n : Int) < 0) = false := decide_eq_false (by omega)
  rw [ofInt, positive, Int.natAbs_natCast, ofNat]

theorem toInt?_ofNat {n : Nat} (small : n < 4503599627370496) : (ofNat n).toInt? = some (n : Int) := by
  have truncated := truncate_ofNat small
  have same : (ofNat n).sameNumber (ofNat n) = true := by
    cases number : ofNat n with
    | finite negative exponent fraction => simp [sameNumber]
    | _ =>
      rw [number] at truncated
      cases truncated
  unfold toInt?
  simp only [truncated, ofInt_natCast, if_pos same]

end Double

/-- A word is made into the number that it is. -/
theorem Value.toNumber_ofWord {n : Nat} (small : n < 4294967296) :
    (Value.ofWord n).toNumber = .ofNat n := by
  unfold Value.ofWord
  by_cases fits : Value.fitsInt n = true
  · rw [if_pos fits]
    unfold Value.fitsInt at fits
    rw [Bool.and_eq_true, decide_eq_true_eq, decide_eq_true_eq] at fits
    have kept : (Int32.ofInt n).toInt = n :=
      Int32.toInt_ofInt_of_le (by omega) (by omega)
    rw [Value.toNumber, kept, Double.ofInt_natCast]
  · rw [if_neg fits]
    rfl

/-- A word is read back from the value that it is made into. -/
theorem Value.truncate_ofWord {n : Nat} (small : n < 4294967296) :
    (Value.ofWord n).toNumber.truncate = some (n : Int) := by
  rw [Value.toNumber_ofWord small]
  exact Double.truncate_ofNat (by omega)

/-- A length that is read back as a word is that word. -/
theorem Value.eq_of_truncate_ofWord {n : Nat} {whole : Int}
    (truncated : (Value.ofWord n).toNumber.truncate = some whole) (word : whole ≤ 4294967295) :
    whole = n := by
  by_cases small : n < 4294967296
  · rw [Value.truncate_ofWord small] at truncated
    exact (Option.some.inj truncated).symm
  · have wide : Value.fitsInt n = false := by
      unfold Value.fitsInt
      simp
      omega
    rw [Value.ofWord, wide] at truncated
    change (Double.ofNat n).truncate = some whole at truncated
    by_cases moderate : n < 4503599627370496
    · rw [Double.truncate_ofNat moderate] at truncated
      exact (Option.some.inj truncated).symm
    · have large := Double.le_truncate_ofNat (Nat.not_lt.mp moderate) truncated
      omega

end HiddenClass
