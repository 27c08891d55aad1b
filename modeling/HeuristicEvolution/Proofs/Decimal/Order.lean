import HeuristicEvolution.Proofs.Decimal.Finite

/-!
# The order of doubles

Rankings compare scores by `Binary.key`, an integer that is read off the bits of a double. Doubles
themselves are compared by what they unpack to: by sign, then by exponent, then by mantissa. This
module says that the two are one order, on all doubles that are numbers, infinities included.

What makes it so is that a double is unpacked in a normal form: its mantissa has all 53 bits unless
its exponent is the least one. Hence exponent and mantissa together are one number
(`Binary.magnitude`), and that number is what the bits without the sign say.

## Main results

* `Binary.compare_eq`: numbers are compared as their ranks are.
* `Binary.key_eq_rank`: the key of a double is the rank of what it unpacks to.
* `Binary.key_lt_iff`, `Binary.key_le_iff`
* `Binary.notAbove_iff`: keys are enough to compare doubles.
* `Binary.totalKey_lt_of_lt`: the total order extends the order of numbers.
-/

namespace HeuristicEvolution.Binary

open Float.Model Float.Model.UnpackedFloat

/-! ## Ranks of unpacked numbers -/

/-- A number with a sign. -/
def signed : Sign → Int → Int
  | .positive, n => n
  | .negative, n => -n

/-- Exponent and mantissa as one number. -/
def magnitude (mantissa : Nat) (exponent : Int) : Int := (exponent + 1074) * 2 ^ 52 + mantissa

/-- The place of a number in the order of doubles; zero is in the middle. -/
def rank : UnpackedFloat → Int
  | .zero _ => 0
  | .finite s m e _ => signed s (magnitude m e)
  | .infinity s => signed s (2047 * 2 ^ 52)
  | .notANumber => 0

/-- The numbers that doubles unpack to. -/
inductive Normal : UnpackedFloat → Prop
  | zero (s : Sign) : Normal (.zero s)
  | infinity (s : Sign) : Normal (.infinity s)
  | finite {s : Sign} {m : Nat} {e : Int} {hm : 0 < m} : m < 2 ^ 53 → -1074 ≤ e → e ≤ 971 →
      (2 ^ 52 ≤ m ∨ e = -1074) → Normal (.finite s m e hm)

/-- In normal form the greater exponent wins, and of equal exponents the greater mantissa. -/
theorem compare_magnitude {m n : Nat} {e f : Int} (hm : m < 2 ^ 53) (hn : n < 2 ^ 53)
    (he : 2 ^ 52 ≤ m ∨ e = -1074) (hf : 2 ^ 52 ≤ n ∨ f = -1074) (hle : -1074 ≤ e)
    (hlf : -1074 ≤ f) :
    (compare e f).then (compare m n) = compare (magnitude m e) (magnitude n f) := by
  unfold magnitude
  rcases lt_trichotomy e f with hlt | rfl | hgt
  · have hmag : (e + 1074) * 2 ^ 52 + (m : Int) < (f + 1074) * 2 ^ 52 + n := by omega
    rw [compare_lt_iff_lt.mpr hlt, compare_lt_iff_lt.mpr hmag]
    rfl
  · rcases lt_trichotomy m n with hlt | rfl | hgt
    · have hmag : (e + 1074) * 2 ^ 52 + (m : Int) < (e + 1074) * 2 ^ 52 + n := by omega
      rw [compare_eq_iff_eq.mpr rfl, compare_lt_iff_lt.mpr hlt, compare_lt_iff_lt.mpr hmag]
      rfl
    · rw [compare_eq_iff_eq.mpr rfl, compare_eq_iff_eq.mpr rfl, compare_eq_iff_eq.mpr rfl]
      rfl
    · have hmag : (e + 1074) * 2 ^ 52 + (n : Int) < (e + 1074) * 2 ^ 52 + m := by omega
      rw [compare_eq_iff_eq.mpr rfl, compare_gt_iff_gt.mpr hgt, compare_gt_iff_gt.mpr hmag]
      rfl
  · have hmag : (f + 1074) * 2 ^ 52 + (n : Int) < (e + 1074) * 2 ^ 52 + m := by omega
    rw [compare_gt_iff_gt.mpr hgt, compare_gt_iff_gt.mpr hmag]
    rfl

theorem magnitude_pos {m : Nat} {e : Int} (hm : 0 < m) (he : -1074 ≤ e) : 0 < magnitude m e := by
  unfold magnitude
  omega

/-- Finite numbers stand between the infinities. -/
theorem rank_finite_bounds {s : Sign} {m : Nat} {e : Int} {hm : 0 < m} (hlt : m < 2 ^ 53)
    (hle : -1074 ≤ e) (hge : e ≤ 971) :
    rank (.infinity .negative) < rank (.finite s m e hm) ∧
      rank (.finite s m e hm) < rank (.infinity .positive) := by
  have hpos := magnitude_pos hm hle
  have htop : magnitude m e < 2047 * 2 ^ 52 := by
    unfold magnitude
    omega
  cases s <;> simp only [rank, signed] <;> omega

theorem compare_neg (a b : Int) : compare (-a) (-b) = (compare a b).swap := by
  rcases lt_trichotomy a b with hlt | rfl | hgt
  · rw [compare_lt_iff_lt.mpr hlt, compare_gt_iff_gt.mpr (Int.neg_lt_neg hlt)]
    rfl
  · rw [compare_eq_iff_eq.mpr rfl, compare_eq_iff_eq.mpr rfl]
    rfl
  · rw [compare_gt_iff_gt.mpr hgt, compare_lt_iff_lt.mpr (Int.neg_lt_neg hgt)]
    rfl

/-- **Numbers are compared as their ranks are.** -/
theorem compare_eq {x y : UnpackedFloat} (hx : Normal x) (hy : Normal y) :
    x.compare y = some (compare (rank x) (rank y)) := by
  cases hx with
  | zero s =>
    cases hy with
    | zero t => rfl
    | infinity t => cases t <;> rfl
    | @finite t n f hn _ hle _ _ =>
      have hpos := magnitude_pos hn hle
      cases t with
      | positive => exact congrArg some (compare_lt_iff_lt.mpr hpos).symm
      | negative => exact congrArg some (compare_gt_iff_gt.mpr (Int.neg_neg_of_pos hpos)).symm
  | infinity s =>
    cases hy with
    | zero t => cases s <;> rfl
    | infinity t => cases s <;> cases t <;> rfl
    | @finite t n f hn hlt hle hge _ =>
      obtain ⟨hlow, hhigh⟩ := @rank_finite_bounds t n f hn hlt hle hge
      cases s with
      | positive => exact congrArg some (compare_gt_iff_gt.mpr hhigh).symm
      | negative => exact congrArg some (compare_lt_iff_lt.mpr hlow).symm
  | @finite s m e hm hlt hle hge hnormal =>
    have hpos := magnitude_pos hm hle
    cases hy with
    | zero t =>
      cases s with
      | positive => exact congrArg some (compare_gt_iff_gt.mpr hpos).symm
      | negative => exact congrArg some (compare_lt_iff_lt.mpr (Int.neg_neg_of_pos hpos)).symm
    | infinity t =>
      obtain ⟨hlow, hhigh⟩ := @rank_finite_bounds s m e hm hlt hle hge
      cases t with
      | positive =>
        rw [compare_lt_iff_lt.mpr hhigh]
        cases s <;> rfl
      | negative =>
        rw [compare_gt_iff_gt.mpr hlow]
        cases s <;> rfl
    | @finite t n f hn hlt' hle' hge' hnormal' =>
      have hpos' := magnitude_pos hn hle'
      have hsame := compare_magnitude hlt hlt' hnormal hnormal' hle hle'
      cases s with
      | positive =>
        cases t with
        | positive => exact congrArg some hsame
        | negative =>
          refine congrArg some (compare_gt_iff_gt.mpr ?_).symm
          simp only [rank, signed]
          omega
      | negative =>
        cases t with
        | positive =>
          refine congrArg some (compare_lt_iff_lt.mpr ?_).symm
          simp only [rank, signed]
          omega
        | negative =>
          rw [rank, rank, signed, signed, compare_neg, ← hsame]
          rfl

/-! ## Keys -/

section Fields

variable (b : BitVec 64)

theorem toNat_unpackMantissa :
    (@unpackMantissa Format.binary64 b).toNat = b.toNat % 2 ^ 52 := by
  simp [unpackMantissa, BitVec.extractLsb]

theorem toNat_unpackExponent :
    (@unpackExponent Format.binary64 b).toNat = b.toNat / 2 ^ 52 % 2 ^ 11 := by
  simp [unpackExponent, BitVec.extractLsb, Nat.shiftRight_eq_div_pow]

theorem ofBitVec_unpackSign :
    Sign.ofBitVec (@unpackSign Format.binary64 b)
      = if 2 ^ 63 ≤ b.toNat then .negative else .positive := by
  have hsign : (@unpackSign Format.binary64 b).toNat = b.toNat / 2 ^ 63 % 2 := by
    simp [unpackSign, BitVec.extractLsb, Nat.shiftRight_eq_div_pow]
  have hlt : b.toNat < 2 ^ 64 := b.isLt
  rw [Sign.ofBitVec]
  by_cases hneg : 2 ^ 63 ≤ b.toNat
  · rw [if_pos hneg, if_neg]
    intro hzero
    rw [hzero] at hsign
    simp only [BitVec.toNat_ofNat] at hsign
    omega
  · rw [if_neg hneg, if_pos]
    apply BitVec.eq_of_toNat_eq
    rw [hsign, BitVec.toNat_ofNat]
    omega

/-- The mantissa with the bit that normal numbers leave out. -/
theorem toNat_fullMantissa :
    (1#1 ++ @unpackMantissa Format.binary64 b).toNat = 2 ^ 52 + b.toNat % 2 ^ 52 := by
  have hlt : b.toNat % 2 ^ 52 < 2 ^ 52 := Nat.mod_lt _ (by decide)
  rw [BitVec.toNat_append, toNat_unpackMantissa, ← Nat.shiftLeft_add_eq_or_of_lt hlt]
  rfl

/-- The exponent of the last bit of the mantissa. -/
theorem exponent_eq :
    ((@unpackExponent Format.binary64 b).toNat : Int) -
      (Format.binary64.exponentBias + (52 : Nat)) = (b.toNat / 2 ^ 52 % 2 ^ 11 : Nat) - 1075 := by
  rw [toNat_unpackExponent, exponentBias_eq]
  omega

end Fields

/-- The key of a double: its bits without the sign, and then the sign. -/
theorem key_eq_signed (x : Float) :
    key x = signed (Sign.ofBitVec (@unpackSign Format.binary64 x.toBits.toBitVec))
      ((x.toBits.toBitVec.toNat % 2 ^ 63 : Nat) : Int) := by
  have hlt : x.toBits.toNat < 2 ^ 64 := x.toBits.toBitVec.isLt
  rw [ofBitVec_unpackSign, key]
  simp only [Nat.pow_eq, UInt64.toNat_toBitVec, Int.ofNat_eq_natCast]
  split <;> simp only [signed] <;> omega

/-- Bits that are no NaN unpack to a normal number, and its rank is that of the bits without the
sign. -/
theorem normal_and_rank_eq {b : BitVec 64}
    (h : (UnpackedFloat.unpack Format.binary64 b).isNaN = false) :
    Normal (UnpackedFloat.unpack Format.binary64 b) ∧
      rank (UnpackedFloat.unpack Format.binary64 b) =
        signed (Sign.ofBitVec (@unpackSign Format.binary64 b))
          ((b.toNat % 2 ^ 63 : Nat) : Int) := by
  have hE := toNat_unpackExponent b
  have hM := toNat_unpackMantissa b
  have hexponent := exponent_eq b
  have hlt : b.toNat < 2 ^ 64 := b.isLt
  revert h
  rw [UnpackedFloat.unpack]
  simp only
  split
  · -- all bits of the exponent: an infinity, or no number
    next hones =>
    have htop : b.toNat / 2 ^ 52 % 2 ^ 11 = 2047 := by rw [← hE, hones]; rfl
    split
    · next hzero =>
      have hnone : b.toNat % 2 ^ 52 = 0 := by rw [← hM, hzero]; rfl
      intro _
      refine ⟨.infinity _, ?_⟩
      rw [rank]
      refine congrArg (signed _) ?_
      omega
    · exact fun h => nomatch h
  · next hones =>
    have htop : b.toNat / 2 ^ 52 % 2 ^ 11 ≠ 2047 := by
      rw [← hE]
      exact fun heq => hones (BitVec.eq_of_toNat_eq heq)
    split
    · -- no bits of the exponent: a zero, or a mantissa that is taken as it is
      next hleast =>
      have hbottom : b.toNat / 2 ^ 52 % 2 ^ 11 = 0 := by rw [← hE, hleast]; rfl
      split
      · next hzero =>
        have hnone : b.toNat % 2 ^ 52 = 0 := by rw [← hM, hzero]; rfl
        intro _
        refine ⟨.zero _, ?_⟩
        have hmagnitude : b.toNat % 2 ^ 63 = 0 := by omega
        rw [hmagnitude, rank]
        cases Sign.ofBitVec (@unpackSign Format.binary64 b) <;> rfl
      · intro _
        have hsubnormal : ((@unpackExponent Format.binary64 b).toNat : Int)
            - (Format.binary64.exponentBias + (52 : Nat)) + 1 = -1074 := by omega
        refine ⟨.finite ?_ ?_ ?_ (.inr hsubnormal), ?_⟩
        · rw [hM]
          omega
        · exact Int.le_of_eq hsubnormal.symm
        · exact Int.le_trans (Int.le_of_eq hsubnormal) (by decide)
        · rw [rank, magnitude, hsubnormal, hM]
          refine congrArg (signed _) ?_
          omega
    · next hleast =>
      have hbottom : b.toNat / 2 ^ 52 % 2 ^ 11 ≠ 0 := by
        rw [← hE]
        exact fun heq => hleast (BitVec.eq_of_toNat_eq heq)
      have hfull := toNat_fullMantissa b
      intro _
      refine ⟨.finite ?_ ?_ ?_ (.inl ?_), ?_⟩
      · rw [hfull]
        omega
      · refine Int.le_trans ?_ (Int.le_of_eq hexponent.symm)
        omega
      · refine Int.le_trans (Int.le_of_eq hexponent) ?_
        omega
      · rw [hfull]
        omega
      · rw [rank, magnitude, hfull, hexponent]
        refine congrArg (signed _) ?_
        omega

/-- **The key of a double that is a number** is the rank of what it unpacks to. -/
theorem key_eq_rank {x : Float} (h : x.isNaN = false) : key x = rank x.toModel.unpack := by
  rw [key_eq_signed]
  exact (normal_and_rank_eq h).2.symm

theorem toModel_compare_eq {x y : Float} (hx : x.isNaN = false) (hy : y.isNaN = false) :
    x.toModel.unpack.compare y.toModel.unpack = some (compare (key x) (key y)) := by
  rw [key_eq_rank hx, key_eq_rank hy]
  exact compare_eq (normal_and_rank_eq hx).1 (normal_and_rank_eq hy).1

/-- **Numbers are ordered as their keys are.** -/
theorem key_lt_iff {x y : Float} (hx : x.isNaN = false) (hy : y.isNaN = false) :
    key x < key y ↔ x < y := by
  change _ ↔ decide ((x.toModel.unpack.compare y.toModel.unpack == some .lt) = true) = true
  rw [toModel_compare_eq hx hy, decide_eq_true_eq, beq_iff_eq, Option.some_inj, compare_lt_iff_lt]

theorem key_le_iff {x y : Float} (hx : x.isNaN = false) (hy : y.isNaN = false) :
    key x ≤ key y ↔ x ≤ y := by
  change _ ↔ decide (Option.any (·.isLE) (x.toModel.unpack.compare y.toModel.unpack) = true) = true
  rw [toModel_compare_eq hx hy, decide_eq_true_eq, Option.any_some, Std.isLE_compare]

/-- The first double is not above the second one: its key is not, and if both are numbers, it is
not the greater number. -/
structure NotAbove (x y : Float) : Prop where
  key_le : key x ≤ key y
  le : x.isNaN = false → y.isNaN = false → x ≤ y

theorem notAbove_iff {x y : Float} : NotAbove x y ↔ key x ≤ key y :=
  ⟨NotAbove.key_le, fun h => ⟨h, fun hx hy => (key_le_iff hx hy).mp h⟩⟩

/-! ## The total order -/

theorem isNaN_eq_false_of_lt {x y : Float} (h : x < y) : x.isNaN = false ∧ y.isNaN = false := by
  change decide ((x.toModel.unpack.compare y.toModel.unpack == some .lt) = true) = true at h
  rw [decide_eq_true_eq, beq_iff_eq] at h
  change x.toModel.unpack.isNaN = false ∧ y.toModel.unpack.isNaN = false
  cases hx : x.toModel.unpack with
  | notANumber => simp [hx, UnpackedFloat.compare] at h
  | _ =>
    cases hy : y.toModel.unpack with
    | notANumber => simp [hx, hy, UnpackedFloat.compare] at h
    | _ => exact ⟨rfl, rfl⟩

theorem totalKey_lt_of_key_lt {x y : Float} (h : key x < key y) : totalKey x < totalKey y := by
  revert h
  rw [key, key, totalKey, totalKey]
  simp only [Nat.pow_eq, Int.ofNat_eq_natCast]
  intro h
  split at h <;> split at h <;> split <;> split <;> omega

/-- **The smaller number goes first in the total order.** -/
theorem totalKey_lt_of_lt {x y : Float} (h : x < y) : totalKey x < totalKey y := by
  obtain ⟨hx, hy⟩ := isNaN_eq_false_of_lt h
  exact totalKey_lt_of_key_lt ((key_lt_iff hx hy).mpr h)

end HeuristicEvolution.Binary
