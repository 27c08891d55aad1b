import HeuristicEvolution.Decimal.Binary
import Mathlib

/-!
# Doubles that stay finite

A double is finite if it has a value, and arithmetic leaves the finite doubles only by what is too
large. Here the operations that a score goes through are followed down to mantissas and exponents:
one less a finite double is finite, and so is a finite double over a number that is two or more.

A result is rounded in two steps, a shift to the exponent that its size asks for and a second one if
rounding has carried into another bit. Below half of the range of doubles the first exponent leaves
room for the second. Only at the top of the range it has to be known that rounding goes to the
nearest double, so that what lies above the greatest double by less than half a step falls back.

## Main results

* `Binary.isFinite_neg`, `Binary.isFinite_one_sub`, `Binary.isFinite_div`
* `Binary.isFinite_ofNat`: natural numbers of 64 bits as doubles.
-/

namespace HeuristicEvolution.Binary

open Float.Model Float.Model.UnpackedFloat

/-- The exponent is one that a double can have. -/
def Fits : UnpackedFloat → Prop
  | .zero _ => True
  | .finite _ _ e _ => e ≤ 971
  | .infinity _ | .notANumber => False

/-- A double is its bits. -/
theorem eq_of_toBits_eq {x y : Float} (h : x.toBits = y.toBits) : x = y := by
  obtain ⟨⟨bits, _⟩⟩ := x
  obtain ⟨⟨bits', _⟩⟩ := y
  obtain rfl : bits = bits' := h
  rfl

/-! ## Packing -/

theorem exponentBias_eq : Format.binary64.exponentBias = 1023 := rfl

theorem mantissaBits_eq : Format.binary64.mantissaBits = 53 := rfl

theorem minExponent_eq : Format.binary64.minExponent = -1074 := by decide

theorem isFinite_unpack (b : BitVec 64) :
    (UnpackedFloat.unpack Format.binary64 b).isFinite =
      decide (@unpackExponent Format.binary64 b ≠ -1#_) := by
  rw [UnpackedFloat.unpack]
  split
  · next h =>
    simp only [h, ne_eq, not_true_eq_false, decide_false]
    split <;> rfl
  · next h =>
    simp only [h, ne_eq, not_false_eq_true, decide_true]
    split
    · split <;> rfl
    · rfl

theorem unpackExponent_pack {u : UnpackedFloat} (h : Fits u) :
    unpackExponent (UnpackedFloat.pack Format.binary64 u) ≠ -1#_ := by
  cases u with
  | infinity s => exact absurd h id
  | notANumber => exact absurd h id
  | zero s =>
    rw [UnpackedFloat.pack, packedZero, unpackExponent_packComponents]
    decide
  | finite s m e hm =>
    have he : e ≤ 971 := h
    have hbiased : (e + Format.binary64.exponentBias +
        Format.binary64.mantissaBitsWithoutImplicit).toNat + 1 <
          2 ^ Format.binary64.exponentBits := by
      change (e + 1023 + 52).toNat + 1 < 2048
      omega
    simp only [UnpackedFloat.pack, if_neg (Nat.not_le.2 hbiased)]
    by_cases hnormal : m.log2 + 1 = Format.binary64.mantissaBits
    · rw [if_pos hnormal, unpackExponent_packComponents]
      intro hones
      have hmod := congrArg BitVec.toNat hones
      rw [BitVec.toNat_ofNat, Nat.mod_eq_of_lt (Nat.lt_of_succ_lt hbiased)] at hmod
      exact absurd (congrArg (· + 1) hmod) (Nat.ne_of_lt hbiased)
    · rw [if_neg hnormal, unpackExponent_packComponents]
      decide

/-- A result whose exponent fits is packed to a finite double. -/
theorem isFinite_pack {u : UnpackedFloat} (h : Fits u) : (Float.Model.pack u).isFinite = true := by
  rw [Float.Model.isFinite, Float.Model.unpack, Float.Model.pack, UInt64.toBitVec_ofBitVec,
    isFinite_unpack, decide_eq_true_eq]
  exact unpackExponent_pack h

/-- The numbers that a double can be unpacked to. -/
inductive Unpacked : UnpackedFloat → Prop
  | zero (s : Sign) : Unpacked (.zero s)
  | finite {s : Sign} {m : Nat} {e : Int} {hm : 0 < m} : m < 2 ^ 53 → -1074 ≤ e → e ≤ 971 →
      Unpacked (.finite s m e hm)

theorem Unpacked.fits {u : UnpackedFloat} (h : Unpacked u) : Fits u := by
  cases h with
  | zero s => trivial
  | finite _ _ he => exact he

theorem unpacked_unpack {b : BitVec 64}
    (h : @unpackExponent Format.binary64 b ≠ -1#_) :
    Unpacked (UnpackedFloat.unpack Format.binary64 b) := by
  have hlt : (@unpackExponent Format.binary64 b).toNat < 2047 := by
    have hbound : (@unpackExponent Format.binary64 b).toNat < 2048 :=
      (@unpackExponent Format.binary64 b).isLt
    have hne : (@unpackExponent Format.binary64 b).toNat ≠ 2047 := fun heq =>
      h (BitVec.eq_of_toNat_eq heq)
    omega
  rw [UnpackedFloat.unpack]
  simp only [h, if_false]
  split
  · next hzero =>
    split
    · exact .zero _
    · refine .finite ?_ ?_ ?_
      · exact (@unpackMantissa Format.binary64 b).isLt.trans (by decide)
      · simp only [hzero]
        decide
      · simp only [hzero]
        decide
  · next hpos =>
    have hone : (@unpackExponent Format.binary64 b).toNat ≠ 0 := fun heq =>
      hpos (BitVec.eq_of_toNat_eq heq)
    refine .finite ?_ ?_ ?_
    · exact (1#1 ++ @unpackMantissa Format.binary64 b).isLt
    · rw [exponentBias_eq]
      omega
    · rw [exponentBias_eq]
      omega

theorem unpacked_of_isFinite {x : Float.Model} (h : x.isFinite = true) : Unpacked x.unpack := by
  rw [Float.Model.isFinite, Float.Model.unpack, isFinite_unpack, decide_eq_true_eq] at h
  exact unpacked_unpack h

/-! ## Rounding -/

section Rounding

variable {em : ExtendedMantissa} {m n : Nat} {e : Int} {a : Accuracy} {s : Sign}

theorem shiftRight_succ : em >>> (n + 1) = (em >>> n).shiftRightOne := rfl

theorem mantissa_shiftRight : (em >>> n).mantissa = em.mantissa / 2 ^ n := by
  induction n with
  | zero => exact (Nat.div_one _).symm
  | succ n ih =>
    rw [shiftRight_succ, ExtendedMantissa.shiftRightOne, ih, Nat.div_div_eq_div_mul, ← Nat.pow_succ]

theorem mantissa_ofMantissaAndAccuracy :
    (ExtendedMantissa.ofMantissaAndAccuracy m a).mantissa = m := by
  rcases a with _ | (_ | _ | _) <;> rfl

theorem roundedMantissa_le : em.roundedMantissa ≤ em.mantissa + 1 := by
  obtain ⟨m, round, sticky⟩ := em
  cases round <;> cases sticky <;>
    simp only [ExtendedMantissa.roundedMantissa, ExtendedMantissa.accuracy,
      Accuracy.roundToNearestEven] <;> omega

/-- Without a round bit nothing is added. -/
theorem roundedMantissa_of_not_roundBit (h : em.roundBit = false) :
    em.roundedMantissa = em.mantissa := by
  obtain ⟨m, round, sticky⟩ := em
  obtain rfl : round = false := h
  cases sticky <;> rfl

/-- **Rounding goes to the nearest.** A mantissa that was exact before the shift grows by half a
step at most. -/
theorem roundedMantissa_mul_le :
    (ExtendedMantissa.ofMantissaAndAccuracy m .exact >>> (n + 1)).roundedMantissa * 2 ^ (n + 1) ≤
      m + 2 ^ n := by
  have hmantissa : (ExtendedMantissa.ofMantissaAndAccuracy m .exact >>> (n + 1)).mantissa =
      m / 2 ^ (n + 1) := by rw [mantissa_shiftRight, mantissa_ofMantissaAndAccuracy]
  have hround : (ExtendedMantissa.ofMantissaAndAccuracy m .exact >>> (n + 1)).roundBit =
      (m / 2 ^ n % 2 != 0) := by
    rw [shiftRight_succ, ExtendedMantissa.shiftRightOne, mantissa_shiftRight,
      mantissa_ofMantissaAndAccuracy]
  have hhalf : m / 2 ^ n / 2 = m / 2 ^ (n + 1) := by rw [Nat.div_div_eq_div_mul, ← Nat.pow_succ]
  have hle : m / 2 ^ n * 2 ^ n ≤ m := Nat.div_mul_le_self _ _
  rw [Nat.pow_succ]
  cases h : (ExtendedMantissa.ofMantissaAndAccuracy m .exact >>> (n + 1)).roundBit with
  | false =>
    rw [roundedMantissa_of_not_roundBit h, hmantissa, ← hhalf]
    have hdouble : m / 2 ^ n / 2 * 2 ≤ m / 2 ^ n := Nat.div_mul_le_self _ _
    nlinarith [Nat.two_pow_pos n]
  | true =>
    -- the mantissa before the last shift is odd, and the next even number is one more
    have hodd : m / 2 ^ n % 2 = 1 := by
      have hne : m / 2 ^ n % 2 ≠ 0 := by simpa [hround] using h
      omega
    have hrounded := @roundedMantissa_le
      (ExtendedMantissa.ofMantissaAndAccuracy m .exact >>> (n + 1))
    rw [hmantissa, ← hhalf] at hrounded
    have hnext : (m / 2 ^ n / 2 + 1) * 2 = m / 2 ^ n + 1 := by omega
    nlinarith [Nat.two_pow_pos n]

/-- The exponent after a shift to the one that the size asks for. -/
theorem shiftToTargetExponent_snd :
    (shiftToTargetExponent Format.binary64 m e a).2 =
      max e (max (totalExponent m e - 53) (-1074)) := by
  simp only [shiftToTargetExponent, shiftToExponent, Format.targetExponent, mantissaBits_eq,
    minExponent_eq]
  omega

/-- The mantissa that the first shift and rounding leave, and its exponent. -/
def firstRound (m : Nat) (e : Int) (a : Accuracy) : Nat × Int :=
  let shifted := shiftToTargetExponent Format.binary64 m e a
  (shifted.1.roundedMantissa, shifted.2)

theorem snd_firstRound :
    (firstRound m e a).2 = max e (max (totalExponent m e - 53) (-1074)) :=
  shiftToTargetExponent_snd (a := a)

/-- The exponent fits after the second shift if it did after the first, and rounding did not carry
out of the range. -/
theorem fits_of_firstRound (he : (firstRound m e a).2 ≤ 971)
    (ht : totalExponent (firstRound m e a).1 (firstRound m e a).2 ≤ 1024) :
    Fits (roundWithAccuracy Format.binary64 s m e a) := by
  have hfinal : (shiftToTargetExponent Format.binary64 (firstRound m e a).1 (firstRound m e a).2
      .exact).2 ≤ 971 := by
    rw [shiftToTargetExponent_snd]
    omega
  rw [roundWithAccuracy]
  simp only
  split
  · trivial
  · exact hfinal

/-- The first shift is as long as the exponent grows. -/
theorem fst_firstRound :
    (firstRound m e a).1 = (ExtendedMantissa.ofMantissaAndAccuracy m a >>>
      ((firstRound m e a).2 - e).toNat).roundedMantissa := by
  simp only [firstRound, shiftToTargetExponent, shiftToExponent]
  congr 2
  omega

theorem log2_le_of_lt_pow {k : Nat} (h : m < 2 ^ (k + 1)) : m.log2 ≤ k := by
  by_cases hm : m = 0
  · simp [hm]
  · exact Nat.lt_succ_iff.1 ((Nat.log2_lt hm).2 h)

/-- Below half of the range rounding stays in the range. -/
theorem fits_of_lt_half (he : e ≤ 971) (ht : totalExponent m e ≤ 1023) :
    Fits (roundWithAccuracy Format.binary64 s m e a) := by
  have hsnd : (firstRound m e a).2 = max e (max (totalExponent m e - 53) (-1074)) := snd_firstRound
  refine fits_of_firstRound (by omega) ?_
  generalize hk : ((firstRound m e a).2 - e).toNat = k
  have hle : (firstRound m e a).1 ≤ m / 2 ^ k + 1 := by
    rw [fst_firstRound, hk]
    refine roundedMantissa_le.trans_eq ?_
    rw [mantissa_shiftRight, mantissa_ofMantissaAndAccuracy]
  have hdiv : m / 2 ^ k < 2 ^ (m.log2 - k + 1) := by
    rw [Nat.div_lt_iff_lt_mul (Nat.two_pow_pos k), ← Nat.pow_add]
    exact Nat.lt_log2_self.trans_le (Nat.pow_le_pow_right Nat.two_pos (by omega))
  have hlog : (firstRound m e a).1.log2 ≤ m.log2 - k + 1 := by
    refine log2_le_of_lt_pow ?_
    have hpos : 0 < 2 ^ (m.log2 - k + 1) := Nat.two_pow_pos _
    rw [Nat.pow_succ]
    omega
  simp only [totalExponent] at ht hsnd ⊢
  omega

/-- Rounding stays in the range below half a step above the greatest double. -/
theorem fits_of_lt_top {k : Nat} (hk : e + k = 971) (hm : m + 2 ^ k / 2 < 2 ^ (53 + k)) :
    Fits (roundWithAccuracy Format.binary64 s m e .exact) := by
  have hlog : m.log2 ≤ 52 + k := by
    refine log2_le_of_lt_pow ?_
    rw [show 52 + k + 1 = 53 + k by omega]
    exact (Nat.le_add_right _ _).trans_lt hm
  by_cases hhalf : totalExponent m e ≤ 1023
  · exact fits_of_lt_half (by omega) hhalf
  have htop : totalExponent m e = 1024 := by
    simp only [totalExponent] at hhalf ⊢
    omega
  have hsnd : (firstRound m e .exact).2 = 971 := by
    rw [snd_firstRound, htop]
    omega
  refine fits_of_firstRound hsnd.le ?_
  have hfst : (firstRound m e .exact).1 < 2 ^ 53 := by
    rw [fst_firstRound, hsnd, show (971 - e).toNat = k by omega]
    cases k with
    | zero =>
      rw [roundedMantissa_of_not_roundBit rfl, mantissa_shiftRight, mantissa_ofMantissaAndAccuracy]
      simpa using hm
    | succ n =>
      have hle := roundedMantissa_mul_le (m := m) (n := n)
      refine Nat.lt_of_mul_lt_mul_right (a := 2 ^ (n + 1)) (hle.trans_lt ?_)
      rwa [Nat.pow_succ, Nat.mul_div_cancel _ Nat.two_pos, Nat.pow_add] at hm
  have hlog' : (firstRound m e .exact).1.log2 ≤ 52 := log2_le_of_lt_pow hfst
  rw [hsnd, totalExponent]
  omega

/-- The same for a number that is brought to its exponent first. -/
theorem fits_round {k : Nat} (hk : e + k = 971) (hm : m + 2 ^ k / 2 < 2 ^ (53 + k)) :
    Fits (UnpackedFloat.round Format.binary64 s m e) := by
  simp only [UnpackedFloat.round, decreaseExponent, Format.targetExponent, mantissaBits_eq,
    minExponent_eq]
  generalize hsh : (e - max (totalExponent m e - ↑53) (-1074)).toNat = sh
  by_cases htop : totalExponent m e = 1024
  · obtain rfl : sh = 0 := by omega
    simpa using fits_of_lt_top hk hm
  · have hlog : m.log2 ≤ 52 + k := by
      refine log2_le_of_lt_pow ?_
      rw [show 52 + k + 1 = 53 + k by omega]
      exact (Nat.le_add_right _ _).trans_lt hm
    have hshifted : (m <<< sh).log2 ≤ m.log2 + sh := by
      refine log2_le_of_lt_pow ?_
      rw [Nat.shiftLeft_eq, show m.log2 + sh + 1 = m.log2 + 1 + sh by omega, Nat.pow_add]
      exact Nat.mul_lt_mul_of_pos_right Nat.lt_log2_self (Nat.two_pow_pos sh)
    refine fits_of_lt_half (by omega) ?_
    simp only [totalExponent] at htop ⊢
    omega

/-- The same for a signed number. -/
theorem fits_normalize {M : Int} {k : Nat} (hk : e + k = 971)
    (hM : M.natAbs + 2 ^ k / 2 < 2 ^ (53 + k)) :
    Fits (UnpackedFloat.normalize Format.binary64 M e .positive) := by
  rw [UnpackedFloat.normalize]
  split
  · next h =>
    refine fits_round hk ?_
    have hneg : M < 0 := Int.compare_eq_lt.1 h
    rwa [show (-M).toNat = M.natAbs by omega]
  · trivial
  · next h =>
    refine fits_round hk ?_
    have hpos : 0 < M := Int.compare_eq_gt.1 h
    rwa [show M.toNat = M.natAbs by omega]

end Rounding

/-! ## Operations -/

theorem natAbs_apply_sub_le (s t : Sign) (a b : Nat) :
    (s.apply a - t.apply b).natAbs ≤ a + b := by
  cases s <;> cases t <;> simp only [Sign.apply] <;> omega

/-- The double one, taken apart. -/
theorem unpack_one :
    (1.0 : Float).toModel.unpack = .finite .positive (2 ^ 52) (-52) (by decide) := by
  rfl

theorem isFinite_neg {x : Float} (h : x.isFinite = true) : (-x).isFinite = true := by
  refine isFinite_pack ?_
  have hx := unpacked_of_isFinite h
  cases hu : x.toModel.unpack with
  | zero s => trivial
  | finite s m e hm =>
    rw [hu] at hx
    exact hx.fits
  | infinity s =>
    rw [hu] at hx
    cases hx
  | notANumber =>
    rw [hu] at hx
    cases hx

/-- **One less a finite double is finite.** -/
theorem isFinite_one_sub {x : Float} (h : x.isFinite = true) : (1.0 - x).isFinite = true := by
  refine isFinite_pack ?_
  rw [unpack_one]
  have hx := unpacked_of_isFinite h
  cases hu : x.toModel.unpack with
  | zero s => exact (by decide : (-52 : Int) ≤ 971)
  | infinity s =>
    rw [hu] at hx
    cases hx
  | notANumber =>
    rw [hu] at hx
    cases hx
  | finite s m e hm =>
    rw [hu] at hx
    obtain ⟨⟩ | ⟨hm53, hlow, hhigh⟩ := hx
    simp only [UnpackedFloat.sub, decreaseExponent, Nat.shiftLeft_eq]
    -- both mantissas are brought to the smaller exponent, which lies `k` below the greatest one
    obtain ⟨k, hk⟩ : ∃ k : Nat, min (-52) e + k = 971 :=
      ⟨(971 - min (-52) e).toNat, by omega⟩
    have hone : 2 ^ 52 * 2 ^ (-52 - min (-52) e).toNat ≤ 2 ^ (k - 971) := by
      rw [← Nat.pow_add]
      exact Nat.pow_le_pow_right Nat.two_pos (by omega)
    have hx : m * 2 ^ (e - min (-52) e).toNat ≤ (2 ^ 53 - 1) * 2 ^ k :=
      Nat.mul_le_mul (by omega) (Nat.pow_le_pow_right Nat.two_pos (by omega))
    refine fits_normalize hk ?_
    have hsigned := natAbs_apply_sub_le .positive s (2 ^ 52 * 2 ^ (-52 - min (-52) e).toNat)
      (m * 2 ^ (e - min (-52) e).toNat)
    have hsmall : 2 ^ (k - 971) ≤ 2 ^ (k - 1) / 2 := by
      rw [Nat.le_div_iff_mul_le Nat.two_pos, ← Nat.pow_succ]
      exact Nat.pow_le_pow_right Nat.two_pos (by omega)
    have hhalf : 2 ^ k = 2 ^ (k - 1) * 2 := by
      rw [← Nat.pow_succ]
      congr 1
      omega
    have hpos : 0 < 2 ^ (k - 1) := Nat.two_pow_pos _
    rw [Nat.pow_add]
    omega

theorem log2_div_le {m n sh : Nat} (hn : n ≠ 0) :
    (m <<< sh / n).log2 ≤ m.log2 + sh - n.log2 := by
  refine log2_le_of_lt_pow ?_
  rw [Nat.div_lt_iff_lt_mul (Nat.pos_of_ne_zero hn), Nat.shiftLeft_eq]
  have hm : m * 2 ^ sh < 2 ^ (m.log2 + 1) * 2 ^ sh :=
    Nat.mul_lt_mul_of_pos_right Nat.lt_log2_self (Nat.two_pow_pos sh)
  refine hm.trans_le ?_
  calc 2 ^ (m.log2 + 1) * 2 ^ sh = 2 ^ (m.log2 + 1 + sh) := (Nat.pow_add ..).symm
    _ ≤ 2 ^ (m.log2 + sh - n.log2 + 1 + n.log2) := Nat.pow_le_pow_right Nat.two_pos (by omega)
    _ = 2 ^ (m.log2 + sh - n.log2 + 1) * 2 ^ n.log2 := Nat.pow_add ..
    _ ≤ 2 ^ (m.log2 + sh - n.log2 + 1) * n := Nat.mul_le_mul_left _ (Nat.log2_self_le hn)

/-- The magnitude of a finite double is two or more. -/
def isTwoOrMore (y : Float) : Bool :=
  match y.toModel.unpack with
  | .finite _ m e _ => 2 ≤ totalExponent m e
  | .zero _ | .infinity _ | .notANumber => false

/-- **A finite double over a number whose magnitude is two or more is finite.** -/
theorem isFinite_div {x y : Float} (h : x.isFinite = true) (hy : isTwoOrMore y = true) :
    (x / y).isFinite = true := by
  refine isFinite_pack ?_
  have hx := unpacked_of_isFinite h
  rw [isTwoOrMore] at hy
  cases hv : y.toModel.unpack with
  | zero t => simp [hv] at hy
  | infinity t => simp [hv] at hy
  | notANumber => simp [hv] at hy
  | finite t m' e' hm' =>
    simp only [hv, decide_eq_true_eq] at hy
    cases hu : x.toModel.unpack with
    | zero s => trivial
    | infinity s =>
      rw [hu] at hx
      cases hx
    | notANumber =>
      rw [hu] at hx
      cases hx
    | finite s m e hm =>
      rw [hu] at hx
      obtain ⟨⟩ | ⟨hm53, hlow, hhigh⟩ := hx
      simp only [UnpackedFloat.div, divCore, Format.targetExponent, mantissaBits_eq, minExponent_eq]
      have hlog : m.log2 ≤ 52 := log2_le_of_lt_pow hm53
      simp only [totalExponent] at hy ⊢
      generalize hsh : (e - e' - min (e - e') (max (↑m.log2 + 1 + e - (↑m'.log2 + 1 + e') - ↑53)
        (-1074))).toNat = sh
      have hquotient : (m <<< sh / m').log2 ≤ m.log2 + sh - m'.log2 := log2_div_le hm'.ne'
      refine fits_of_lt_half (by omega) ?_
      simp only [totalExponent]
      omega

/-! ## Doubles made of bits and of natural numbers -/

/-- A pattern below that of the infinity is a finite double. -/
theorem isFinite_ofBits {b : UInt64} (h : b.toNat < 2047 * 2 ^ 52) :
    (Float.ofBits b).isFinite = true := by
  refine isFinite_pack (unpacked_unpack fun hones => ?_).fits
  have hfield : (@unpackExponent Format.binary64 b.toBitVec).toNat =
      b.toNat / 2 ^ 52 % 2 ^ 11 := by
    simp [unpackExponent, Nat.shiftRight_eq_div_pow]
  rw [hones] at hfield
  have hmax : b.toNat / 2 ^ 52 % 2 ^ 11 = 2047 := hfield.symm.trans (by decide)
  omega

theorem roundDiv_le (num den : Nat) : roundDiv num den ≤ num / den + 1 := by
  simp only [roundDiv]
  split
  · omega
  · split
    · omega
    · split <;> omega

theorem isFinite_assemble {m : Nat} {e : Int} (he : e ≤ 900) (hm : m < 2 ^ 55) :
    (assemble m e).isFinite = true := by
  have hbits : ∀ x, x < 2047 * 2 ^ 52 → (Float.ofBits (UInt64.ofNat x)).isFinite = true := by
    intro x hx
    refine isFinite_ofBits ?_
    rw [UInt64.toNat_ofNat']
    exact (Nat.mod_le _ _).trans_lt hx
  simp only [assemble, Nat.pow_eq]
  split
  · omega
  · split
    · exact hbits _ (by omega)
    · exact hbits _ (by omega)

/-- Whichever of the two exponents near its size is taken, a natural number of 64 bits is rounded to
a finite double. -/
theorem isFinite_rounded {n : Nat} {e : Int} (h : n < 2 ^ 64) (hlow : (n.log2 : Int) - 53 ≤ e)
    (hhigh : e ≤ n.log2) :
    (if roundDiv (n * 2 ^ (-e).toNat) (1 * 2 ^ e.toNat) = 2 ^ 53 then assemble (2 ^ 52) (e + 1)
      else assemble (roundDiv (n * 2 ^ (-e).toNat) (1 * 2 ^ e.toNat)) e).isFinite = true := by
  have hlog : n.log2 ≤ 63 := log2_le_of_lt_pow h
  have hmantissa : roundDiv (n * 2 ^ (-e).toNat) (1 * 2 ^ e.toNat) < 2 ^ 55 := by
    have hdiv : n * 2 ^ (-e).toNat / (1 * 2 ^ e.toNat) < 2 ^ 54 := by
      rw [Nat.one_mul, Nat.div_lt_iff_lt_mul (Nat.two_pow_pos _), ← Nat.pow_add]
      calc n * 2 ^ (-e).toNat < 2 ^ (n.log2 + 1) * 2 ^ (-e).toNat :=
            Nat.mul_lt_mul_of_pos_right Nat.lt_log2_self (Nat.two_pow_pos _)
        _ = 2 ^ (n.log2 + 1 + (-e).toNat) := (Nat.pow_add ..).symm
        _ ≤ 2 ^ (54 + e.toNat) := Nat.pow_le_pow_right Nat.two_pos (by omega)
    have hround := roundDiv_le (n * 2 ^ (-e).toNat) (1 * 2 ^ e.toNat)
    omega
  split
  · exact isFinite_assemble (by omega) (by norm_num)
  · exact isFinite_assemble (by omega) hmantissa

/-- **A natural number of 64 bits is a finite double.** -/
theorem isFinite_ofNat {n : Nat} (h : n < 2 ^ 64) : (ofNat n).isFinite = true := by
  rw [ofNat, ofRatio]
  by_cases hn : n = 0
  · rw [if_pos hn]
    exact isFinite_ofBits (by norm_num)
  · rw [if_neg hn]
    have hone : Int.ofNat (Nat.log2 1) = 0 := rfl
    have hlog : Int.ofNat n.log2 = n.log2 := rfl
    refine isFinite_rounded h ?_ ?_
    · split <;> omega
    · split <;> omega

theorem isFinite_ofInt {i : Int} (h : i.natAbs < 2 ^ 64) : (ofInt i).isFinite = true := by
  rw [ofInt]
  split
  · exact isFinite_neg (isFinite_ofNat h)
  · exact isFinite_ofNat h

end HeuristicEvolution.Binary
