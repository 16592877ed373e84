import Aes70.Ieee.Order

/-!
# Conversion to a wider format and back

A number of one format is a number of every wider one, so that conversion there and back changes
nothing. Both conversions round a dyadic number that has a datum.

* `ofDyadic_toDyadic` : a finite datum is the rounding of its own value.
* `toDyadic_ofDyadic` : a value that fits the format is not changed by rounding.
* `convert_convert` : the conversion to a wider format is undone by the one back.
-/

namespace Ieee.Binary

variable {e m : ℕ}

/-! ### Encodings -/

theorem mag_lt (x : Binary e m) : x.mag < 2 ^ (e + m) := Nat.mod_lt _ (Nat.two_pow_pos _)

/-- Sign and magnitude field are all there is. -/
theorem pack_sign_mag (x : Binary e m) : pack x.sign x.mag = x := by
  have hbits : x.bits.toNat = x.sign.toNat * 2 ^ (e + m) + x.mag := by
    have hlt : x.bits.toNat < 2 ^ (e + m) * 2 := by
      rw [← Nat.pow_succ]
      exact x.bits.isLt
    have hdiv := Nat.div_add_mod x.bits.toNat (2 ^ (e + m))
    have hsign : x.sign = decide (2 ^ (e + m) ≤ x.bits.toNat) := by
      rw [sign, BitVec.msb_eq_decide]
      simp
    by_cases hge : 2 ^ (e + m) ≤ x.bits.toNat
    · have hone : x.bits.toNat / 2 ^ (e + m) = 1 := Nat.div_eq_of_lt_le (by omega) (by omega)
      rw [hone] at hdiv
      simp only [hsign, hge, decide_true, Bool.toNat_true, mag]
      omega
    · have hzero : x.bits.toNat / 2 ^ (e + m) = 0 := Nat.div_eq_of_lt (Nat.lt_of_not_le hge)
      rw [hzero] at hdiv
      simp only [hsign, hge, decide_false, Bool.toNat_false, mag]
      omega
  have heq : (pack x.sign x.mag : Binary e m).bits = x.bits :=
    BitVec.eq_of_toNat_eq ((toNat_pack x.mag_lt).trans hbits.symm)
  cases x
  simpa [pack] using heq

/-- The significand and exponent a magnitude field stands for: `n` is the exponent above the least
one, and the leading bit of the significand is part of the product. -/
theorem toDyadic_of_mag {x : Binary e m} {n T : ℕ} (hmag : x.mag = n * 2 ^ m + T)
    (hT : T < 2 ^ (m + 1)) (hn : n ≠ 0 → 2 ^ m ≤ T) : x.toDyadic = (T, qmin e m + n) := by
  have hpos := Nat.two_pow_pos m
  rw [Nat.pow_succ] at hT
  unfold toDyadic
  dsimp only
  by_cases hlow : T < 2 ^ m
  · -- a subnormal datum
    obtain rfl : n = 0 := by
      by_contra h
      exact absurd (hn h) (Nat.not_le.2 hlow)
    rw [Nat.zero_mul, Nat.zero_add] at hmag
    rw [hmag, Nat.div_eq_of_lt hlow, if_pos rfl, Nat.mod_eq_of_lt hlow, Int.natCast_zero, Int.add_zero]
  · have hfield : x.mag = 2 ^ m * (n + 1) + (T - 2 ^ m) := by
      rw [hmag, Nat.mul_comm, Nat.mul_add, Nat.mul_one]
      omega
    have hfrac : T - 2 ^ m < 2 ^ m := by omega
    rw [hfield, Nat.mul_add_div hpos, Nat.div_eq_of_lt hfrac, Nat.add_zero,
      if_neg (Nat.succ_ne_zero n), Nat.mul_add_mod, Nat.mod_eq_of_lt hfrac, Nat.add_sub_cancel,
      Nat.add_sub_cancel' (Nat.le_of_not_lt hlow)]

/-- The magnitude field in terms of the significand and the exponent. -/
theorem mag_eq_toDyadic (x : Binary e m) : ∃ n : ℕ, x.mag = n * 2 ^ m + x.toDyadic.1 ∧
    x.toDyadic.2 = qmin e m + n ∧ x.toDyadic.1 < 2 ^ (m + 1) ∧ (n ≠ 0 → 2 ^ m ≤ x.toDyadic.1) := by
  have hpos := Nat.two_pow_pos m
  have hdiv := Nat.div_add_mod x.mag (2 ^ m)
  have hmod := Nat.mod_lt x.mag hpos
  rw [Nat.pow_succ]
  unfold toDyadic
  dsimp only
  by_cases h0 : x.mag / 2 ^ m = 0
  · rw [h0, Nat.mul_zero] at hdiv
    rw [if_pos h0]
    exact ⟨0, by omega, (Int.add_zero _).symm, by dsimp only; omega, fun h => absurd rfl h⟩
  · rw [if_neg h0]
    obtain ⟨n, hn⟩ := Nat.exists_eq_succ_of_ne_zero h0
    rw [hn, Nat.mul_succ, Nat.mul_comm] at hdiv
    refine ⟨n, by dsimp only; omega, ?_, by dsimp only; omega, fun _ => Nat.le_add_right _ _⟩
    rw [hn, Nat.succ_eq_add_one, Nat.add_sub_cancel]

/-! ### Rounding what is exact -/

/-- The exponent that rounding chooses for `M * 2 ^ E`. -/
def scale (e m M : ℕ) (E : ℤ) : ℤ := max ((Nat.log2 M : ℤ) + E - m) (qmin e m)

section Exact

variable {M : ℕ} {E : ℤ}

theorem log2_mul_two_pow (h0 : M ≠ 0) (k : ℕ) : (M * 2 ^ k).log2 = M.log2 + k := by
  induction k with
  | zero => rw [Nat.pow_zero, Nat.mul_one, Nat.add_zero]
  | succ k ih =>
    have hne : M * 2 ^ k ≠ 0 := Nat.mul_ne_zero h0 (Nat.two_pow_pos k).ne'
    rw [Nat.pow_succ', Nat.mul_left_comm, Nat.log2_two_mul hne, ih, Nat.add_assoc]

/-- Cutting off zeros is exact. -/
theorem shiftRound_mul (M j k : ℕ) : shiftRound (M * 2 ^ (j + k)) k = M * 2 ^ j := by
  have hsplit : M * 2 ^ (j + k) = M * 2 ^ j * 2 ^ k := by rw [Nat.pow_add, Nat.mul_assoc]
  have hpos := Nat.two_pow_pos k
  unfold shiftRound
  dsimp only
  rw [hsplit, Nat.mul_div_cancel _ hpos, Nat.mul_mod_left]
  exact if_pos (by omega)

theorem ofDyadic_eq (s : Bool) (h0 : M ≠ 0) : (ofDyadic s M E : Binary e m) =
    pack s (min ((scale e m M E - qmin e m).toNat * 2 ^ m +
      if scale e m M E ≤ E then M * 2 ^ (E - scale e m M E).toNat
      else shiftRound M (scale e m M E - E).toNat) (infMag e m)) := if_neg h0

/-- Shifted to the left, with the exponent made up for, a value that fits is rounded to the same
datum. -/
theorem ofDyadic_shift (s : Bool) (h : scale e m M E ≤ E) (k : ℕ) :
    (ofDyadic s (M * 2 ^ k) (E - k) : Binary e m) = ofDyadic s M E := by
  by_cases h0 : M = 0
  · rw [h0, Nat.zero_mul]
    rfl
  have hne : M * 2 ^ k ≠ 0 := Nat.mul_ne_zero h0 (Nat.two_pow_pos k).ne'
  have hscale : scale e m (M * 2 ^ k) (E - k) = scale e m M E := by
    unfold scale
    rw [log2_mul_two_pow h0]
    push_cast
    congr 1
    omega
  rw [ofDyadic_eq s h0, ofDyadic_eq s hne, hscale, if_pos h]
  congr 3
  split_ifs with hle
  · rw [Nat.mul_assoc, ← Nat.pow_add]
    congr 2
    omega
  · -- the zeros that were added are cut off again
    have hk : k = (E - scale e m M E).toNat + (scale e m M E - (E - k)).toNat := by omega
    have hshift := shiftRound_mul M (E - scale e m M E).toNat (scale e m M E - (E - k)).toNat
    rwa [← hk] at hshift

/-- **A value that fits** the format is the value of the datum it is rounded to. -/
theorem toDyadic_ofDyadic (s : Bool) (h0 : M ≠ 0) (h : scale e m M E ≤ E)
    (hexp : scale e m M E - qmin e m + 2 < 2 ^ e) :
    (ofDyadic s M E : Binary e m).sign = s ∧ (ofDyadic s M E : Binary e m).mag < infMag e m ∧
      (ofDyadic s M E : Binary e m).toDyadic =
        (M * 2 ^ (E - scale e m M E).toNat, scale e m M E) := by
  have hT0 : M * 2 ^ (E - scale e m M E).toNat ≠ 0 :=
    Nat.mul_ne_zero h0 (Nat.two_pow_pos _).ne'
  have hlog : (M * 2 ^ (E - scale e m M E).toNat).log2 =
      M.log2 + (E - scale e m M E).toNat := log2_mul_two_pow h0 _
  have hmax : (M.log2 : ℤ) + E - m ≤ scale e m M E ∧ qmin e m ≤ scale e m M E :=
    ⟨le_max_left _ _, le_max_right _ _⟩
  have hor : scale e m M E = (M.log2 : ℤ) + E - m ∨ scale e m M E = qmin e m := by
    unfold scale
    omega
  rw [ofDyadic_eq s h0, if_pos h]
  generalize scale e m M E = q at *
  generalize hT : M * 2 ^ (E - q).toNat = T at *
  -- `n` is the exponent field, 0 for the subnormal numbers
  obtain ⟨n, hn⟩ : ∃ n : ℕ, q = qmin e m + n := ⟨(q - qmin e m).toNat, by omega⟩
  have hnat : (q - qmin e m).toNat = n := by omega
  have hlt : T < 2 ^ (m + 1) := (Nat.log2_lt hT0).1 (by omega)
  have hge (h : n ≠ 0) : 2 ^ m ≤ T := by
    have hm : T.log2 = m := by omega
    rw [← hm]
    exact Nat.log2_self_le hT0
  -- below infinity, so the result is not cut off
  have hfit : n * 2 ^ m + T < infMag e m := by
    have hexp' : n + 2 < 2 ^ e := by
      have hcast : ((n + 2 : ℕ) : ℤ) < ((2 ^ e : ℕ) : ℤ) := by
        push_cast
        omega
      exact_mod_cast hcast
    have hmul := Nat.mul_le_mul_right (2 ^ m) (show n + 2 ≤ 2 ^ e - 1 by omega)
    rw [Nat.add_mul] at hmul
    rw [Nat.pow_succ] at hlt
    unfold infMag
    omega
  rw [hnat, Nat.min_eq_left hfit.le]
  have hbound := hfit.trans (infMag_lt e m)
  refine ⟨sign_pack hbound, (mag_pack hbound).symm ▸ hfit, ?_⟩
  rw [toDyadic_of_mag (mag_pack hbound) hlt hge, hn]

end Exact

/-! ### Data -/

section Data

variable {x : Binary e m}

/-- The exponent of a datum is the one rounding chooses. -/
theorem scale_toDyadic (h0 : x.toDyadic.1 ≠ 0) :
    scale e m x.toDyadic.1 x.toDyadic.2 = x.toDyadic.2 := by
  obtain ⟨n, -, hexp, hlt, hge⟩ := x.mag_eq_toDyadic
  have hle : x.toDyadic.1.log2 ≤ m := Nat.lt_succ_iff.1 ((Nat.log2_lt h0).2 hlt)
  unfold scale
  by_cases hn : n = 0
  · omega
  · have hlog : m ≤ x.toDyadic.1.log2 := (Nat.le_log2 h0).2 (hge hn)
    omega

/-- **A finite datum** is the rounding of its own value. -/
theorem ofDyadic_toDyadic (hx : x.mag < infMag e m) :
    ofDyadic x.sign x.toDyadic.1 x.toDyadic.2 = x := by
  obtain ⟨n, hmag, hexp, -, hge⟩ := x.mag_eq_toDyadic
  by_cases h0 : x.toDyadic.1 = 0
  · obtain rfl : n = 0 := by
      by_contra h
      have := hge h
      have := Nat.two_pow_pos m
      omega
    rw [h0, Nat.zero_mul] at hmag
    rw [h0]
    conv_rhs => rw [← pack_sign_mag x, hmag]
    exact if_pos rfl
  · have hnat : (x.toDyadic.2 - qmin e m).toNat = n := by omega
    rw [ofDyadic_eq _ h0, scale_toDyadic h0, if_pos (Int.le_refl _), Int.sub_self, Int.toNat_zero,
      Nat.pow_zero, Nat.mul_one, hnat, ← hmag, Nat.min_eq_left hx.le, pack_sign_mag]

end Data

/-! ### Conversion -/

/-- What is converted to a number is one. -/
theorem isNaN_of_convert {e' m' : ℕ} (h1 : 1 ≤ m') {x : Binary e m}
    (h : (x.convert : Binary e' m').isNaN = false) : x.isNaN = false := by
  by_contra hnan
  rw [Bool.not_eq_false] at hnan
  have hpay : 2 ^ (m' - 1) < 2 ^ m' := Nat.pow_lt_pow_right (by omega) (by omega)
  have hlt : infMag e' m' + 2 ^ (m' - 1) < 2 ^ (e' + m') := by
    have hpos := Nat.two_pow_pos e'
    have hmul : (2 ^ e' - 1) * 2 ^ m' + 2 ^ m' = 2 ^ (e' + m') := by
      rw [← Nat.succ_mul, Nat.succ_eq_add_one, Nat.sub_add_cancel hpos, Nat.pow_add]
    unfold infMag
    omega
  rw [convert, if_pos hnan, isNaN, mag_pack hlt] at h
  have := Nat.two_pow_pos (m' - 1)
  exact absurd (of_decide_eq_false h) (by omega)

/-- A conversion keeps what is not a number, and nothing else becomes one. -/
theorem isNaN_convert_eq {e' m' : ℕ} (h1 : 1 ≤ m') (x : Binary e m) :
    (x.convert : Binary e' m').isNaN = x.isNaN := by
  cases hx : x.isNaN with
  | false => exact isNaN_convert hx
  | true =>
    by_contra h
    rw [Bool.not_eq_true] at h
    rw [isNaN_of_convert h1 h] at hx
    cases hx

section Wider

variable {e' m' : ℕ} (he : e ≤ e') (hm : m ≤ m') (h2 : 2 ≤ e)
include he hm h2

/-- A value of the format fits the wider one. -/
theorem scale_wider {x : Binary e m} (hx : x.mag < infMag e m) (h0 : x.toDyadic.1 ≠ 0) :
    scale e' m' x.toDyadic.1 x.toDyadic.2 ≤ x.toDyadic.2 ∧
      scale e' m' x.toDyadic.1 x.toDyadic.2 - qmin e' m' + 2 < 2 ^ e' := by
  obtain ⟨n, hmag, hexp, hlt, hge⟩ := x.mag_eq_toDyadic
  have hle : x.toDyadic.1.log2 ≤ m := Nat.lt_succ_iff.1 ((Nat.log2_lt h0).2 hlt)
  have hbias {k : ℕ} (hk : 2 ≤ k) : 2 ≤ 2 ^ (k - 1) ∧ 2 ^ k = 2 * 2 ^ (k - 1) := by
    refine ⟨Nat.le_self_pow (by omega) 2, ?_⟩
    rw [← Nat.pow_succ', Nat.succ_eq_add_one, Nat.sub_add_cancel (by omega)]
  obtain ⟨htwo, hdouble⟩ := hbias h2
  obtain ⟨-, hdouble'⟩ := hbias (h2.trans he)
  have hwide : 2 ^ (e - 1) ≤ 2 ^ (e' - 1) := Nat.pow_le_pow_right (by omega) (by omega)
  -- the exponent field of a finite value is not the one of infinity
  have hn : n + 2 < 2 ^ e := by
    by_cases hzero : n = 0
    · omega
    · have hfield := hge hzero
      have hmul : (n + 1) * 2 ^ m < (2 ^ e - 1) * 2 ^ m := by
        unfold infMag at hx
        rw [Nat.add_mul, Nat.one_mul]
        omega
      have := Nat.lt_of_mul_lt_mul_right hmul
      omega
  have hcast (k : ℕ) : ((2 ^ k : ℕ) : ℤ) = 2 ^ k := by push_cast; rfl
  -- the wider format goes further down
  have hleast : qmin e' m' ≤ qmin e m := by
    unfold qmin
    rw [← hcast, ← hcast]
    omega
  have hscale : scale e' m' x.toDyadic.1 x.toDyadic.2 = (x.toDyadic.1.log2 : ℤ) + x.toDyadic.2 - m' ∨
      scale e' m' x.toDyadic.1 x.toDyadic.2 = qmin e' m' := by
    unfold scale
    omega
  rw [← hcast]
  rcases hscale with heq | heq
  · rw [heq, hexp]
    unfold qmin
    rw [← hcast, ← hcast]
    omega
  · rw [heq]
    omega

/-- **Conversion to a wider format** and back. -/
theorem convert_convert {x : Binary e m} (hx : x.isNaN = false) :
    ((x.convert : Binary e' m').convert : Binary e m) = x := by
  have hle : x.mag ≤ infMag e m := by simpa [isNaN] using hx
  have hone : (x.convert : Binary e' m') = if x.mag = infMag e m then pack x.sign (infMag e' m')
      else ofDyadic x.sign x.toDyadic.1 x.toDyadic.2 := by
    unfold convert
    rw [if_neg (by rw [hx]; exact Bool.false_ne_true)]
  rw [convert, if_neg (by rw [isNaN_convert hx]; exact Bool.false_ne_true), hone]
  by_cases hinf : x.mag = infMag e m
  · -- an infinity
    rw [if_pos hinf, mag_pack (infMag_lt e' m'), if_pos rfl, sign_pack (infMag_lt e' m'), ← hinf,
      pack_sign_mag]
  have hfin : x.mag < infMag e m := lt_of_le_of_ne hle hinf
  rw [if_neg hinf]
  by_cases h0 : x.toDyadic.1 = 0
  · have hzero : (ofDyadic x.sign 0 x.toDyadic.2 : Binary e' m') = pack x.sign 0 := if_pos rfl
    -- a zero keeps its sign
    have hpos : 0 < infMag e' m' := by
      refine Nat.mul_pos (Nat.sub_pos_of_lt ?_) (Nat.two_pow_pos m')
      exact Nat.one_lt_two_pow (by omega)
    have hlt : 0 < 2 ^ (e' + m') := Nat.two_pow_pos _
    have hback : (pack x.sign 0 : Binary e' m').toDyadic = (0, qmin e' m' + (0 : ℕ)) :=
      toDyadic_of_mag (by rw [mag_pack hlt, Nat.zero_mul]) (Nat.two_pow_pos _) (absurd rfl)
    rw [h0, hzero, mag_pack hlt, if_neg hpos.ne, sign_pack hlt, hback]
    conv_rhs => rw [← ofDyadic_toDyadic hfin, h0]
    rfl
  · obtain ⟨hfit, hexp⟩ := scale_wider he hm h2 hfin h0
    obtain ⟨hsign, hmag, hdyadic⟩ := toDyadic_ofDyadic x.sign h0 hfit hexp
    have hshift := ofDyadic_shift (e := e) (m := m) x.sign (scale_toDyadic h0).le
      (x.toDyadic.2 - scale e' m' x.toDyadic.1 x.toDyadic.2).toNat
    rw [if_neg hmag.ne, hsign, hdyadic]
    have hback : x.toDyadic.2 - ((x.toDyadic.2 - scale e' m' x.toDyadic.1 x.toDyadic.2).toNat : ℤ) =
        scale e' m' x.toDyadic.1 x.toDyadic.2 := by omega
    rw [hback] at hshift
    rw [hshift, ofDyadic_toDyadic hfin]

end Wider

end Ieee.Binary
