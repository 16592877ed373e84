import Aes70.Ieee.Basic

/-!
# Order and exact integers

* `Binary.le` : the order comparison that holds of two numbers exactly if they are not the other way
  round.
* `Binary.trunc_of_eqv` : equal data have the same integer part.
* `Binary.isNaN_ofDyadic`, `Binary.isNaN_convert` : which operations can give something else than a
  number.
* `Binary.key_ofInt` : integers of up to `m + 1` bits are represented exactly; `lt_ofInt_iff`,
  `trunc_ofInt` are what follows for comparisons and truncation.
-/

namespace Ieee

namespace Binary

variable {e m : ℕ}

/-- `x <= y`. -/
def le (x y : Binary e m) : Bool := !x.isNaN && !y.isNaN && decide (x.key ≤ y.key)

section Order

variable {x y z : Binary e m}

theorem le_iff : x.le y = true ↔ x.isNaN = false ∧ y.isNaN = false ∧ x.key ≤ y.key := by
  simp [le, and_assoc]

theorem lt_iff : x.lt y = true ↔ x.isNaN = false ∧ y.isNaN = false ∧ x.key < y.key := by
  simp [lt, and_assoc]

theorem eqv_iff : x.eqv y = true ↔ x.isNaN = false ∧ y.isNaN = false ∧ x.key = y.key := by
  simp [eqv, and_assoc]

theorem le_refl_of_number (hx : x.isNaN = false) : x.le x = true := le_iff.2 ⟨hx, hx, Int.le_refl _⟩

theorem le_trans_of (h : x.le y = true) (h' : y.le z = true) : x.le z = true := by
  obtain ⟨hx, -, hle⟩ := le_iff.1 h
  obtain ⟨-, hz, hle'⟩ := le_iff.1 h'
  exact le_iff.2 ⟨hx, hz, Int.le_trans hle hle'⟩

theorem le_of_lt (h : x.lt y = true) : x.le y = true := by
  obtain ⟨hx, hy, hlt⟩ := lt_iff.1 h
  exact le_iff.2 ⟨hx, hy, Int.le_of_lt hlt⟩

/-- Numbers are in order if they are not the other way round. -/
theorem le_of_not_lt (hx : x.isNaN = false) (hy : y.isNaN = false) (h : y.lt x = false) :
    x.le y = true := by
  refine le_iff.2 ⟨hx, hy, ?_⟩
  by_contra hlt
  have := lt_iff.2 ⟨hy, hx, Int.not_le.1 hlt⟩
  rw [h] at this
  cases this

/-- A number that is cut off at both bounds lies between them. -/
theorem le_clamp {lo hi v : Binary e m} (h : lo.le hi = true) (hv : v.isNaN = false) :
    lo.le (if hi.lt (if v.lt lo then lo else v) then hi else if v.lt lo then lo else v) = true ∧
      (if hi.lt (if v.lt lo then lo else v) then hi else if v.lt lo then lo else v).le hi =
        true := by
  obtain ⟨hlo, hhi, -⟩ := le_iff.1 h
  have hlow : lo.le (if v.lt lo then lo else v) = true := by
    cases hlt : v.lt lo with
    | true => exact le_refl_of_number hlo
    | false => exact le_of_not_lt hlo hv hlt
  cases hcut : hi.lt (if v.lt lo then lo else v) with
  | true => exact ⟨h, le_refl_of_number hhi⟩
  | false => exact ⟨hlow, le_of_not_lt (le_iff.1 hlow).2.1 hhi hcut⟩

end Order

/-! ### Equality -/

section Equality

variable {x y : Binary e m}

theorem eqv_refl_of_number (hx : x.isNaN = false) : x.eqv x = true := eqv_iff.2 ⟨hx, hx, rfl⟩

theorem natAbs_key (x : Binary e m) : x.key.natAbs = x.mag := by
  unfold key
  split <;> simp

/-- Data that are equal have the same integer part. -/
theorem trunc_of_eqv (h : x.eqv y = true) : x.trunc = y.trunc := by
  obtain ⟨-, -, hkey⟩ := eqv_iff.1 h
  have hmag : x.mag = y.mag := by rw [← natAbs_key, hkey, natAbs_key]
  have hdyadic : x.toDyadic = y.toDyadic := by simp only [toDyadic, hmag]
  by_cases hs : x.sign = y.sign
  · simp only [trunc, hmag, hdyadic, hs]
  · -- only the zeros differ in sign
    have hzero : y.mag = 0 := by
      simp only [key, hmag] at hkey
      cases hx : x.sign <;> cases hy : y.sign <;> simp [hx, hy] at hs hkey <;> omega
    have hyzero : y.toDyadic = (0, qmin e m) := by simp [toDyadic, hzero]
    simp only [trunc, hmag, hdyadic, hyzero, hzero]
    split
    · rfl
    · simp

end Equality

/-! ### Encodings -/

theorem infMag_lt (e m : ℕ) : infMag e m < 2 ^ (e + m) := by
  have he := Nat.two_pow_pos e
  have hm := Nat.two_pow_pos m
  unfold infMag
  rw [Nat.pow_add]
  exact Nat.mul_lt_mul_of_pos_right (by omega) hm

section Pack

variable {s : Bool} {k : ℕ} (hk : k < 2 ^ (e + m))
include hk

theorem toNat_pack : (pack s k : Binary e m).bits.toNat = s.toNat * 2 ^ (e + m) + k := by
  unfold pack
  rw [BitVec.toNat_ofNat, Nat.mod_eq_of_lt]
  rw [Nat.pow_succ]
  cases s <;> simp <;> omega

@[simp] theorem mag_pack : (pack s k : Binary e m).mag = k := by
  unfold mag
  rw [toNat_pack hk, Nat.mul_add_mod_self_right, Nat.mod_eq_of_lt hk]

@[simp] theorem sign_pack : (pack s k : Binary e m).sign = s := by
  unfold sign
  rw [BitVec.msb_eq_decide, toNat_pack hk]
  cases s <;> simp
  omega

theorem key_pack : (pack s k : Binary e m).key = if s then -(k : ℤ) else k := by
  rw [key, mag_pack hk, sign_pack hk]

end Pack

/-! ### Numbers -/

theorem isNaN_pack {s : Bool} {k : ℕ} (hk : k ≤ infMag e m) :
    (pack s k : Binary e m).isNaN = false := by
  unfold isNaN
  rw [mag_pack (lt_of_le_of_lt hk (infMag_lt e m))]
  simpa using hk

/-- Rounding gives a number. -/
theorem isNaN_ofDyadic (s : Bool) (M : ℕ) (E : ℤ) : (ofDyadic s M E : Binary e m).isNaN = false := by
  unfold ofDyadic
  dsimp only
  split_ifs
  · exact isNaN_pack (Nat.zero_le _)
  all_goals exact isNaN_pack (Nat.min_le_right _ _)

theorem isNaN_ofInt (z : ℤ) : (ofInt z : Binary e m).isNaN = false := isNaN_ofDyadic _ _ _

theorem isNaN_zero : (zero : Binary e m).isNaN = false := by
  simp [isNaN, zero, mag]

/-- Conversion of a number gives a number. -/
theorem isNaN_convert {e' m' : ℕ} {x : Binary e m} (hx : x.isNaN = false) :
    (x.convert : Binary e' m').isNaN = false := by
  unfold convert
  rw [if_neg (by rw [hx]; exact Bool.false_ne_true)]
  split_ifs
  · exact isNaN_pack (Nat.le_refl _)
  · exact isNaN_ofDyadic _ _ _

@[simp] theorem ofNat_zero : (ofNat 0 : Binary e m) = zero := by
  simp [ofNat, ofDyadic, pack, zero]

theorem ofNat_eq_ofInt (n : ℕ) : (ofNat n : Binary e m) = ofInt n := by
  have hneg : ¬(n : ℤ) < 0 := Int.not_lt.2 (Int.natCast_nonneg n)
  simp [ofNat, ofInt, hneg]

/-! ### Exact integers -/

/-- The magnitude field of a natural number of at most `m + 1` bits. -/
def natMag (e m n : ℕ) : ℕ :=
  if n = 0 then 0 else (n.log2 + (2 ^ (e - 1) - 2)) * 2 ^ m + n * 2 ^ (m - n.log2)

section Exact

/-- The significand of a natural number of at most `m + 1` bits. -/
theorem significand_bounds {m n : ℕ} (h0 : n ≠ 0) (hn : n < 2 ^ (m + 1)) :
    n.log2 ≤ m ∧ 2 ^ m ≤ n * 2 ^ (m - n.log2) ∧ n * 2 ^ (m - n.log2) < 2 * 2 ^ m := by
  have hlog : n.log2 ≤ m := Nat.lt_succ_iff.1 ((Nat.log2_lt h0).2 hn)
  have hlow : 2 ^ n.log2 ≤ n := Nat.log2_self_le h0
  have hhigh : n < 2 ^ (n.log2 + 1) := Nat.lt_log2_self
  have hpow : 2 ^ n.log2 * 2 ^ (m - n.log2) = 2 ^ m := by
    rw [← Nat.pow_add, Nat.add_sub_cancel' hlog]
  refine ⟨hlog, ?_, ?_⟩
  · rw [← hpow]
    exact Nat.mul_le_mul_right _ hlow
  · have hlt := Nat.mul_lt_mul_of_pos_right hhigh (Nat.two_pow_pos (m - n.log2))
    rwa [Nat.pow_succ, Nat.mul_right_comm, hpow, Nat.mul_comm (2 ^ m)] at hlt

variable (he : m < 2 ^ (e - 1)) (he' : 2 ≤ 2 ^ (e - 1))
include he he'

theorem natMag_lt {n : ℕ} (hn : n < 2 ^ (m + 1)) : natMag e m n < infMag e m := by
  have hdouble : 2 ^ e = 2 * 2 ^ (e - 1) := by
    have hpos : e ≠ 0 := by
      intro h
      rw [h] at he'
      omega
    rw [← Nat.pow_succ', Nat.succ_eq_add_one, Nat.sub_add_cancel (Nat.pos_of_ne_zero hpos)]
  unfold natMag infMag
  split_ifs with h0
  · exact Nat.mul_pos (by omega) (Nat.two_pow_pos m)
  · obtain ⟨hlog, -, hlt⟩ := significand_bounds h0 hn
    have hexp : n.log2 + (2 ^ (e - 1) - 2) + 2 ≤ 2 ^ e - 1 := by omega
    have hmul := Nat.mul_le_mul_right (2 ^ m) hexp
    rw [Nat.add_mul] at hmul
    omega

/-- A natural number is encoded by its magnitude field. -/
theorem ofDyadic_nat (s : Bool) {n : ℕ} (hn : n < 2 ^ (m + 1)) :
    (ofDyadic s n 0 : Binary e m) = pack s (natMag e m n) := by
  have hle := (natMag_lt he he' hn).le
  unfold ofDyadic natMag at *
  by_cases h0 : n = 0
  · rw [if_pos h0, if_pos h0]
  · rw [if_neg h0] at hle ⊢
    rw [if_neg h0]
    obtain ⟨hlog, -, -⟩ := significand_bounds h0 hn
    have hq : max ((n.log2 : ℤ) + 0 - m) (qmin e m) = (n.log2 : ℤ) - m := by
      rw [Int.add_zero, max_eq_left]
      unfold qmin
      have : (2 : ℤ) ≤ 2 ^ (e - 1) := by exact_mod_cast he'
      omega
    have hexp : ((n.log2 : ℤ) - m - qmin e m).toNat = n.log2 + (2 ^ (e - 1) - 2) := by
      unfold qmin
      have hcast : ((2 ^ (e - 1) : ℕ) : ℤ) = 2 ^ (e - 1) := by push_cast; rfl
      rw [← hcast]
      omega
    have hshift : (0 - ((n.log2 : ℤ) - m)).toNat = m - n.log2 := by omega
    dsimp only
    rw [hq, if_pos (by omega), hexp, hshift, Nat.min_eq_left hle]

omit he he' in
/-- Natural numbers are ordered by their magnitude fields. -/
theorem natMag_lt_natMag {a b : ℕ} (hb : b < 2 ^ (m + 1)) (h : a < b) :
    natMag e m a < natMag e m b := by
  have hb0 : b ≠ 0 := by omega
  obtain ⟨hlog, hlow, -⟩ := significand_bounds hb0 hb
  have hpos := Nat.two_pow_pos m
  unfold natMag
  rw [if_neg hb0]
  split_ifs with ha0
  · omega
  · obtain ⟨hlog', -, hhigh'⟩ := significand_bounds ha0 (h.trans hb)
    have hmono : a.log2 ≤ b.log2 := by
      rw [Nat.log2_eq_log_two, Nat.log2_eq_log_two]
      exact Nat.log_mono_right h.le
    rcases Nat.eq_or_lt_of_le hmono with heq | hlt
    · -- the same exponent
      rw [heq]
      exact Nat.add_lt_add_left (Nat.mul_lt_mul_of_pos_right h (Nat.two_pow_pos _)) _
    · have hexp := Nat.mul_le_mul_right (2 ^ m)
        (show a.log2 + (2 ^ (e - 1) - 2) + 1 ≤ b.log2 + (2 ^ (e - 1) - 2) by omega)
      rw [Nat.add_mul, Nat.one_mul] at hexp
      omega

/-- The key of an integer of at most `m + 1` bits. -/
theorem key_ofInt {z : ℤ} (hz : z.natAbs < 2 ^ (m + 1)) : (ofInt z : Binary e m).key =
    if z < 0 then -(natMag e m z.natAbs : ℤ) else natMag e m z.natAbs := by
  rw [ofInt, ofDyadic_nat he he' _ hz,
    key_pack ((natMag_lt he he' hz).trans (infMag_lt e m))]
  by_cases hneg : z < 0 <;> simp [hneg]

theorem key_ofInt_lt {a b : ℤ} (ha : a.natAbs < 2 ^ (m + 1)) (hb : b.natAbs < 2 ^ (m + 1))
    (h : a < b) : (ofInt a : Binary e m).key < (ofInt b : Binary e m).key := by
  rw [key_ofInt he he' ha, key_ofInt he he' hb]
  split_ifs with hna hnb hnb
  · have := natMag_lt_natMag (e := e) ha (show b.natAbs < a.natAbs by omega)
    omega
  · have := natMag_lt_natMag (e := e) ha (show 0 < a.natAbs by omega)
    omega
  · omega
  · have := natMag_lt_natMag (e := e) hb (show a.natAbs < b.natAbs by omega)
    omega

/-- Comparisons of exact integers. -/
theorem lt_ofInt_iff {a b : ℤ} (ha : a.natAbs < 2 ^ (m + 1)) (hb : b.natAbs < 2 ^ (m + 1)) :
    (ofInt a : Binary e m).lt (ofInt b) = true ↔ a < b := by
  rw [lt_iff]
  refine ⟨fun ⟨_, _, h⟩ => ?_, fun h => ⟨isNaN_ofInt a, isNaN_ofInt b, key_ofInt_lt he he' ha hb h⟩⟩
  by_contra hle
  rcases Int.lt_or_eq_of_le (Int.not_lt.1 hle) with hlt | heq
  · have := key_ofInt_lt (e := e) he he' hb ha hlt
    omega
  · rw [heq] at h
    exact absurd h (Int.lt_irrefl _)

omit he in
/-- The significand and exponent of an exact natural number. -/
theorem toDyadic_natMag {x : Binary e m} {n : ℕ} (h0 : n ≠ 0) (hn : n < 2 ^ (m + 1))
    (hx : x.mag = natMag e m n) : x.toDyadic = (n * 2 ^ (m - n.log2), (n.log2 : ℤ) - m) := by
  obtain ⟨hlog, hlow, hhigh⟩ := significand_bounds h0 hn
  have hmag : x.mag = (n.log2 + (2 ^ (e - 1) - 2) + 1) * 2 ^ m +
      (n * 2 ^ (m - n.log2) - 2 ^ m) := by
    rw [hx, natMag, if_neg h0, Nat.add_mul _ 1, Nat.one_mul]
    omega
  have hfrac : n * 2 ^ (m - n.log2) - 2 ^ m < 2 ^ m := by omega
  have hexpo : x.mag / 2 ^ m = n.log2 + (2 ^ (e - 1) - 2) + 1 := by
    rw [hmag, Nat.mul_comm, Nat.mul_add_div (Nat.two_pow_pos m), Nat.div_eq_of_lt hfrac,
      Nat.add_zero]
  have hrest : x.mag % 2 ^ m = n * 2 ^ (m - n.log2) - 2 ^ m := by
    rw [hmag, Nat.mul_add_mod_self_right, Nat.mod_eq_of_lt hfrac]
  unfold toDyadic
  dsimp only
  rw [hexpo, hrest, if_neg (Nat.succ_ne_zero _), Nat.add_sub_cancel, Nat.add_sub_cancel' hlow]
  have hcast : ((2 ^ (e - 1) : ℕ) : ℤ) = 2 ^ (e - 1) := by push_cast; rfl
  unfold qmin
  rw [← hcast]
  congr 1
  omega

/-- Truncation recovers an exact integer. -/
theorem trunc_ofInt {z : ℤ} (hz : z.natAbs < 2 ^ (m + 1)) : (ofInt z : Binary e m).trunc = z := by
  have hlt := natMag_lt he he' hz
  have heq : (ofInt z : Binary e m) = pack (decide (z < 0)) (natMag e m z.natAbs) :=
    ofDyadic_nat he he' _ hz
  have hmag : (ofInt z : Binary e m).mag = natMag e m z.natAbs := by
    rw [heq, mag_pack (hlt.trans (infMag_lt e m))]
  have hsign : (ofInt z : Binary e m).sign = decide (z < 0) := by
    rw [heq, sign_pack (hlt.trans (infMag_lt e m))]
  unfold trunc
  rw [hmag, if_neg (Nat.not_le.2 hlt), hsign]
  by_cases h0 : z.natAbs = 0
  · have hzero : (ofInt z : Binary e m).toDyadic = (0, qmin e m) := by
      simp [toDyadic, hmag, natMag, h0]
    rw [hzero]
    simp only [Nat.zero_mul, Nat.zero_div, ite_self]
    simp
    omega
  · rw [toDyadic_natMag he' h0 hz hmag]
    obtain ⟨hlog, -, -⟩ := significand_bounds h0 hz
    -- the significand was shifted up by as much as the exponent is below zero
    have hnat : (if (0 : ℤ) ≤ (z.natAbs.log2 : ℤ) - m then
        z.natAbs * 2 ^ (m - z.natAbs.log2) * 2 ^ ((z.natAbs.log2 : ℤ) - m).toNat
        else z.natAbs * 2 ^ (m - z.natAbs.log2) / 2 ^ (-((z.natAbs.log2 : ℤ) - m)).toNat) =
        z.natAbs := by
      split_ifs with hexp
      · have hm : m - z.natAbs.log2 = 0 := by omega
        have hz' : ((z.natAbs.log2 : ℤ) - m).toNat = 0 := by omega
        rw [hm, hz', Nat.pow_zero, Nat.mul_one, Nat.mul_one]
      · have hz' : (-((z.natAbs.log2 : ℤ) - m)).toNat = m - z.natAbs.log2 := by omega
        rw [hz', Nat.mul_div_cancel _ (Nat.two_pow_pos _)]
    dsimp only
    rw [hnat]
    by_cases hneg : z < 0
    · simp only [hneg, decide_true, if_true]
      omega
    · simp only [hneg, decide_false, Bool.false_eq_true, if_false]
      omega

end Exact

end Binary

end Ieee
