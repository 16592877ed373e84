import Mathlib.Algebra.Order.Ring.Nat
import Mathlib.Data.List.Induction
import Mathlib.Tactic.Ring

/-!
# Big-endian numerals

A fixed number of base-256 digits, most significant first.

* `BigEndian.encode k n` : the `k` digits of `n`.
* `BigEndian.decode bs` : the number a digit string stands for.
* `BigEndian.decode_encode` : decoding returns `n` modulo `256 ^ k`.
* `BigEndian.encode_decode` : encoding returns the digits.
* `BigEndian.encode_add` : a numeral in two groups of digits.
-/

namespace BigEndian

/-- The `k` least significant digits of `n`, most significant first. -/
def encode : ℕ → ℕ → List UInt8
  | 0, _ => []
  | k + 1, n => encode k (n / 256) ++ [UInt8.ofNat n]

/-- The number a digit string stands for. -/
def decode (bs : List UInt8) : ℕ := bs.foldl (fun a b => 256 * a + b.toNat) 0

@[simp] theorem length_encode (k n : ℕ) : (encode k n).length = k := by
  induction k generalizing n with
  | zero => rfl
  | succ k ih => simp [encode, ih]

theorem decode_concat (bs : List UInt8) (b : UInt8) :
    decode (bs ++ [b]) = 256 * decode bs + b.toNat := by
  simp [decode]

theorem decode_encode (k n : ℕ) : decode (encode k n) = n % 256 ^ k := by
  induction k generalizing n with
  | zero => simp [encode, decode, Nat.mod_one]
  | succ k ih =>
    rw [encode, decode_concat, ih, pow_succ', UInt8.toNat_ofNat', Nat.mod_mul]
    simp only [Nat.reducePow]
    ring

theorem decode_encode_of_lt {k n : ℕ} (h : n < 256 ^ k) : decode (encode k n) = n := by
  rw [decode_encode, Nat.mod_eq_of_lt h]

theorem decode_lt (bs : List UInt8) : decode bs < 256 ^ bs.length := by
  induction bs using List.reverseRecOn with
  | nil => exact Nat.one_pos
  | append_singleton bs b ih =>
    have hb := b.toNat_lt
    rw [decode_concat, List.length_append, List.length_singleton, pow_succ']
    omega

theorem encode_decode (bs : List UInt8) : encode bs.length (decode bs) = bs := by
  induction bs using List.reverseRecOn with
  | nil => rfl
  | append_singleton bs b ih =>
    have hb := b.toNat_lt
    have hdiv : (256 * decode bs + b.toNat) / 256 = decode bs := by omega
    rw [List.length_append, List.length_singleton, encode, decode_concat, hdiv, ih]
    congr 2
    apply UInt8.toNat_inj.1
    rw [UInt8.toNat_ofNat']
    omega

/-- The digits in two groups. -/
theorem encode_add (j k n : ℕ) : encode (j + k) n = encode j (n / 256 ^ k) ++ encode k n := by
  induction k generalizing n with
  | zero => simp [encode]
  | succ k ih =>
    rw [← Nat.add_assoc, encode, ih, encode, List.append_assoc, Nat.div_div_eq_div_mul, pow_succ']

theorem encode_mod (k n : ℕ) : encode k (n % 256 ^ k) = encode k n := by
  have hlen := length_encode k n
  have hall := encode_decode (encode k n)
  rwa [decode_encode, hlen] at hall

end BigEndian
