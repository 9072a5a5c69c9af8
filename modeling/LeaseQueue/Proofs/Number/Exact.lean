/-
Whole numbers below 2 ^ 53 as doubles.

* `Double.Holds`: a double has the value of a natural number;
* `Double.holds_ofRatio`: a quotient that is such a number is not rounded;
* `Double.holds_ofNat`, `Double.Holds.mul`: so the doubles of such numbers have their values, and so
  has a product;
* `Double.Holds.roundToNat`: the number is what comes back;
* `Database.leaseMicros_eq`, `leaseMicros_eq_whole`, `leaseMicros_ofMillis`: hence a lease is not
  rounded as long as its microseconds are below 2 ^ 53, which are 285 years.
-/
import LeaseQueue.Store.Database
import Mathlib.Tactic

namespace LeaseQueue
namespace Double

/-- The double is the natural number. -/
def Holds (n : Nat) : Double → Prop
  | .finite false mantissa exponent =>
    (magnitude mantissa exponent).1 = n * (magnitude mantissa exponent).2
  | _ => False

/-! ### Powers of two -/

/-- What a power of two of a negative exponent divides by. -/
lemma magnitude_neg (mantissa k : Nat) : magnitude mantissa (-k) = (mantissa, 2 ^ k) := by
  rcases Nat.eq_zero_or_pos k with rfl | hk
  · simp [magnitude, scale]
  · simp [magnitude, scale, hk]

lemma magnitude_pos (mantissa : Nat) (exponent : Int) : 0 < (magnitude mantissa exponent).2 := by
  rw [magnitude, scale]
  split
  · exact Nat.mul_pos Nat.one_pos (Nat.two_pow_pos _)
  · exact Nat.one_pos

/-- A quotient below 2 ^ 53 is below the next power of two. -/
lemma floorLog2_le {num den : Nat} (h : num < den * 2 ^ 53) : floorLog2 num den ≤ 52 := by
  have hguess : num.log2 ≤ den.log2 + 53 := by
    rcases Nat.eq_zero_or_pos num with rfl | hnum
    · simp
    have hlt : num < 2 ^ (den.log2 + 1 + 53) :=
      h.trans (by rw [pow_add]; exact Nat.mul_lt_mul_of_pos_right Nat.lt_log2_self (by norm_num))
    have := (Nat.log2_lt hnum.ne').mpr hlt
    omega
  rw [floorLog2]
  split
  · next hle =>
      -- the guess is not 53, where the quotient would have to reach 2 ^ 53
      by_contra hgt
      have h53 : (num.log2 : Int) - den.log2 = 53 := by omega
      rw [h53] at hle
      have : den * 2 ^ 53 ≤ num := hle
      omega
  · omega

/-! ### No rounding -/

/-- A quotient that is a number below 2 ^ 53 is that number. -/
lemma holds_ofRatio {n den : Nat} (hden : 0 < den) (hn : n < 2 ^ 53) :
    (ofRatio false (n * den) den).Holds n := by
  rw [ofRatio]
  split
  · next h =>
      obtain rfl : n = 0 := (Nat.mul_eq_zero.mp h).resolve_right hden.ne'
      show (magnitude 0 (-(1074 : Nat))).1 = _
      rw [magnitude_neg]
      simp
  have hfloor : floorLog2 (n * den) den ≤ 52 := by
    refine floorLog2_le ?_
    rw [mul_comm]
    exact Nat.mul_lt_mul_of_pos_left hn hden
  -- the unit of the last place is one or a part of one
  obtain ⟨k, hk⟩ : ∃ k : Nat, max minExponent (floorLog2 (n * den) den - 52) = -k := by
    rw [minExponent]
    exact ⟨(-max (-1074) (floorLog2 (n * den) den - 52)).toNat, by omega⟩
  have hscaled : roundDiv (n * den * 2 ^ k) den = n * 2 ^ k := by
    rw [mul_right_comm]
    exact roundDiv_mul _ hden
  have hscale : scale (n * den) den (- -(k : Int)) = (n * den * 2 ^ k, den) := by
    simp [scale]
  simp only [hk, hscale, hscaled]
  have hmax : ∀ exponent : Int, exponent ≤ 1 → ¬ maxExponent < exponent := by
    intro exponent hle
    rw [maxExponent]
    omega
  by_cases hcarry : n * 2 ^ k = Nat.pow 2 53
  · -- the mantissa is full, and the number is a power of two with a unit below one
    obtain ⟨j, rfl⟩ : ∃ j, k = j + 1 := by
      refine Nat.exists_eq_succ_of_ne_zero fun hzero => ?_
      rw [hzero, pow_zero, mul_one] at hcarry
      exact hn.ne hcarry
    have hhalf : 2 ^ 52 = n * 2 ^ j := by
      have hfull : n * 2 ^ j * 2 = 2 ^ 53 := by
        rw [mul_assoc, ← pow_succ]
        exact hcarry
      omega
    rw [if_pos hcarry]
    dsimp only
    rw [if_neg (hmax _ (by omega)), Holds]
    rw [show -((j + 1 : Nat) : Int) + 1 = -(j : Nat) by omega, magnitude_neg]
    exact hhalf
  · rw [if_neg hcarry]
    dsimp only
    rw [if_neg (hmax _ (by omega)), Holds, magnitude_neg]

lemma holds_ofNat {n : Nat} (hn : n < 2 ^ 53) : (ofNat n).Holds n := by
  simpa [ofNat] using holds_ofRatio Nat.one_pos hn

/-- The product of two numbers is not rounded if it is below 2 ^ 53. -/
lemma Holds.mul {x y : Double} {m n : Nat} (hx : x.Holds m) (hy : y.Holds n)
    (hmn : m * n < 2 ^ 53) : (x.mul y).Holds (m * n) := by
  match x, y, hx, hy with
  | .finite false a e, .finite false b f, hx, hy =>
      rw [Holds] at hx hy
      rw [Double.mul, hx, hy, mul_mul_mul_comm]
      exact holds_ofRatio (Nat.mul_pos (magnitude_pos a e) (magnitude_pos b f)) hmn

/-- A multiple of the divisor is rounded to the quotient. -/
lemma div_round_self {d : Nat} (hd : 0 < d) (n : Nat) : (2 * (n * d) + d) / (2 * d) = n :=
  calc (2 * (n * d) + d) / (2 * d)
      = (d + 2 * d * n) / (2 * d) := by ring_nf
    _ = d / (2 * d) + n := Nat.add_mul_div_left _ _ (by omega)
    _ = n := by rw [Nat.div_eq_of_lt (by omega), Nat.zero_add]

/-- A number within the bound comes back. -/
lemma Holds.roundToNat {x : Double} {n bound : Nat} (hx : x.Holds n) (hn : n ≤ bound) :
    x.roundToNat bound = n := by
  match x, hx with
  | .finite false a e, hx =>
      rw [Holds] at hx
      rw [Double.roundToNat, hx, if_neg Bool.false_ne_true, div_round_self (magnitude_pos a e)]
      exact min_eq_right hn

end Double

namespace Database

/-- A lease of less than 285 years is not rounded. -/
lemma leaseMicros_eq {lease : Duration} (h : 1000 * leaseMillis lease < 2 ^ 53) :
    leaseMicros lease = 1000 * leaseMillis lease := by
  have hmillis : (Double.ofNat (leaseMillis lease)).Holds (leaseMillis lease) :=
    Double.holds_ofNat (by omega)
  have hthousand : (Double.ofNat 1000).Holds 1000 := Double.holds_ofNat (by norm_num)
  rw [leaseMicros, mul_comm 1000] at *
  refine (hmillis.mul hthousand h).roundToNat (h.le.trans ?_)
  norm_num [Text.maxNat64]

/-- It counts in its whole milliseconds then. -/
lemma leaseMicros_eq_whole {lease : Duration} (h : 1000 * lease.wholeMillis < 2 ^ 53) :
    leaseMicros lease = 1000 * lease.wholeMillis := by
  have hmax : Text.maxInt64.toNat = 9223372036854775807 := rfl
  have hmillis : leaseMillis lease = lease.wholeMillis := by
    rw [leaseMillis, hmax]
    omega
  rw [leaseMicros_eq (by rwa [hmillis]), hmillis]

lemma leaseMicros_ofMillis {millis : Nat} (h : 1000 * millis < 2 ^ 53) :
    leaseMicros (.ofMillis millis) = 1000 * millis := by
  simpa only [Duration.wholeMillis_ofMillis] using
    @leaseMicros_eq_whole (.ofMillis millis) (by rwa [Duration.wholeMillis_ofMillis])

end Database
end LeaseQueue
