import Mathlib.Data.Int.Log
import Mathlib.Data.Rat.Floor
import Mathlib.Algebra.Order.BigOperators.Group.List
import Mathlib.Algebra.BigOperators.Group.List.Lemmas
import Mathlib.Tactic.Linarith
import Mathlib.Tactic.Positivity
import Mathlib.Tactic.FieldSimp
import Mathlib.Tactic.NormNum

/-!
# Numbers with a fixed precision

Binary numbers of `p` digits, as the rational numbers that they are. An operation
computes the exact result and rounds it to the nearest number, ties to the even
one. Exponents have no bounds here, so there is no overflow and no underflow.
What is rounded is off by at most one part in `2 ^ p`.
-/

namespace Doubles

/-- The nearest integer, and the even one of two. -/
def roundHalfEven (q : ℚ) : ℤ :=
  if q - ⌊q⌋ < 1 / 2 then ⌊q⌋
  else if 1 / 2 < q - ⌊q⌋ then ⌊q⌋ + 1
  else if ⌊q⌋ % 2 = 0 then ⌊q⌋ else ⌊q⌋ + 1

/-- The distance of the numbers of `p` digits next to `q`. -/
def ulp (p : ℕ) (q : ℚ) : ℚ := 2 ^ (Int.log 2 |q| + 1 - p)

def nearest (p : ℕ) (q : ℚ) : ℚ := roundHalfEven (q / ulp p q) * ulp p q

def ofNat (p n : ℕ) : ℚ := nearest p n
def sub (p : ℕ) (x y : ℚ) : ℚ := nearest p (x - y)
def mul (p : ℕ) (x y : ℚ) : ℚ := nearest p (x * y)
def div (p : ℕ) (x y : ℚ) : ℚ := nearest p (x / y)

/-- The conversion to an unsigned integer below a bound, which truncates and saturates. -/
def toUnsigned (bound : ℕ) (x : ℚ) : ℕ := min ⌊x⌋₊ (bound - 1)

theorem roundHalfEven_error (q : ℚ) : |(roundHalfEven q : ℚ) - q| ≤ 1 / 2 := by
  have hle : (⌊q⌋ : ℚ) ≤ q := Int.floor_le q
  have hlt : q < ⌊q⌋ + 1 := Int.lt_floor_add_one q
  unfold roundHalfEven
  split_ifs with hlow hhigh heven
  · rw [abs_sub_comm, abs_of_nonneg (by linarith)]
    linarith
  · push_cast
    rw [abs_of_nonneg (by linarith)]
    linarith
  · rw [abs_sub_comm, abs_of_nonneg (by linarith)]
    linarith
  · push_cast
    rw [abs_of_nonneg (by linarith)]
    linarith

theorem roundHalfEven_intCast (z : ℤ) : roundHalfEven z = z := by
  have hfloor : ⌊(z : ℚ)⌋ = z := Int.floor_intCast z
  unfold roundHalfEven
  rw [hfloor, sub_self, if_pos (by norm_num)]

theorem ulp_pos (p : ℕ) (q : ℚ) : 0 < ulp p q := zpow_pos (by norm_num) _

/-- Half the distance of the neighbours is at most one part in `2 ^ p`. -/
theorem ulp_le (p : ℕ) {q : ℚ} (hq : q ≠ 0) : ulp p q / 2 ≤ |q| / 2 ^ p := by
  have hlog : (2 : ℚ) ^ Int.log 2 |q| ≤ |q| := by
    exact_mod_cast Int.zpow_log_le_self (b := 2) (by norm_num) (abs_pos.mpr hq)
  have hsplit : ulp p q / 2 = 2 ^ Int.log 2 |q| / 2 ^ p := by
    unfold ulp
    rw [zpow_sub₀ (by norm_num), zpow_add_one₀ (by norm_num), zpow_natCast]
    field_simp
  rw [hsplit]
  gcongr

theorem nearest_zero (p : ℕ) : nearest p 0 = 0 := by
  have hround : roundHalfEven 0 = 0 := by exact_mod_cast roundHalfEven_intCast 0
  rw [nearest, zero_div, hround, Int.cast_zero, zero_mul]

/-- What is rounded is off by at most one part in `2 ^ p`. -/
theorem nearest_error (p : ℕ) (q : ℚ) : |nearest p q - q| ≤ |q| / 2 ^ p := by
  rcases eq_or_ne q 0 with rfl | hq
  · rw [nearest_zero, sub_zero, abs_zero, zero_div]
  · have hpos := ulp_pos p q
    have hscaled : nearest p q - q = (roundHalfEven (q / ulp p q) - q / ulp p q) * ulp p q := by
      rw [nearest, sub_mul, div_mul_cancel₀ _ hpos.ne']
    calc |nearest p q - q| = |(roundHalfEven (q / ulp p q) : ℚ) - q / ulp p q| * ulp p q := by
          rw [hscaled, abs_mul, abs_of_pos hpos]
      _ ≤ 1 / 2 * ulp p q := by
          gcongr
          exact roundHalfEven_error _
      _ = ulp p q / 2 := by ring
      _ ≤ |q| / 2 ^ p := ulp_le p hq

theorem nearest_le {p : ℕ} {q : ℚ} (hq : 0 ≤ q) : nearest p q ≤ q * (1 + 1 / 2 ^ p) := by
  have herror := (abs_le.mp (nearest_error p q)).2
  rw [abs_of_nonneg hq] at herror
  calc nearest p q ≤ q + q / 2 ^ p := by linarith
    _ = q * (1 + 1 / 2 ^ p) := by ring

theorem nearest_nonneg {p : ℕ} {q : ℚ} (hq : 0 ≤ q) : 0 ≤ nearest p q := by
  have hone : (1 : ℚ) ≤ 2 ^ p := one_le_pow₀ (by norm_num)
  have herror := (abs_le.mp (nearest_error p q)).1
  have hpart : q / 2 ^ p ≤ q := div_le_self hq hone
  rw [abs_of_nonneg hq] at herror
  linarith

/-- An integer of at most `p` digits is a number. -/
theorem nearest_natCast {p n : ℕ} (hn : n < 2 ^ p) : nearest p n = n := by
  rcases Nat.eq_zero_or_pos n with rfl | hpos
  · exact_mod_cast nearest_zero p
  · have hlog : Int.log 2 |(n : ℚ)| = Nat.log 2 n := by
      rw [abs_of_nonneg (Nat.cast_nonneg n), Int.log_natCast]
    have hdigits : Nat.log 2 n < p := Nat.log_lt_of_lt_pow hpos.ne' hn
    have hexp : Int.log 2 |(n : ℚ)| + 1 - p = -((p - Nat.log 2 n - 1 : ℕ) : ℤ) := by
      rw [hlog]
      omega
    have hwhole : (n : ℚ) / ulp p n = ((n * 2 ^ (p - Nat.log 2 n - 1) : ℕ) : ℤ) := by
      rw [ulp, hexp, zpow_neg, zpow_natCast, div_inv_eq_mul]
      push_cast
      rfl
    rw [nearest, hwhole, roundHalfEven_intCast, ← hwhole, div_mul_cancel₀ _ (ulp_pos p n).ne']

/-- The part of an amount that is in proportion to a share of a total: the quotient is rounded,
the product is rounded, and the result is truncated. -/
def proportional (p bound amount share total : ℕ) : ℕ :=
  toUnsigned bound (mul p (ofNat p amount) (div p (ofNat p share) (ofNat p total)))

theorem toUnsigned_le {bound : ℕ} {x : ℚ} (hx : 0 ≤ x) : (toUnsigned bound x : ℚ) ≤ x :=
  le_trans (Nat.cast_le.mpr (min_le_left _ _)) (Nat.floor_le hx)

/-- A part exceeds its exact value by two roundings at most. -/
theorem proportional_le {p bound amount share total : ℕ} (hamount : amount < 2 ^ p)
    (hshare : share < 2 ^ p) (htotal : total < 2 ^ p) :
    (proportional p bound amount share total : ℚ) ≤
      share * (amount / total * (1 + 1 / 2 ^ p) ^ 2) := by
  have hquotient : (0 : ℚ) ≤ share / total := by positivity
  have hproduct : 0 ≤ amount * nearest p (share / total) :=
    mul_nonneg (Nat.cast_nonneg _) (nearest_nonneg hquotient)
  unfold proportional
  rw [ofNat, ofNat, ofNat, nearest_natCast hamount, nearest_natCast hshare,
    nearest_natCast htotal, mul, div]
  calc (toUnsigned bound (nearest p (amount * nearest p (share / total))) : ℚ)
      ≤ nearest p (amount * nearest p (share / total)) := toUnsigned_le (nearest_nonneg hproduct)
    _ ≤ amount * nearest p (share / total) * (1 + 1 / 2 ^ p) := nearest_le hproduct
    _ ≤ amount * (share / total * (1 + 1 / 2 ^ p)) * (1 + 1 / 2 ^ p) := by
        gcongr
        exact nearest_le hquotient
    _ = share * (amount / total * (1 + 1 / 2 ^ p) ^ 2) := by ring

/-- Parts that are in proportion to shares of a total do not exceed the amount, if the precision
exceeds its digits by two. -/
theorem sum_proportional_le {p bound amount total : ℕ} {shares : List ℕ}
    (hamount : 4 * amount ≤ 2 ^ p) (htotal : total < 2 ^ p) (hshares : shares.sum ≤ total) :
    (shares.map (fun share => proportional p bound amount share total)).sum ≤ amount := by
  have hpos : (0 : ℚ) < 2 ^ p := by positivity
  have hlt : amount < 2 ^ p := by
    have hone : 0 < 2 ^ p := by positivity
    omega
  have hone : ∀ share ∈ shares, share < 2 ^ p := fun share hshare =>
    lt_of_le_of_lt ((List.le_sum_of_mem hshare).trans hshares) htotal
  set factor : ℚ := amount / total * (1 + 1 / 2 ^ p) ^ 2 with hfactor
  have hfactor_nonneg : 0 ≤ factor := by positivity
  have hsum : ((shares.map (fun share => proportional p bound amount share total)).sum : ℚ) ≤
      shares.sum * factor := by
    clear hshares
    induction shares with
    | nil => simp
    | cons share rest ih =>
      have hfirst : (proportional p bound amount share total : ℚ) ≤ _ :=
        proportional_le hlt (hone share List.mem_cons_self) htotal
      have hrest := ih (fun s hs => hone s (List.mem_cons_of_mem _ hs))
      rw [List.map_cons, List.sum_cons, List.sum_cons, Nat.cast_add, Nat.cast_add, add_mul]
      exact add_le_add hfirst hrest
  have hwhole : (shares.sum : ℚ) * factor ≤ amount * (1 + 1 / 2 ^ p) ^ 2 := by
    have hshares' : (shares.sum : ℚ) ≤ total := by exact_mod_cast hshares
    rcases Nat.eq_zero_or_pos total with rfl | htotal_pos
    · rw [hfactor, Nat.cast_zero, div_zero, zero_mul, mul_zero]
      positivity
    · have htotal_pos' : (0 : ℚ) < total := by exact_mod_cast htotal_pos
      calc (shares.sum : ℚ) * factor ≤ total * factor := by gcongr
        _ = amount * (1 + 1 / 2 ^ p) ^ 2 := by
            rw [hfactor]
            field_simp
  have hslack : (amount : ℚ) * (1 + 1 / 2 ^ p) ^ 2 < amount + 1 := by
    have hquarter : (amount : ℚ) * (1 / 2 ^ p) ≤ 1 / 4 := by
      rw [mul_one_div, div_le_iff₀ hpos]
      have : (4 * amount : ℚ) ≤ 2 ^ p := by exact_mod_cast hamount
      linarith
    have hsmall : (1 : ℚ) / 2 ^ p ≤ 1 := by
      rw [div_le_one hpos]
      exact one_le_pow₀ (by norm_num)
    have hnonneg : (0 : ℚ) ≤ 1 / 2 ^ p := by positivity
    have hsquare : (amount : ℚ) * (1 / 2 ^ p) * (1 / 2 ^ p) ≤ 1 / 4 * 1 := by
      gcongr
    calc (amount : ℚ) * (1 + 1 / 2 ^ p) ^ 2 =
          amount + 2 * (amount * (1 / 2 ^ p)) + amount * (1 / 2 ^ p) * (1 / 2 ^ p) := by ring
      _ ≤ amount + 2 * (1 / 4) + 1 / 4 * 1 := by gcongr
      _ < amount + 1 := by linarith
  have hlt' : ((shares.map (fun share => proportional p bound amount share total)).sum : ℚ) <
      amount + 1 := lt_of_le_of_lt (hsum.trans hwhole) hslack
  exact Nat.lt_succ_iff.mp (by exact_mod_cast hlt')

end Doubles
