/-
Decimal numbers rounded to floating point numbers.

A decimal literal writes an exact number (`Decimal.value`), and `Binary64.ofDecimal` gives
the floating point number nearest to it.  `IsBinary64` are the numbers that have a floating
point number of their own.

* `ofDecimal_eq_rounded`: what is given depends on the sign and the magnitude of the number
  alone, not on how the literal writes it,
* `atMost_ofDecimal`, `atLeast_ofDecimal`: it lies on the same side of each number that has
  a floating point number of its own,
* `numEq_ofDecimal_of_value_eq`: so literals of one number give equal floating point numbers,
* `numEq_ofDecimal_of_apart`: and two numbers with two numbers of `IsBinary64` between them
  give different ones.
-/
import Mathlib.Data.Int.Log
import Mathlib.Algebra.Order.Field.Power
import Mathlib.Algebra.Order.Floor.Semifield
import Mathlib.Data.Rat.Floor
import Mathlib.Data.Nat.Digits.Defs
import Mathlib.Tactic.FieldSimp
import Mathlib.Tactic.Linarith
import Mathlib.Tactic.NormNum
import Mathlib.Tactic.Positivity
import SchemaKeeper.Number.Binary64

namespace SchemaKeeper.Number

/-! ### Scaling -/

theorem power_pos {b : ℕ} (hb : b ≠ 0) (e : ℤ) : 0 < power b e :=
  Nat.pow_pos (Nat.pos_of_ne_zero hb)

/-- One of the two powers is one, so their quotient is the power of a rational number. -/
theorem power_div_power (b : ℕ) (e : ℤ) :
    (power b e : ℚ) / power b (-e) = (b : ℚ) ^ e := by
  rcases le_total 0 e with he | he
  · obtain ⟨n, rfl⟩ := Int.eq_ofNat_of_zero_le he
    simp [power]
  · obtain ⟨n, rfl⟩ := Int.exists_eq_neg_ofNat he
    simp [power]

theorem cast_power_two (n : ℕ) : (power 2 n : ℚ) = 2 ^ (n : ℤ) := by
  simp [power]

theorem scaled_div (num : ℕ) {den : ℕ} (hden : 0 < den) (e : ℤ) :
    ((num * power 2 (-e) : ℕ) : ℚ) / ((den * power 2 e : ℕ) : ℚ) = (num / den : ℚ) / 2 ^ e := by
  have hpower := power_div_power 2 e
  have hup : (power 2 e : ℚ) ≠ 0 := by exact_mod_cast (power_pos two_ne_zero e).ne'
  have hdown : (power 2 (-e) : ℚ) ≠ 0 := by exact_mod_cast (power_pos two_ne_zero (-e)).ne'
  have hden' : (den : ℚ) ≠ 0 := by exact_mod_cast hden.ne'
  have h2 : ((2 : ℕ) : ℚ) ^ e = 2 ^ e := by norm_num
  rw [h2] at hpower
  rw [← hpower]
  push_cast
  field_simp

/-! ### Rounding to integers -/

/-- The integer nearest to a number, the even one of two. -/
def roundEven (q : ℚ) : ℕ :=
  if 1 < 2 * (q - ⌊q⌋₊) ∨ (2 * (q - ⌊q⌋₊) = 1 ∧ ⌊q⌋₊ % 2 = 1) then ⌊q⌋₊ + 1 else ⌊q⌋₊

theorem roundDiv_eq {num den : ℕ} (hden : 0 < den) : roundDiv num den = roundEven (num / den) := by
  have hfloor : ⌊(num : ℚ) / den⌋₊ = num / den := Nat.floor_div_eq_div num den
  have hden' : (0 : ℚ) < den := by exact_mod_cast hden
  have hrest : (num : ℚ) / den - (num / den : ℕ) = (num % den : ℕ) / den := by
    have hsplit : (num : ℚ) = den * (num / den : ℕ) + (num % den : ℕ) := by
      exact_mod_cast (Nat.div_add_mod num den).symm
    rw [eq_div_iff hden'.ne', sub_mul, div_mul_cancel₀ _ hden'.ne']
    linarith
  have hmore : 1 < 2 * ((num : ℚ) / den - (num / den : ℕ)) ↔ den < 2 * (num % den) := by
    rw [hrest, ← mul_div_assoc, lt_div_iff₀ hden', one_mul]
    exact_mod_cast Iff.rfl
  have hhalf : 2 * ((num : ℚ) / den - (num / den : ℕ)) = 1 ↔ 2 * (num % den) = den := by
    rw [hrest, ← mul_div_assoc, div_eq_iff hden'.ne', one_mul]
    exact_mod_cast Iff.rfl
  unfold roundDiv roundEven
  simp only [hfloor, hmore, hhalf]

theorem le_roundEven {q : ℚ} {k : ℕ} (h : (k : ℚ) ≤ q) : k ≤ roundEven q := by
  have hfloor : k ≤ ⌊q⌋₊ := Nat.le_floor h
  unfold roundEven
  split
  · omega
  · exact hfloor

theorem roundEven_le {q : ℚ} (hq : 0 ≤ q) {k : ℕ} (h : q ≤ k) : roundEven q ≤ k := by
  have hfloor : ⌊q⌋₊ ≤ k := Nat.floor_le_of_le h
  unfold roundEven
  split
  · next hup =>
    -- an integer is not rounded up, so the integer below is less than the bound
    refine Nat.succ_le_of_lt (lt_of_le_of_ne hfloor ?_)
    intro heq
    have hbelow := Nat.floor_le hq
    rw [heq] at hup hbelow
    have hself : q - (k : ℚ) = 0 := sub_eq_zero.mpr (le_antisymm h hbelow)
    rw [hself] at hup
    norm_num at hup
  · exact hfloor

/-! ### Rounding to floating point numbers -/

namespace Binary64

/-- The quotient of two numbers lies between the quotients of the powers of two beside them. -/
theorem log2_quotient {num den : ℕ} (hnum : 0 < num) (hden : 0 < den) :
    (2 : ℚ) ^ ((Nat.log2 num : ℤ) - Nat.log2 den - 1) ≤ num / den ∧
      (num / den : ℚ) < 2 ^ ((Nat.log2 num : ℤ) - Nat.log2 den + 1) := by
  have hden' : (0 : ℚ) < den := by exact_mod_cast hden
  have hbounds : ∀ n : ℕ, 0 < n → (2 : ℚ) ^ (Nat.log2 n : ℤ) ≤ n ∧
      (n : ℚ) < 2 ^ ((Nat.log2 n : ℤ) + 1) := by
    intro n hn
    constructor
    · exact_mod_cast Nat.log2_self_le hn.ne'
    · exact_mod_cast (Nat.log2_lt hn.ne').mp (Nat.lt_succ_self (Nat.log2 n))
  obtain ⟨hnumLow, hnumHigh⟩ := hbounds num hnum
  obtain ⟨hdenLow, hdenHigh⟩ := hbounds den hden
  constructor
  · rw [le_div_iff₀ hden']
    calc (2 : ℚ) ^ ((Nat.log2 num : ℤ) - Nat.log2 den - 1) * den
        ≤ 2 ^ ((Nat.log2 num : ℤ) - Nat.log2 den - 1) * 2 ^ ((Nat.log2 den : ℤ) + 1) := by gcongr
      _ = 2 ^ (Nat.log2 num : ℤ) := by
        rw [← zpow_add₀ two_ne_zero]
        congr 1
        omega
      _ ≤ num := hnumLow
  · rw [div_lt_iff₀ hden']
    calc (num : ℚ) < 2 ^ ((Nat.log2 num : ℤ) + 1) := hnumHigh
      _ = 2 ^ ((Nat.log2 num : ℤ) - Nat.log2 den + 1) * 2 ^ (Nat.log2 den : ℤ) := by
        rw [← zpow_add₀ two_ne_zero]
        congr 1
        omega
      _ ≤ 2 ^ ((Nat.log2 num : ℤ) - Nat.log2 den + 1) * den := by gcongr

theorem le_log_iff {q : ℚ} (hq : 0 < q) {l : ℤ} : (2 : ℚ) ^ l ≤ q ↔ l ≤ Int.log 2 q := by
  exact_mod_cast Int.zpow_le_iff_le_log (b := 2) one_lt_two hq

theorem log_lt_iff {q : ℚ} (hq : 0 < q) {l : ℤ} : q < (2 : ℚ) ^ l ↔ Int.log 2 q < l := by
  exact_mod_cast Int.lt_zpow_iff_log_lt (b := 2) one_lt_two hq

theorem floorLog2_eq {num den : ℕ} (hnum : 0 < num) (hden : 0 < den) :
    floorLog2 num den = Int.log 2 (num / den : ℚ) := by
  have hq : (0 : ℚ) < num / den := by positivity
  obtain ⟨hlow, hhigh⟩ := log2_quotient hnum hden
  rw [le_log_iff hq] at hlow
  rw [log_lt_iff hq] at hhigh
  -- the test tells which of the two exponents that are left it is
  have htest : ∀ l : ℤ, num * power 2 (-l) < den * power 2 l ↔ Int.log 2 (num / den : ℚ) < l := by
    intro l
    have hscaled := scaled_div num hden l
    have hpos : (0 : ℚ) < (den * power 2 l : ℕ) := by
      exact_mod_cast Nat.mul_pos hden (power_pos two_ne_zero l)
    have hone : ((num * power 2 (-l) : ℕ) : ℚ) / ((den * power 2 l : ℕ) : ℚ) < 1 ↔
        num * power 2 (-l) < den * power 2 l := by
      rw [div_lt_one hpos]
      exact Nat.cast_lt
    rw [← hone, hscaled, div_lt_one (by positivity), log_lt_iff hq]
  unfold floorLog2
  dsimp only
  split
  · next h =>
    have := (htest _).mp h
    omega
  · next h =>
    have := mt (htest _).mpr h
    omega

/-- The exponent of the last binary place that a number keeps. -/
def unit (q : ℚ) : ℤ :=
  max (Int.log 2 q - 52) minExponent

/-- A number rounded to the last place that it keeps, however large it is. -/
def grid (q : ℚ) : ℚ :=
  roundEven (q / 2 ^ unit q) * 2 ^ unit q

/-- The floating point number nearest to a positive number. -/
def rounded (negative : Bool) (q : ℚ) : Binary64 :=
  if roundEven (q / 2 ^ unit q) = power 2 53 then
    if maxExponent < unit q + 1 then .infinite negative
    else .finite negative (power 2 52) (unit q + 1)
  else
    if maxExponent < unit q then .infinite negative
    else .finite negative (roundEven (q / 2 ^ unit q)) (unit q)

theorem ofRatio_eq {num den : ℕ} (hnum : 0 < num) (hden : 0 < den) (negative : Bool) :
    ofRatio negative num den = rounded negative (num / den) := by
  have hround : ∀ e : ℤ, roundDiv (num * power 2 (-e)) (den * power 2 e) =
      roundEven ((num / den : ℚ) / 2 ^ e) := by
    intro e
    rw [roundDiv_eq (Nat.mul_pos hden (power_pos two_ne_zero e)), scaled_div num hden]
  unfold ofRatio rounded unit
  rw [floorLog2_eq hnum hden]
  dsimp only
  rw [hround]
  split <;> rfl

/-! ### Numbers with a floating point number of their own -/

/-- A magnitude that a floating point number has. -/
def IsMagnitude (z : ℚ) : Prop :=
  ∃ (m : ℕ) (e : ℤ), m < 2 ^ 53 ∧ minExponent ≤ e ∧ e ≤ maxExponent ∧ z = m * 2 ^ e

section

variable {q z : ℚ}

theorem two_zpow_split (a b : ℤ) : (2 : ℚ) ^ a = 2 ^ (a - b) * 2 ^ b := by
  rw [← zpow_add₀ two_ne_zero, Int.sub_add_cancel]

theorem IsMagnitude.lt (h : IsMagnitude z) : z < 2 ^ (1024 : ℤ) := by
  obtain ⟨m, e, hm, -, he, rfl⟩ := h
  have hm' : (m : ℚ) < 2 ^ (53 : ℤ) := by exact_mod_cast hm
  calc (m : ℚ) * 2 ^ e < 2 ^ (53 : ℤ) * 2 ^ e := by gcongr
    _ ≤ 2 ^ (53 : ℤ) * 2 ^ (971 : ℤ) := by
      gcongr
      · exact one_le_two
      · exact he
    _ = 2 ^ (1024 : ℤ) := (zpow_add₀ two_ne_zero 53 971).symm

/-- A magnitude is a multiple of the last place that another number keeps, unless it has fewer
binary digits than that number. -/
theorem IsMagnitude.multiple_or_lt (h : IsMagnitude z) (q : ℚ) :
    (∃ k : ℕ, z = k * 2 ^ unit q) ∨ (z < 2 ^ Int.log 2 q ∧ unit q = Int.log 2 q - 52) := by
  obtain ⟨m, e, hm, hlow, -, rfl⟩ := h
  by_cases he : unit q ≤ e
  · left
    obtain ⟨n, hn⟩ := Int.eq_ofNat_of_zero_le (Int.sub_nonneg_of_le he)
    refine ⟨m * 2 ^ n, ?_⟩
    rw [two_zpow_split e (unit q), hn]
    push_cast
    rw [zpow_natCast, mul_assoc]
  · right
    have hunit : unit q = Int.log 2 q - 52 := by
      unfold unit at he ⊢
      omega
    refine ⟨?_, hunit⟩
    have hm' : (m : ℚ) < 2 ^ (53 : ℤ) := by exact_mod_cast hm
    calc (m : ℚ) * 2 ^ e < 2 ^ (53 : ℤ) * 2 ^ e := by gcongr
      _ = 2 ^ (53 + e) := by rw [zpow_add₀ two_ne_zero]
      _ ≤ 2 ^ Int.log 2 q := zpow_le_zpow_right₀ one_le_two (by omega)

/-- Rounding does not lead past a magnitude above. -/
theorem grid_le (hq : 0 < q) (hz : IsMagnitude z) (h : q ≤ z) : grid q ≤ z := by
  rcases hz.multiple_or_lt q with ⟨k, rfl⟩ | ⟨hlt, -⟩
  · have hk : q / 2 ^ unit q ≤ k := by
      rwa [div_le_iff₀ (by positivity)]
    have hround : roundEven (q / 2 ^ unit q) ≤ k := roundEven_le (by positivity) hk
    unfold grid
    gcongr
  · have hlog := (le_log_iff hq).mpr (le_refl (Int.log 2 q))
    linarith

/-- Unless the number is too small for it, rounding keeps 53 binary digits. -/
theorem pow_log_le_grid (hq : 0 < q) (hunit : unit q = Int.log 2 q - 52) :
    (2 : ℚ) ^ Int.log 2 q ≤ grid q := by
  have hsplit : (2 : ℚ) ^ Int.log 2 q = 2 ^ (52 : ℤ) * 2 ^ unit q := by
    rw [← zpow_add₀ two_ne_zero, hunit]
    congr 1
    omega
  have hlog := (le_log_iff hq).mpr (le_refl (Int.log 2 q))
  have hscaled : ((2 ^ 52 : ℕ) : ℚ) ≤ q / 2 ^ unit q := by
    rw [le_div_iff₀ (by positivity)]
    rw [hsplit] at hlog
    exact_mod_cast hlog
  have hround : 2 ^ 52 ≤ roundEven (q / 2 ^ unit q) := le_roundEven hscaled
  rw [hsplit, grid]
  gcongr
  exact_mod_cast hround

/-- Rounding does not lead past a magnitude below. -/
theorem le_grid (hq : 0 < q) (hz : IsMagnitude z) (h : z ≤ q) : z ≤ grid q := by
  rcases hz.multiple_or_lt q with ⟨k, rfl⟩ | ⟨hlt, hunit⟩
  · have hk : (k : ℚ) ≤ q / 2 ^ unit q := by
      rwa [le_div_iff₀ (by positivity)]
    have hround : k ≤ roundEven (q / 2 ^ unit q) := le_roundEven hk
    unfold grid
    gcongr
  · exact hlt.le.trans (pow_log_le_grid hq hunit)

/-- The number on the grid is the value that is given, unless it lies beyond all floating point
numbers. -/
theorem rounded_cases (hq : 0 < q) (negative : Bool) :
    (rounded negative q = .infinite negative ∧ 2 ^ (1024 : ℤ) ≤ grid q) ∨
      ∃ m e, rounded negative q = .finite negative m e ∧ (m : ℚ) * 2 ^ e = grid q := by
  unfold rounded
  by_cases hcarry : roundEven (q / 2 ^ unit q) = power 2 53
  · rw [if_pos hcarry]
    have hgrid : grid q = 2 ^ (53 + unit q) := by
      rw [grid, hcarry, zpow_add₀ two_ne_zero]
      exact congrArg (· * (2 : ℚ) ^ unit q) (cast_power_two 53)
    by_cases hover : maxExponent < unit q + 1
    · rw [if_pos hover, hgrid]
      refine .inl ⟨rfl, zpow_le_zpow_right₀ one_le_two ?_⟩
      unfold maxExponent at hover
      omega
    · rw [if_neg hover, hgrid]
      refine .inr ⟨_, _, rfl, ?_⟩
      have hpower : (power 2 52 : ℚ) = 2 ^ (52 : ℤ) := cast_power_two 52
      rw [hpower, ← zpow_add₀ two_ne_zero]
      congr 1
      omega
  · rw [if_neg hcarry]
    by_cases hover : maxExponent < unit q
    · rw [if_pos hover]
      refine .inl ⟨rfl, ?_⟩
      have hunit : unit q = Int.log 2 q - 52 := by
        unfold maxExponent at hover
        unfold unit minExponent at hover ⊢
        omega
      refine le_trans (zpow_le_zpow_right₀ one_le_two ?_) (pow_log_le_grid hq hunit)
      unfold maxExponent at hover
      omega
    · rw [if_neg hover]
      exact .inr ⟨_, _, rfl, rfl⟩

end

/-- Beyond the largest floating point numbers there is only infinity. -/
theorem rounded_of_le {q : ℚ} (h : 2 ^ (1024 : ℤ) ≤ q) (negative : Bool) :
    rounded negative q = .infinite negative := by
  have hq : 0 < q := lt_of_lt_of_le (by positivity) h
  have hlog := (le_log_iff hq).mp h
  have hunit : maxExponent < unit q := by
    unfold unit maxExponent
    omega
  unfold rounded
  rw [if_pos hunit, if_pos (hunit.trans (lt_add_one _)), ite_self]

/-- Less than half of the least floating point number is nothing. -/
theorem rounded_of_lt {q : ℚ} (hq : 0 < q) (h : q < 2 ^ (-1075 : ℤ)) (negative : Bool) :
    rounded negative q = zero negative := by
  have hlog := (log_lt_iff hq).mp h
  have hunit : unit q = minExponent := by
    unfold unit minExponent
    omega
  have hhalf : q / 2 ^ unit q < 1 / 2 := by
    rw [hunit, div_lt_iff₀ (by positivity)]
    calc q < 2 ^ (-1075 : ℤ) := h
      _ = 2 ^ (-1 : ℤ) * 2 ^ (-1074 : ℤ) := zpow_add₀ two_ne_zero (-1) (-1074)
      _ = 1 / 2 * 2 ^ minExponent := by
        rw [zpow_neg_one, one_div]
        rfl
  have hfloor : ⌊q / 2 ^ unit q⌋₊ = 0 := Nat.floor_eq_zero.mpr (by linarith)
  have hround : roundEven (q / 2 ^ unit q) = 0 := by
    unfold roundEven
    rw [hfloor, if_neg]
    push_cast
    rintro (hup | ⟨-, hodd⟩)
    · linarith
    · omega
  unfold rounded
  rw [hround, hunit]
  rfl

end Binary64

/-! ### Decimal numbers -/

/-- A magnitude with a sign. -/
def signed (negative : Bool) (q : ℚ) : ℚ :=
  if negative then -q else q

namespace Decimal

/-- The number that a literal writes, without its sign. -/
def magnitude (d : Decimal) : ℚ :=
  d.coefficient * 10 ^ d.exponent

/-- The number that a literal writes. -/
def value (d : Decimal) : ℚ :=
  signed d.negative d.magnitude

variable {d : Decimal}

theorem magnitude_pos (h : d.coefficient ≠ 0) : 0 < d.magnitude := by
  have hpos : (0 : ℚ) < d.coefficient := by exact_mod_cast Nat.pos_of_ne_zero h
  unfold magnitude
  positivity

/-- The place of the leading digit bounds the number on both sides. -/
theorem magnitude_bounds (h : d.coefficient ≠ 0) :
    (10 : ℚ) ^ (d.exponent + (digits d.coefficient).length - 1) ≤ d.magnitude ∧
      d.magnitude < 10 ^ (d.exponent + (digits d.coefficient).length) := by
  have hlength : 0 < (digits d.coefficient).length := Nat.length_toDigits_pos
  have hhigh : d.coefficient < 10 ^ (digits d.coefficient).length :=
    (Nat.length_toDigits_le_iff (by decide) hlength).mp (le_refl _)
  have hlow : 10 ^ ((digits d.coefficient).length - 1) ≤ d.coefficient := by
    rcases Nat.eq_zero_or_pos ((digits d.coefficient).length - 1) with hone | hmore
    · rw [hone]
      exact Nat.pos_of_ne_zero h
    · refine Nat.le_of_not_lt fun hlt => ?_
      have hle : (digits d.coefficient).length ≤ (digits d.coefficient).length - 1 :=
        (Nat.length_toDigits_le_iff (by decide) hmore).mpr hlt
      omega
  unfold magnitude
  constructor
  · calc (10 : ℚ) ^ (d.exponent + (digits d.coefficient).length - 1)
        = 10 ^ (((digits d.coefficient).length - 1 : ℕ) : ℤ) * 10 ^ d.exponent := by
          rw [← zpow_add₀ (by norm_num)]
          congr 1
          omega
      _ ≤ d.coefficient * 10 ^ d.exponent := by
          gcongr
          exact_mod_cast hlow
  · calc (d.coefficient : ℚ) * 10 ^ d.exponent
        < 10 ^ ((digits d.coefficient).length : ℤ) * 10 ^ d.exponent := by
          gcongr
          exact_mod_cast hhigh
      _ = 10 ^ (d.exponent + (digits d.coefficient).length) := by
          rw [← zpow_add₀ (by norm_num), add_comm]

end Decimal

namespace Binary64

/-- What is given for a literal hangs on the sign and the magnitude of its number alone. -/
theorem ofDecimal_eq_rounded {d : Decimal} (h : d.coefficient ≠ 0) :
    ofDecimal d = rounded d.negative d.magnitude := by
  obtain ⟨hlow, hhigh⟩ := Decimal.magnitude_bounds h
  have hpos := Decimal.magnitude_pos h
  unfold ofDecimal
  dsimp only
  split
  · next hsmall =>
    have htop := hsmall.resolve_left h
    refine (rounded_of_lt hpos (hhigh.trans_le ?_) _).symm
    calc (10 : ℚ) ^ (d.exponent + (digits d.coefficient).length)
        ≤ 10 ^ (-330 : ℤ) := zpow_le_zpow_right₀ (by norm_num) htop.le
      _ ≤ 2 ^ (-1075 : ℤ) := by
        have hle : (2 : ℕ) ^ 1075 ≤ 10 ^ 330 := by decide +kernel
        rw [zpow_neg, zpow_neg]
        exact inv_anti₀ (by positivity) (by exact_mod_cast hle)
  · split
    · next hlarge =>
      refine (rounded_of_le (le_trans ?_ hlow) _).symm
      have hle : (2 : ℕ) ^ 1024 ≤ 10 ^ 310 := by decide +kernel
      calc (2 : ℚ) ^ (1024 : ℤ) ≤ 10 ^ (310 : ℤ) := by exact_mod_cast hle
        _ ≤ 10 ^ (d.exponent + (digits d.coefficient).length - 1) :=
          zpow_le_zpow_right₀ (by norm_num) (by omega)
    · have hnum : 0 < d.coefficient * power 10 d.exponent :=
        Nat.mul_pos (Nat.pos_of_ne_zero h) (power_pos (by decide) _)
      rw [ofRatio_eq hnum (power_pos (by decide) _)]
      congr 1
      have hpower := power_div_power 10 d.exponent
      unfold Decimal.magnitude
      push_cast
      rw [mul_div_assoc, hpower]
      norm_num

/-- A finite value is no more than a number, and so is the infinity below all numbers. -/
def AtMost (z : ℚ) : Binary64 → Prop
  | nan => False
  | infinite negative => negative = true
  | finite negative m e => signed negative (m * 2 ^ e) ≤ z

/-- A finite value is no less than a number, and so is the infinity above all numbers. -/
def AtLeast (z : ℚ) : Binary64 → Prop
  | nan => False
  | infinite negative => negative = false
  | finite negative m e => z ≤ signed negative (m * 2 ^ e)

/-- The numbers that have a floating point number of their own. -/
def IsBinary64 (z : ℚ) : Prop :=
  IsMagnitude |z|

theorem isMagnitude_zero : IsMagnitude 0 :=
  ⟨0, 0, by decide, by decide, by decide, by norm_num⟩

section

variable {d : Decimal} {q z z' : ℚ} {b b' : Binary64}

/-- Rounding leads past no magnitude, whatever the sign. -/
theorem rounded_atMost (hq : 0 < q) (hz : IsMagnitude z) (h : q ≤ z) :
    (rounded false q).AtMost z ∧ (rounded true q).AtLeast (-z) := by
  have hgrid := grid_le hq hz h
  have hfinite : ∀ negative, ∃ m e, rounded negative q = .finite negative m e ∧
      (m : ℚ) * 2 ^ e ≤ z := by
    intro negative
    rcases rounded_cases hq negative with ⟨-, hover⟩ | ⟨m, e, hrounded, hvalue⟩
    · have hlt := hz.lt
      linarith
    · exact ⟨m, e, hrounded, hvalue.trans_le hgrid⟩
  constructor
  · obtain ⟨m, e, hrounded, hle⟩ := hfinite false
    rw [hrounded]
    exact hle
  · obtain ⟨m, e, hrounded, hle⟩ := hfinite true
    rw [hrounded]
    exact neg_le_neg hle

theorem rounded_atLeast (hq : 0 < q) (hz : IsMagnitude z) (h : z ≤ q) :
    (rounded false q).AtLeast z ∧ (rounded true q).AtMost (-z) := by
  have hgrid := le_grid hq hz h
  constructor
  · rcases rounded_cases hq false with ⟨hrounded, -⟩ | ⟨m, e, hrounded, hvalue⟩
    · rw [hrounded]
      rfl
    · rw [hrounded]
      exact hgrid.trans_eq hvalue.symm
  · rcases rounded_cases hq true with ⟨hrounded, -⟩ | ⟨m, e, hrounded, hvalue⟩
    · rw [hrounded]
      rfl
    · rw [hrounded]
      exact neg_le_neg (hgrid.trans_eq hvalue.symm)

theorem AtMost.mono (h : b.AtMost z) (hle : z ≤ z') : b.AtMost z' := by
  cases b with
  | nan => exact h
  | infinite negative => exact h
  | finite negative m e => exact le_trans h hle

theorem AtLeast.mono (h : b.AtLeast z) (hle : z' ≤ z) : b.AtLeast z' := by
  cases b with
  | nan => exact h
  | infinite negative => exact h
  | finite negative m e => exact le_trans hle h

theorem ofDecimal_eq_zero (h : d.coefficient = 0) : ofDecimal d = zero d.negative :=
  if_pos (.inl h)

theorem value_eq_zero (h : d.coefficient = 0) : d.value = 0 := by
  simp [Decimal.value, Decimal.magnitude, h, signed]

theorem value_ne_zero (h : d.coefficient ≠ 0) : d.value ≠ 0 := by
  have hpos := Decimal.magnitude_pos h
  unfold Decimal.value signed
  split
  · exact neg_ne_zero.mpr hpos.ne'
  · exact hpos.ne'

/-- A positive magnitude with a sign shows both. -/
theorem signed_inj {n n' : Bool} (hq : 0 < q) (hz : 0 < z) (h : signed n q = signed n' z) :
    n = n' ∧ q = z := by
  cases n <;> cases n' <;> simp only [signed, Bool.false_eq_true, if_true, if_false] at h
  · exact ⟨rfl, h⟩
  · linarith
  · linarith
  · exact ⟨rfl, neg_inj.mp h⟩

theorem signed_zero (negative : Bool) (e : ℤ) : signed negative ((0 : ℕ) * 2 ^ e) = 0 := by
  simp [signed]

/-- A number that has a floating point number of its own is not passed on the way up. -/
theorem atMost_ofDecimal (hz : IsBinary64 z) (h : d.value ≤ z) : (ofDecimal d).AtMost z := by
  by_cases hzero : d.coefficient = 0
  · rw [value_eq_zero hzero] at h
    rw [ofDecimal_eq_zero hzero]
    exact (signed_zero _ _).trans_le h
  · have hpos := Decimal.magnitude_pos hzero
    rw [ofDecimal_eq_rounded hzero]
    unfold Decimal.value at h
    unfold IsBinary64 at hz
    generalize d.negative = negative at h ⊢
    cases negative with
    | false =>
      have hle : d.magnitude ≤ z := h
      rw [abs_of_nonneg (hpos.le.trans hle)] at hz
      exact (rounded_atMost hpos hz hle).1
    | true =>
      have hle : -d.magnitude ≤ z := h
      rcases le_total 0 z with hsign | hsign
      · exact (rounded_atLeast hpos isMagnitude_zero hpos.le).2.mono (by linarith)
      · rw [abs_of_nonpos hsign] at hz
        have hbelow := (rounded_atLeast hpos hz (by linarith)).2
        rwa [neg_neg] at hbelow

/-- Nor is it on the way down. -/
theorem atLeast_ofDecimal (hz : IsBinary64 z) (h : z ≤ d.value) : (ofDecimal d).AtLeast z := by
  by_cases hzero : d.coefficient = 0
  · rw [value_eq_zero hzero] at h
    rw [ofDecimal_eq_zero hzero]
    exact h.trans_eq (signed_zero _ _).symm
  · have hpos := Decimal.magnitude_pos hzero
    rw [ofDecimal_eq_rounded hzero]
    unfold Decimal.value at h
    unfold IsBinary64 at hz
    generalize d.negative = negative at h ⊢
    cases negative with
    | false =>
      have hle : z ≤ d.magnitude := h
      rcases le_total 0 z with hsign | hsign
      · rw [abs_of_nonneg hsign] at hz
        exact (rounded_atLeast hpos hz hle).1
      · exact (rounded_atLeast hpos isMagnitude_zero hpos.le).1.mono hsign
    | true =>
      have hle : z ≤ -d.magnitude := h
      rw [abs_of_nonpos (by linarith)] at hz
      have habove := (rounded_atMost hpos hz (by linarith)).2
      rwa [neg_neg] at habove

theorem numEq_eq_false (hb : b.AtMost z) (hb' : b'.AtLeast z') (h : z < z') :
    b.numEq b' = false := by
  cases b with
  | nan => rfl
  | infinite negative =>
    cases b' with
    | nan => rfl
    | infinite negative' =>
      have hneg : negative = true := hb
      have hpos : negative' = false := hb'
      rw [hneg, hpos]
      rfl
    | finite => rfl
  | finite negative m e =>
    cases b' with
    | nan => rfl
    | infinite => rfl
    | finite negative' m' e' =>
      rw [← Bool.not_eq_true]
      intro heq
      have hlt := lt_of_le_of_lt hb (lt_of_lt_of_le h hb')
      simp only [numEq, Bool.or_eq_true, Bool.and_eq_true, beq_iff_eq] at heq
      rcases heq with ⟨rfl, rfl⟩ | ⟨⟨rfl, rfl⟩, rfl⟩
      · rw [signed_zero, signed_zero] at hlt
        exact lt_irrefl _ hlt
      · exact lt_irrefl _ hlt

/-- Literals of one number give equal floating point numbers. -/
theorem numEq_ofDecimal_of_value_eq {x y : Decimal} (h : x.value = y.value) :
    (ofDecimal x).numEq (ofDecimal y) = true := by
  by_cases hx : x.coefficient = 0
  · have hy : y.coefficient = 0 := by
      by_contra hy
      exact value_ne_zero hy (h.symm.trans (value_eq_zero hx))
    rw [ofDecimal_eq_zero hx, ofDecimal_eq_zero hy]
    rfl
  · have hy : y.coefficient ≠ 0 := by
      intro hy
      exact value_ne_zero hx (h.trans (value_eq_zero hy))
    obtain ⟨hsign, hmagnitude⟩ := signed_inj (Decimal.magnitude_pos hx) (Decimal.magnitude_pos hy) h
    rw [ofDecimal_eq_rounded hx, ofDecimal_eq_rounded hy, hsign, hmagnitude]
    rcases rounded_cases (Decimal.magnitude_pos hy) y.negative with
      ⟨hrounded, -⟩ | ⟨m, e, hrounded, -⟩
    · rw [hrounded]
      exact beq_self_eq_true _
    · rw [hrounded]
      simp [numEq]

/-- Two numbers with floating point numbers of their own lie between the two. -/
def Apart (p q : ℚ) : Prop :=
  ∃ z z', IsBinary64 z ∧ IsBinary64 z' ∧ p ≤ z ∧ z < z' ∧ z' ≤ q

/-- Numbers that are so far apart give different floating point numbers. -/
theorem numEq_ofDecimal_of_apart {x y : Decimal} (h : Apart x.value y.value) :
    (ofDecimal x).numEq (ofDecimal y) = false := by
  obtain ⟨z, z', hz, hz', hx, hlt, hy⟩ := h
  exact numEq_eq_false (atMost_ofDecimal hz hx) (atLeast_ofDecimal hz' hy) hlt

theorem apart_of_lt (hz : IsBinary64 z) (hz' : IsBinary64 z') (h : z < z') : Apart z z' :=
  ⟨z, z', hz, hz', le_refl z, h, le_refl z'⟩

/-- The integers of 53 binary digits have floating point numbers of their own, and so has the next
power of two. -/
theorem isBinary64_intCast {i : ℤ} (h : |i| ≤ 2 ^ 53) : IsBinary64 i := by
  have hnat : |(i : ℚ)| = (i.natAbs : ℚ) := by
    rw [Nat.cast_natAbs, Int.cast_abs]
  have hle : i.natAbs ≤ 2 ^ 53 := by
    rw [Int.abs_eq_natAbs] at h
    exact_mod_cast h
  unfold IsBinary64
  rw [hnat]
  rcases lt_or_eq_of_le hle with hlt | heq
  · exact ⟨i.natAbs, 0, hlt, by decide, by decide, by norm_num⟩
  · refine ⟨2 ^ 52, 1, by decide, by decide, by decide, ?_⟩
    rw [heq]
    norm_num

theorem numEq_comm (b b' : Binary64) : b.numEq b' = b'.numEq b := by
  cases b <;> cases b' <;> simp only [numEq, Bool.and_comm, Bool.beq_comm]

end

end Binary64

end SchemaKeeper.Number
