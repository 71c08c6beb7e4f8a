import Mathlib.Algebra.Order.Ring.Rat
import Mathlib.Tactic.FieldSimp
import Mathlib.Tactic.Linarith
import Mathlib.Tactic.NormNum
import Mathlib.Tactic.Positivity
import Mathlib.Tactic.Ring
import ASNPrefixMap.Lib.Numeral

/-!
# Fixed-point numerals: `std::fixed << std::setprecision(digits)`

`toFixed` prints an exact value with a fixed number of digits behind the point,
as the C library does it: rounded to the nearest such number, a half going to
the even last digit (`divToEven`). What a reader makes of the text
(`fixedValue`) is the rounded number (`fixedValue_toFixed`), so it is off by at
most half a unit of the last digit, and printing never puts two numbers in the
wrong order.

A `double` is the rational number it is: numbers are exact here, and only the
printing rounds. So a program is modelled faithfully as long as what it prints
was computed without rounding, or the rounding is part of the model of the
computation. Not a number and the infinities do not occur.
-/

namespace ASNPrefixMap.Lib

/-! ## Rounding -/

/-- `n / d` rounded to a whole number; a half goes to the even neighbour.
Integers are enough for this, so the rounding mode of the machine does not come
in. -/
def divToEven (n d : Nat) : Nat :=
  if 2 * (n % d) < d then n / d
  else if d < 2 * (n % d) then n / d + 1
  else n / d + n / d % 2

/-- `r` is `n / d` rounded to the nearest whole number, the even one of two.
Stated without division, as two bounds and what holds at them. -/
structure NearestEven (n d r : Nat) : Prop where
  le : 2 * (r * d) ≤ 2 * n + d
  ge : 2 * n ≤ 2 * (r * d) + d
  tie : 2 * (r * d) = 2 * n + d ∨ 2 * n = 2 * (r * d) + d → r % 2 = 0

/-- The rounding meets its specification, for every positive denominator. -/
theorem divToEven_nearest (n : Nat) {d : Nat} (hd : 0 < d) : NearestEven n d (divToEven n d) := by
  have hn : n / d * d + n % d = n := Nat.div_add_mod' n d
  have hm := Nat.mod_lt n hd
  have hsucc : (n / d + 1) * d = n / d * d + d := Nat.succ_mul _ _
  unfold divToEven
  split
  next hlt => exact ⟨by omega, by omega, fun h => by omega⟩
  next hlt =>
    split
    next hgt => exact ⟨by omega, by omega, fun h => by omega⟩
    next hgt =>
      -- halfway: the quotient, or the next number when the quotient is odd
      rcases Nat.mod_two_eq_zero_or_one (n / d) with h | h
      · rw [h, Nat.add_zero]
        exact ⟨by omega, by omega, fun _ => h⟩
      · rw [h]
        exact ⟨by omega, by omega, fun _ => by omega⟩

/-- Rounding keeps the order of two quotients, whatever their denominators
are. -/
theorem NearestEven.le_of_le {n d r n' d' r' : Nat} (h : NearestEven n d r)
    (h' : NearestEven n' d' r') (hd : 0 < d) (hd' : 0 < d') (hle : n * d' ≤ n' * d) : r ≤ r' := by
  by_contra hlt
  have hstep : (r' + 1) * (d * d') ≤ r * (d * d') := Nat.mul_le_mul_right _ (by omega)
  have hup : 2 * (r * (d * d')) ≤ 2 * (n * d') + d * d' := by
    have := Nat.mul_le_mul_right d' h.le
    linarith
  have hdown : 2 * (n' * d) ≤ 2 * (r' * (d * d')) + d * d' := by
    have := Nat.mul_le_mul_right d h'.ge
    linarith
  have hsucc : (r' + 1) * (d * d') = r' * (d * d') + d * d' := Nat.succ_mul _ _
  -- there is no room in between: both are halfway, next to each other
  have hr : r = r' + 1 :=
    Nat.eq_of_mul_eq_mul_right (Nat.mul_pos hd hd') (by omega)
  have hfirst : r % 2 = 0 := by
    refine h.tie (Or.inl (Nat.eq_of_mul_eq_mul_right hd' ?_))
    have : 2 * (r * (d * d')) = 2 * (n * d') + d * d' := by omega
    linarith
  have hsecond : r' % 2 = 0 := by
    refine h'.tie (Or.inr (Nat.eq_of_mul_eq_mul_right hd ?_))
    have : 2 * (n' * d) = 2 * (r' * (d * d')) + d * d' := by omega
    linarith
  omega

/-! ## Printing -/

/-- The decimal point of the C locale, `'.'`. -/
def point : UInt8 := 46

/-- A nonnegative number in units of the last of `digits` digits behind the
point, rounded to a whole number of them. -/
def fixedUnits (digits : Nat) (x : Rat) : Nat := divToEven (x.num.natAbs * 10 ^ digits) x.den

/-- Zeros on the left, as `std::setfill('0') << std::setw(width)` puts them. -/
def padZeros (width : Nat) (text : Bytes) : Bytes := List.replicate (width - text.length) 48 ++ text

/-- `out << std::fixed << std::setprecision(digits) << x`, with at least one
digit behind the point: the whole units, the point, and the rest filled up with
zeros on the left. -/
def toFixed (digits : Nat) (x : Rat) : Bytes :=
  let units := fixedUnits digits x
  let text := toDec (units / 10 ^ digits) ++ point :: padZeros digits (toDec (units % 10 ^ digits))
  if x < 0 then 45 :: text else text

example : toFixed 3 (2001 / 16) = bytes "125.062" := by decide +kernel

/-- The number that digits with a point among them denote. A reader of the text
computes it exactly. -/
def fixedValue (text : Bytes) : Rat :=
  let fraction := (text.dropWhile (· != point)).tail
  digitsValue (text.takeWhile (· != point)) + digitsValue fraction / 10 ^ fraction.length

/-- A number below a power of ten has no more digits than the exponent says. -/
theorem length_toDec_le : ∀ (digits n : Nat), 0 < digits → n < 10 ^ digits →
    (toDec n).length ≤ digits := by
  intro digits
  induction digits with
  | zero => exact fun n h => absurd h (Nat.lt_irrefl 0)
  | succ digits ih =>
    intro n _ hn
    rcases Nat.lt_or_ge n 10 with h | h
    · rw [toDec_of_lt h, List.length_singleton]
      omega
    · have hpow : n / 10 < 10 ^ digits := by
        rw [Nat.div_lt_iff_lt_mul (by decide), ← Nat.pow_succ]
        exact hn
      have hpos : 0 < digits := by
        rcases Nat.eq_zero_or_pos digits with rfl | hpos
        · omega
        · exact hpos
      have hlen := ih (n / 10) hpos hpow
      rw [toDec_of_ge h, List.length_append, List.length_singleton]
      omega

/-- Padding brings a text to the width, if it is not longer. -/
theorem length_padZeros {width : Nat} {text : Bytes} (h : text.length ≤ width) :
    (padZeros width text).length = width := by
  rw [padZeros, List.length_append, List.length_replicate]
  omega

/-- Zeros on the left do not change the number. -/
theorem digitsValue_padZeros (width : Nat) (text : Bytes) :
    digitsValue (padZeros width text) = digitsValue text := by
  unfold padZeros
  induction width - text.length with
  | zero => rfl
  | succ n ih =>
    rw [List.replicate_succ, List.cons_append]
    exact ih

theorem isDigit_of_mem_padZeros {width n : Nat} {c : UInt8} (h : c ∈ padZeros width (toDec n)) :
    isDigit c = true := by
  rcases List.mem_append.mp h with h | h
  · rw [(List.mem_replicate.mp h).2]
    rfl
  · exact isDigit_of_mem_toDec n c h

/-- A number that is not negative is printed without a sign. -/
theorem toFixed_of_nonneg (digits : Nat) {x : Rat} (hx : 0 ≤ x) :
    toFixed digits x = toDec (fixedUnits digits x / 10 ^ digits) ++
      point :: padZeros digits (toDec (fixedUnits digits x % 10 ^ digits)) :=
  if_neg (not_lt.mpr hx)

/-- A printed number holds digits, a point and perhaps a minus sign. In
particular it holds no comma, so it can stand in a table of fields. -/
theorem mem_toFixed {digits : Nat} {x : Rat} {c : UInt8} (h : c ∈ toFixed digits x) :
    c = 45 ∨ c = point ∨ isDigit c = true := by
  have htext : c ∈ toDec (fixedUnits digits x / 10 ^ digits) ++
      point :: padZeros digits (toDec (fixedUnits digits x % 10 ^ digits)) →
      c = point ∨ isDigit c = true := by
    intro h
    rcases List.mem_append.mp h with h | h
    · exact Or.inr (isDigit_of_mem_toDec _ c h)
    · rcases List.mem_cons.mp h with h | h
      · exact Or.inl h
      · exact Or.inr (isDigit_of_mem_padZeros h)
  unfold toFixed at h
  dsimp only at h
  split at h
  · rcases List.mem_cons.mp h with h | h
    · exact Or.inl h
    · exact Or.inr (htext h)
  · exact Or.inr (htext h)

/-! ## Reading back -/

variable {digits : Nat}

/-- **What is read is the rounded number.** Printing and reading again is the
rounding, and nothing else is lost. -/
theorem fixedValue_toFixed (hdigits : 0 < digits) {x : Rat} (hx : 0 ≤ x) :
    fixedValue (toFixed digits x) = fixedUnits digits x / 10 ^ digits := by
  have hpoint : point ∉ toDec (fixedUnits digits x / 10 ^ digits) := notMem_toDec rfl _
  have hlen := length_toDec_le digits (fixedUnits digits x % 10 ^ digits) hdigits
    (Nat.mod_lt _ (Nat.pow_pos (by decide)))
  have hsum : (fixedUnits digits x / 10 ^ digits : Nat) * 10 ^ digits +
      fixedUnits digits x % 10 ^ digits = fixedUnits digits x := Nat.div_add_mod' _ _
  rw [toFixed_of_nonneg digits hx]
  unfold fixedValue
  dsimp only
  rw [takeWhile_ne_sep hpoint, dropWhile_ne_sep hpoint, List.tail_cons, length_padZeros hlen,
    digitsValue_padZeros, digitsValue_toDec, digitsValue_toDec]
  have hpow : (10 : Rat) ^ digits ≠ 0 := by positivity
  rw [eq_div_iff hpow, add_mul, div_mul_cancel₀ _ hpow]
  exact_mod_cast hsum

/-- The units are the nearest number of them, the even one of two. -/
theorem fixedUnits_nearest (digits : Nat) (x : Rat) :
    NearestEven (x.num.natAbs * 10 ^ digits) x.den (fixedUnits digits x) :=
  divToEven_nearest _ x.den_pos

/-- A number that is not negative, times its denominator, is its numerator. -/
theorem natAbs_num {x : Rat} (hx : 0 ≤ x) : (x.num.natAbs : Rat) = x * x.den := by
  have hnum : (x.num.natAbs : Int) = x.num := Int.natAbs_of_nonneg (Rat.num_nonneg.mpr hx)
  rw [Rat.mul_den_eq_num, ← hnum]
  rfl

/-- The text is off by at most half a unit of its last digit, which is the best
a text of that many digits can do. -/
theorem abs_fixedValue_sub_le (hdigits : 0 < digits) {x : Rat} (hx : 0 ≤ x) :
    |fixedValue (toFixed digits x) - x| ≤ 1 / (2 * 10 ^ digits) := by
  have hden : (0 : Rat) < x.den := Nat.cast_pos.mpr x.den_pos
  have hpow : (0 : Rat) < 10 ^ digits := by positivity
  have hnear := fixedUnits_nearest digits x
  have hle : 2 * ((fixedUnits digits x : Rat) * x.den) ≤ 2 * (x * x.den * 10 ^ digits) + x.den := by
    rw [← natAbs_num hx]
    exact_mod_cast hnear.le
  have hge : 2 * (x * x.den * 10 ^ digits) ≤ 2 * ((fixedUnits digits x : Rat) * x.den) + x.den := by
    rw [← natAbs_num hx]
    exact_mod_cast hnear.ge
  -- the denominator cancels
  have hle' : 2 * (fixedUnits digits x : Rat) ≤ 2 * (x * 10 ^ digits) + 1 := by
    refine le_of_mul_le_mul_right ?_ hden
    linarith
  have hge' : 2 * (x * 10 ^ digits) ≤ 2 * (fixedUnits digits x : Rat) + 1 := by
    refine le_of_mul_le_mul_right ?_ hden
    linarith
  rw [fixedValue_toFixed hdigits hx, abs_le]
  have hdiff : (fixedUnits digits x : Rat) / 10 ^ digits - x =
      (2 * fixedUnits digits x - 2 * (x * 10 ^ digits)) / (2 * 10 ^ digits) := by
    field_simp
  rw [hdiff]
  constructor
  · rw [← neg_div]
    exact div_le_div_of_nonneg_right (by linarith) (by positivity)
  · exact div_le_div_of_nonneg_right (by linarith) (by positivity)

/-- Printing keeps the order: a greater number is never read as a smaller
one. -/
theorem fixedValue_mono (hdigits : 0 < digits) {x y : Rat} (hx : 0 ≤ x) (hxy : x ≤ y) :
    fixedValue (toFixed digits x) ≤ fixedValue (toFixed digits y) := by
  have hy := hx.trans hxy
  have hcross : x.num.natAbs * 10 ^ digits * y.den ≤ y.num.natAbs * 10 ^ digits * x.den := by
    have hdx : (0 : Rat) < x.den := Nat.cast_pos.mpr x.den_pos
    have hdy : (0 : Rat) < y.den := Nat.cast_pos.mpr y.den_pos
    have hrat : (x.num.natAbs : Rat) * 10 ^ digits * y.den ≤ y.num.natAbs * 10 ^ digits * x.den := by
      rw [natAbs_num hx, natAbs_num hy]
      have := mul_le_mul_of_nonneg_right hxy (show (0 : Rat) ≤ x.den * 10 ^ digits * y.den by positivity)
      linarith
    exact_mod_cast hrat
  have hle := (fixedUnits_nearest digits x).le_of_le (fixedUnits_nearest digits y) x.den_pos
    y.den_pos hcross
  rw [fixedValue_toFixed hdigits hx, fixedValue_toFixed hdigits hy]
  exact div_le_div_of_nonneg_right (Nat.cast_le.mpr hle) (by positivity)

end ASNPrefixMap.Lib
