/-
Quotients told apart by their nearest doubles. Rounding sees nothing of a quotient but its value
(`nearestBits_congr`), and it moves a quotient that is neither too small nor too large by at
most one part in `2^53` (`exists_mantissa`). Quotients of small numbers are either equal or much
farther apart than that, so they are ordered as the bits of their nearest doubles are
(`nearestBits_lt`).

All inequalities are between naturals: quotients are compared crosswise, and the value of a
double is counted in units of the least double above zero.
-/
import Mathlib.Tactic.GCongr
import Mathlib.Tactic.Ring
import SystemMap.Decimal.Nearest

namespace SystemMap.Decimal

-- ================================================== rounding to a natural

/-- A quotient is rounded down up to a half, and up from a half on. -/
theorem roundDiv_cases (num den : Nat) :
    (roundDiv num den = num / den ∧ 2 * (num % den) ≤ den) ∨
      (roundDiv num den = num / den + 1 ∧ den ≤ 2 * (num % den)) := by
  unfold roundDiv
  dsimp only
  rcases Nat.lt_trichotomy (2 * (num % den)) den with hless | htie | hmore
  · exact .inl ⟨if_pos hless, hless.le⟩
  · rw [if_neg htie.not_lt, if_neg htie.symm.not_lt]
    rcases Nat.mod_two_eq_zero_or_one (num / den) with heven | hodd
    · exact .inl ⟨by rw [heven, Nat.add_zero], htie.le⟩
    · exact .inr ⟨by rw [hodd], htie.ge⟩
  · rw [if_neg hmore.not_gt, if_pos hmore]
    exact .inr ⟨rfl, hmore.le⟩

/-- Rounding moves a quotient by at most a half. -/
theorem roundDiv_near (num : Nat) {den : Nat} (hden : 0 < den) :
    2 * (roundDiv num den * den) ≤ 2 * num + den ∧
      2 * num ≤ 2 * (roundDiv num den * den) + den := by
  have hsplit : num / den * den + num % den = num := Nat.div_add_mod' num den
  have hless : num % den < den := Nat.mod_lt num hden
  rcases roundDiv_cases num den with ⟨hround, hrest⟩ | ⟨hround, hrest⟩
  · rw [hround]
    omega
  · rw [hround, Nat.add_mul, Nat.one_mul]
    omega

/-- Rounding keeps to a whole number that the quotient does not fall below. -/
theorem le_roundDiv {num den bound : Nat} (hden : 0 < den) (h : bound * den ≤ num) :
    bound ≤ roundDiv num den := by
  have hle : bound ≤ num / den := (Nat.le_div_iff_mul_le hden).2 h
  rcases roundDiv_cases num den with ⟨hround, -⟩ | ⟨hround, -⟩ <;> omega

/-- Nor does it go beyond one that the quotient does not reach. -/
theorem roundDiv_le_of_lt {num den bound : Nat} (h : num < den * bound) :
    roundDiv num den ≤ bound := by
  have hless : num / den < bound := Nat.div_lt_of_lt_mul h
  rcases roundDiv_cases num den with ⟨hround, -⟩ | ⟨hround, -⟩ <;> omega

/-- A fraction that is expanded is rounded alike. -/
theorem roundDiv_scale {k : Nat} (hk : 0 < k) (num den : Nat) :
    roundDiv (num * k) (den * k) = roundDiv num den := by
  unfold roundDiv
  rw [Nat.mul_div_mul_right _ _ hk, Nat.mul_mod_mul_right, ← Nat.mul_assoc]
  simp only [Nat.mul_lt_mul_right hk]

/-- Equal fractions are rounded alike. -/
theorem roundDiv_congr {a b c d : Nat} (hb : 0 < b) (hd : 0 < d) (h : a * d = c * b) :
    roundDiv a b = roundDiv c d := by
  rw [← roundDiv_scale hd a b, h, Nat.mul_comm b d, roundDiv_scale hb c d]

-- =========================================================== exponents

/-- The exponent is the least that leaves a quotient below `2^53`. -/
theorem exponentOf_spec {num den : Nat} (hnum : num ≠ 0) (hden : den ≠ 0) :
    num * 2 ^ 1022 < den * 2 ^ (exponentOf num den + 1) ∧
      (exponentOf num den = 0 ∨ den * 2 ^ exponentOf num den ≤ num * 2 ^ 1022) := by
  have hnumLow : 2 ^ num.log2 ≤ num := Nat.log2_self_le hnum
  have hnumHigh : num < 2 ^ (num.log2 + 1) := Nat.lt_log2_self
  have hdenLow : 2 ^ den.log2 ≤ den := Nat.log2_self_le hden
  have hdenHigh : den < 2 ^ (den.log2 + 1) := Nat.lt_log2_self
  unfold exponentOf
  dsimp only [Nat.pow_eq]
  generalize (1022 : Nat) = k
  generalize hguess : num.log2 + k - den.log2 = guess
  have hupper : num * 2 ^ k < den * 2 ^ (guess + 1) := by
    calc num * 2 ^ k < 2 ^ (num.log2 + 1) * 2 ^ k :=
          Nat.mul_lt_mul_of_pos_right hnumHigh (Nat.two_pow_pos k)
      _ = 2 ^ (num.log2 + 1 + k) := (Nat.pow_add 2 _ _).symm
      _ ≤ 2 ^ (den.log2 + (guess + 1)) := Nat.pow_le_pow_right (by decide) (by omega)
      _ = 2 ^ den.log2 * 2 ^ (guess + 1) := Nat.pow_add 2 _ _
      _ ≤ den * 2 ^ (guess + 1) := Nat.mul_le_mul_right _ hdenLow
  by_cases hhigh : num * 2 ^ k < den * 2 ^ guess
  · rw [if_pos hhigh]
    cases guess with
    | zero => exact ⟨hupper, .inl rfl⟩
    | succ e =>
        refine ⟨hhigh, .inr ?_⟩
        calc den * 2 ^ e ≤ 2 ^ (den.log2 + 1) * 2 ^ e := Nat.mul_le_mul_right _ hdenHigh.le
          _ = 2 ^ (den.log2 + 1 + e) := (Nat.pow_add 2 _ _).symm
          _ = 2 ^ (num.log2 + k) := by congr 1; omega
          _ = 2 ^ num.log2 * 2 ^ k := Nat.pow_add 2 _ _
          _ ≤ num * 2 ^ k := Nat.mul_le_mul_right _ hnumLow
  · rw [if_neg hhigh]
    exact ⟨hupper, .inr (Nat.not_lt.1 hhigh)⟩

/-- A quotient that is no larger has no larger exponent. -/
theorem exponentOf_le {a b c d : Nat} (ha : a ≠ 0) (hb : b ≠ 0) (hc : c ≠ 0) (hd : d ≠ 0)
    (h : a * d ≤ c * b) : exponentOf a b ≤ exponentOf c d := by
  obtain ⟨-, hlow⟩ := exponentOf_spec ha hb
  obtain ⟨hhigh, -⟩ := exponentOf_spec hc hd
  by_contra hless
  have hlow := hlow.resolve_left (by omega)
  revert hlow hhigh
  generalize (1022 : Nat) = k
  intro hhigh hlow
  have hstep : d * 2 ^ (exponentOf c d + 1) ≤ d * 2 ^ exponentOf a b :=
    Nat.mul_le_mul_left d (Nat.pow_le_pow_right (by decide) (by omega))
  have hfirst := Nat.mul_lt_mul_of_pos_right (hhigh.trans_le hstep) (Nat.pos_of_ne_zero hb)
  have hsecond := Nat.mul_le_mul_right d hlow
  have hthird := Nat.mul_le_mul_right (2 ^ k) h
  refine absurd hfirst (Nat.not_lt.2 ?_)
  calc d * 2 ^ exponentOf a b * b = b * 2 ^ exponentOf a b * d := by ring
    _ ≤ a * 2 ^ k * d := hsecond
    _ = a * d * 2 ^ k := by ring
    _ ≤ c * b * 2 ^ k := hthird
    _ = c * 2 ^ k * b := by ring

-- ========================================================= equal quotients

theorem nearestBits_zero (den : Nat) : nearestBits 0 den = 0 := if_pos rfl

/-- Equal quotients have one nearest double. -/
theorem nearestBits_congr {a b c d : Nat} (hb : b ≠ 0) (hd : d ≠ 0) (h : a * d = c * b) :
    nearestBits a b = nearestBits c d := by
  by_cases ha : a = 0
  · have hc : c = 0 := by
      rw [ha, Nat.zero_mul] at h
      exact (Nat.mul_eq_zero.1 h.symm).resolve_right hb
    rw [ha, hc, nearestBits_zero, nearestBits_zero]
  · have hc : c ≠ 0 := by
      rintro rfl
      rw [Nat.zero_mul] at h
      exact (Nat.mul_eq_zero.1 h).elim ha hd
    have hexponent : exponentOf a b = exponentOf c d :=
      Nat.le_antisymm (exponentOf_le ha hb hc hd h.le) (exponentOf_le hc hd ha hb h.ge)
    unfold nearestBits
    rw [if_neg ha, if_neg hc, hexponent]
    dsimp only [Nat.pow_eq]
    generalize (1074 : Nat) = k
    have hpos : ∀ {n : Nat}, n ≠ 0 → 0 < n * 2 ^ exponentOf c d := fun hn =>
      Nat.mul_pos (Nat.pos_of_ne_zero hn) (Nat.two_pow_pos _)
    rw [roundDiv_congr (hpos hb) (hpos hd)]
    calc a * 2 ^ k * (d * 2 ^ exponentOf c d) = a * d * (2 ^ k * 2 ^ exponentOf c d) := by ring
      _ = c * b * (2 ^ k * 2 ^ exponentOf c d) := by rw [h]
      _ = c * 2 ^ k * (b * 2 ^ exponentOf c d) := by ring

-- ====================================================== the nearest double

/-- A quotient that is neither too small nor too large has a mantissa of 53 bits, and no
exponent that is out of bounds. -/
theorem exponentOf_bounds {num den : Nat} (hden : den ≠ 0) (hlow : den ≤ num * 2 ^ 52)
    (hhigh : num ≤ den * 2 ^ 52) :
    exponentOf num den ≤ 1074 ∧
      2 ^ 52 * (den * 2 ^ exponentOf num den) ≤ num * 2 ^ 1074 ∧
      num * 2 ^ 1074 < den * 2 ^ exponentOf num den * 2 ^ 53 := by
  have hnum : num ≠ 0 := by
    rintro rfl
    omega
  obtain ⟨hspecHigh, hspecLow⟩ := exponentOf_spec hnum hden
  have hshift : 1074 = 1022 + 52 := rfl
  rw [hshift]
  have hfar : 52 ≤ 1022 := by decide
  clear hshift
  revert hspecHigh hspecLow hfar
  generalize (1022 : Nat) = k
  generalize exponentOf num den = e
  intro hspecHigh hspecLow hfar
  have hnormal : den * 2 ^ e ≤ num * 2 ^ k := by
    rcases hspecLow with hzero | hspecLow
    · rw [hzero, Nat.pow_zero, Nat.mul_one]
      exact hlow.trans (Nat.mul_le_mul_left _ (Nat.pow_le_pow_right (by decide) hfar))
    · exact hspecLow
  refine ⟨?_, ?_, ?_⟩
  · have hbound : den * 2 ^ e ≤ den * 2 ^ (k + 52) := by
      calc den * 2 ^ e ≤ num * 2 ^ k := hnormal
        _ ≤ den * 2 ^ 52 * 2 ^ k := Nat.mul_le_mul_right _ hhigh
        _ = den * 2 ^ (k + 52) := by rw [Nat.pow_add]; ring
    have hpow := Nat.le_of_mul_le_mul_left hbound (Nat.pos_of_ne_zero hden)
    exact (Nat.pow_le_pow_iff_right (by decide)).1 hpow
  · calc 2 ^ 52 * (den * 2 ^ e) ≤ 2 ^ 52 * (num * 2 ^ k) := Nat.mul_le_mul_left _ hnormal
      _ = num * 2 ^ (k + 52) := by rw [Nat.pow_add]; ring
  · calc num * 2 ^ (k + 52) = num * 2 ^ k * 2 ^ 52 := by rw [Nat.pow_add]; ring
      _ < den * 2 ^ (e + 1) * 2 ^ 52 := Nat.mul_lt_mul_of_pos_right hspecHigh (by decide)
      _ = den * 2 ^ e * 2 ^ 53 := by rw [Nat.pow_succ]; ring

/-- The parts of the double nearest to a quotient that is neither too small nor too large: its
exponent, and a mantissa that is off by at most one part in `2^53`. -/
theorem exists_mantissa {num den : Nat} (hden : den ≠ 0) (hlow : den ≤ num * 2 ^ 52)
    (hhigh : num ≤ den * 2 ^ 52) :
    ∃ e m, nearestBits num den = e * 2 ^ 52 + m ∧ 2 ^ 52 ≤ m ∧ m ≤ 2 ^ 53 ∧
      2 ^ 53 * (m * 2 ^ e * den) ≤ (2 ^ 53 + 1) * (num * 2 ^ 1074) ∧
      (2 ^ 53 - 1) * (num * 2 ^ 1074) ≤ 2 ^ 53 * (m * 2 ^ e * den) := by
  have hnum : num ≠ 0 := by
    rintro rfl
    omega
  obtain ⟨he, hmin, hmax⟩ := exponentOf_bounds hden hlow hhigh
  have hpos : 0 < den * 2 ^ exponentOf num den :=
    Nat.mul_pos (Nat.pos_of_ne_zero hden) (Nat.two_pow_pos _)
  have hmantissaLow := le_roundDiv hpos hmin
  have hmantissaHigh := roundDiv_le_of_lt hmax
  obtain ⟨hnearHigh, hnearLow⟩ := roundDiv_near (num * 2 ^ 1074) hpos
  refine ⟨exponentOf num den, _, ?_, hmantissaLow, hmantissaHigh, ?_, ?_⟩
  · unfold nearestBits infinityBits
    rw [if_neg hnum]
    dsimp only [Nat.pow_eq]
    have hfinite : exponentOf num den < 2000 := by omega
    generalize (1074 : Nat) = k at *
    generalize roundDiv (num * 2 ^ k) (den * 2 ^ exponentOf num den) = m at *
    exact Nat.min_eq_right (by omega)
  all_goals
    generalize roundDiv (num * 2 ^ 1074) (den * 2 ^ exponentOf num den) = m at *
    have hsplit : m * 2 ^ exponentOf num den * den = m * (den * 2 ^ exponentOf num den) := by ring
    rw [hsplit]
    generalize m * (den * 2 ^ exponentOf num den) = stored at *
    generalize den * 2 ^ exponentOf num den = scale at *
    generalize num * 2 ^ 1074 = exact at *
    omega

-- ===================================================== different quotients

/-- Of two doubles with mantissas of 53 bits, the bits of the lesser one are less. -/
theorem bits_lt_of_lt {e m e' m' : Nat} (hm : 2 ^ 52 ≤ m) (hm' : m ≤ 2 ^ 53)
    (hn : 2 ^ 52 ≤ m') (hn' : m' ≤ 2 ^ 53) (h : m * 2 ^ e < m' * 2 ^ e') :
    e * 2 ^ 52 + m < e' * 2 ^ 52 + m' := by
  have hcarry : ∀ k, 2 ^ 53 * 2 ^ k = 2 ^ 52 * 2 ^ (k + 1) := by
    intro k
    rw [Nat.pow_succ]
    ring
  rcases Nat.lt_trichotomy e e' with hless | rfl | hmore
  · -- the bits are equal at most where rounding has carried, and then so are the values
    by_contra hbits
    obtain ⟨rfl, rfl, rfl⟩ : e' = e + 1 ∧ m = 2 ^ 53 ∧ m' = 2 ^ 52 := by omega
    rw [hcarry] at h
    exact Nat.lt_irrefl _ h
  · have hmantissa : m < m' := Nat.lt_of_mul_lt_mul_right h
    omega
  · refine absurd h (Nat.not_lt.2 ?_)
    calc m' * 2 ^ e' ≤ 2 ^ 53 * 2 ^ e' := Nat.mul_le_mul_right _ hn'
      _ = 2 ^ 52 * 2 ^ (e' + 1) := hcarry e'
      _ ≤ m * 2 ^ e := Nat.mul_le_mul hm (Nat.pow_le_pow_right (by decide) hmore)

/-- Values that are off by at most one part in `2^53` are ordered as the quotients are that they
stand for, if these are of small numbers. -/
theorem lt_of_near {a b c d scale x y : Nat} (hscale : 0 < scale)
    (h : a * d < c * b) (hc : c * b < 2 ^ 52)
    (hx : 2 ^ 53 * (x * b) ≤ (2 ^ 53 + 1) * (a * scale))
    (hy : (2 ^ 53 - 1) * (c * scale) ≤ 2 ^ 53 * (y * d)) : x < y := by
  by_contra hle
  have hle : y ≤ x := Nat.not_lt.1 hle
  have hmeet : (2 ^ 53 - 1) * (c * b) * scale ≤ (2 ^ 53 + 1) * (a * d) * scale := by
    calc (2 ^ 53 - 1) * (c * b) * scale = (2 ^ 53 - 1) * (c * scale) * b := by ring
      _ ≤ 2 ^ 53 * (y * d) * b := Nat.mul_le_mul_right _ hy
      _ ≤ 2 ^ 53 * (x * d) * b := by gcongr
      _ = 2 ^ 53 * (x * b) * d := by ring
      _ ≤ (2 ^ 53 + 1) * (a * scale) * d := Nat.mul_le_mul_right _ hx
      _ = (2 ^ 53 + 1) * (a * d) * scale := by ring
  have hmeet := Nat.le_of_mul_le_mul_right hmeet hscale
  omega

/-- Quotients of small numbers are ordered as their nearest doubles are. -/
theorem nearestBits_lt {a b c d : Nat} (hb : b ≠ 0) (hd : d ≠ 0) (h : a * d < c * b)
    (hc : c * b < 2 ^ 52) (hsmall : d < 2 ^ 52) : nearestBits a b < nearestBits c d := by
  have hpos : c ≠ 0 := by
    rintro rfl
    omega
  have hfactor : c ≤ c * b ∧ b ≤ c * b :=
    ⟨Nat.le_mul_of_pos_right c (Nat.pos_of_ne_zero hb),
      Nat.le_mul_of_pos_left b (Nat.pos_of_ne_zero hpos)⟩
  have hle : ∀ {n k : Nat}, n < 2 ^ 52 → k ≠ 0 → n ≤ k * 2 ^ 52 := fun hn hk =>
    hn.le.trans (Nat.le_mul_of_pos_left _ (Nat.pos_of_ne_zero hk))
  obtain ⟨e', m', hbits', hlow', hhigh', -, hnear'⟩ :=
    exists_mantissa hd (hle hsmall hpos) (hle (by omega) hd)
  by_cases ha : a = 0
  · rw [ha, nearestBits_zero, hbits']
    omega
  have hfactor' : a ≤ a * d := Nat.le_mul_of_pos_right a (Nat.pos_of_ne_zero hd)
  obtain ⟨e, m, hbits, hlow, hhigh, hnear, -⟩ :=
    exists_mantissa hb (hle (by omega) ha) (hle (by omega) hb)
  rw [hbits, hbits']
  refine bits_lt_of_lt hlow hhigh hlow' hhigh' ?_
  revert hnear hnear'
  generalize (1074 : Nat) = k
  intro hnear' hnear
  exact lt_of_near (Nat.two_pow_pos k) h hc hnear hnear'

end SystemMap.Decimal
