import Mathlib
import Invalidation.Decimal.Binary

namespace Invalidation.Decimal

open Float.Model Float.Model.UnpackedFloat

-- Where a value `x`, measured in units of the last place, lies from the mantissa `m`, as a rounding
-- accuracy says it: at `m`, or strictly between `m` and `m + 1`, below, at or past the middle.
def Places (x : ℚ) (m : Nat) : Accuracy → Prop
  | .exact => x = m
  | .inexact .lt => m < x ∧ 2 * x < 2 * m + 1
  | .inexact .eq => 2 * x = 2 * m + 1
  | .inexact .gt => 2 * m + 1 < 2 * x ∧ x < m + 1

-- A value, in units of the last place, that rounds to the nearest mantissa `m`: within half a unit
-- of it, and at half a unit only when `m` is even.
def Near (m : Nat) (x : ℚ) : Prop :=
  (2 * m - 1 < 2 * x ∨ m % 2 = 0 ∧ 2 * m - 1 = 2 * x) ∧
    (2 * x < 2 * m + 1 ∨ m % 2 = 0 ∧ 2 * x = 2 * m + 1)

variable {x : ℚ} {M m : Nat} {acc : Accuracy}

theorem places_bounds (h : Places x M acc) : (M : ℚ) ≤ x ∧ x < M + 1 := by
  match acc, h with
  | .exact, h => simp only [Places] at h; constructor <;> linarith
  | .inexact .lt, h => exact ⟨h.1.le, by linarith [h.2]⟩
  | .inexact .eq, h => simp only [Places] at h; constructor <;> linarith
  | .inexact .gt, h => exact ⟨by linarith [h.1], h.2⟩

theorem places_shiftRightOne {em : ExtendedMantissa} (h : Places x em.mantissa em.accuracy) :
    Places (x / 2) em.shiftRightOne.mantissa em.shiftRightOne.accuracy := by
  obtain ⟨M, r, s⟩ := em
  -- the bit shifted out puts the value in the lower or the upper half of the wider unit
  obtain ⟨k, rfl | rfl⟩ : ∃ k, M = 2 * k ∨ M = 2 * k + 1 := ⟨M / 2, by omega⟩
  · have hk : 2 * k / 2 = k := by omega
    cases r <;> cases s <;>
      simp [ExtendedMantissa.shiftRightOne, ExtendedMantissa.accuracy, Places, hk] at h ⊢ <;>
      grind
  · have hk : (2 * k + 1) / 2 = k := by omega
    cases r <;> cases s <;>
      simp [ExtendedMantissa.shiftRightOne, ExtendedMantissa.accuracy, Places, hk] at h ⊢ <;>
      grind

theorem places_shiftRight {em : ExtendedMantissa} (h : Places x em.mantissa em.accuracy) (k : Nat) :
    Places (x / 2 ^ k) (em >>> k).mantissa (em >>> k).accuracy := by
  induction k with
  | zero => rw [pow_zero, div_one]; exact h
  | succ k ih =>
    have step := places_shiftRightOne ih
    rwa [div_div, ← pow_succ] at step

theorem places_ofMantissaAndAccuracy (h : Places x M acc) :
    Places x (ExtendedMantissa.ofMantissaAndAccuracy M acc).mantissa
      (ExtendedMantissa.ofMantissaAndAccuracy M acc).accuracy := by
  match acc with
  | .exact | .inexact .lt | .inexact .eq | .inexact .gt => exact h

theorem roundToNearestEven_of_near (h : Places x M acc) (hn : Near m x) :
    acc.roundToNearestEven M = m := by
  obtain ⟨hlo, hhi⟩ := hn
  have lo : 2 * (m : ℚ) - 1 ≤ 2 * x := by rcases hlo with h | h; exacts [h.le, h.2.le]
  have hi : 2 * x ≤ 2 * m + 1 := by rcases hhi with h | h; exacts [h.le, h.2.le]
  match acc, h with
  | .exact, h =>
    simp only [Places] at h
    have h₁ : 2 * (m : ℤ) - 1 ≤ 2 * M := (Int.cast_le (R := ℚ)).mp (by push_cast; linarith)
    have h₂ : 2 * (M : ℤ) ≤ 2 * m + 1 := (Int.cast_le (R := ℚ)).mp (by push_cast; linarith)
    simp only [Accuracy.roundToNearestEven]
    omega
  | .inexact .lt, h =>
    obtain ⟨h₁, h₂⟩ := h
    have h₃ : 2 * (m : ℤ) - 1 < 2 * M + 1 := (Int.cast_lt (R := ℚ)).mp (by push_cast; linarith)
    have h₄ : 2 * (M : ℤ) < 2 * m + 1 := (Int.cast_lt (R := ℚ)).mp (by push_cast; linarith)
    simp only [Accuracy.roundToNearestEven]
    omega
  | .inexact .eq, h =>
    simp only [Places] at h
    have h₁ : 2 * (m : ℤ) - 1 ≤ 2 * M + 1 := (Int.cast_le (R := ℚ)).mp (by push_cast; linarith)
    have h₂ : 2 * (M : ℤ) + 1 ≤ 2 * m + 1 := (Int.cast_le (R := ℚ)).mp (by push_cast; linarith)
    -- a value half way between two mantissas is an end of the window, so `m` is even
    have heven : m % 2 = 0 := by
      rcases Int.lt_or_lt_of_ne (show 2 * (M : ℤ) + 1 ≠ 2 * m by omega) with hlt | hgt
      · rcases hlo with hlo | hlo
        · have : 2 * (m : ℤ) - 1 < 2 * M + 1 := (Int.cast_lt (R := ℚ)).mp (by push_cast; linarith)
          omega
        · exact hlo.1
      · rcases hhi with hhi | hhi
        · have : 2 * (M : ℤ) + 1 < 2 * m + 1 := (Int.cast_lt (R := ℚ)).mp (by push_cast; linarith)
          omega
        · exact hhi.1
    simp only [Accuracy.roundToNearestEven]
    omega
  | .inexact .gt, h =>
    obtain ⟨h₁, h₂⟩ := h
    have h₃ : 2 * (m : ℤ) - 1 < 2 * M + 2 := (Int.cast_lt (R := ℚ)).mp (by push_cast; linarith)
    have h₄ : 2 * (M : ℤ) + 1 < 2 * m + 1 := (Int.cast_lt (R := ℚ)).mp (by push_cast; linarith)
    simp only [Accuracy.roundToNearestEven]
    omega

-- The significand and exponent of a finite positive double in canonical form: a normal double has
-- 53 significant bits, a subnormal one the least exponent.
structure Canonical (m : Nat) (q : Int) : Prop where
  pos : 0 < m
  lt : m < 2 ^ 53
  least : -1074 ≤ q
  most : q ≤ 971
  normal : 2 ^ 52 ≤ m ∨ q = -1074

-- Where the reals that read back as `m · 2^q` start, in quarters of its last place: half a place
-- below, or a quarter where the double below is nearer.
def lowQuarters (m : Nat) (q : Int) : ℚ := if narrowBelow m q then 4 * m - 1 else 4 * m - 2

-- The rationals that read back as the finite positive double `m · 2^q`: those between its two
-- half-way points, each end only when `m` is even.
def Reads (m : Nat) (q : Int) (v : ℚ) : Prop :=
  (lowQuarters m q * 2 ^ (q - 2) < v ∨ m % 2 = 0 ∧ lowQuarters m q * 2 ^ (q - 2) = v) ∧
    (v < (4 * m + 2) * 2 ^ (q - 2) ∨ m % 2 = 0 ∧ v = (4 * m + 2) * 2 ^ (q - 2))

variable {q E : Int} {v : ℚ}

theorem targetExponent_binary64 (t : Int) :
    Format.binary64.targetExponent t = max (t - 53) (-1074) := by
  simp only [Format.targetExponent, Format.mantissaBits, Format.minExponent]
  norm_num

theorem target_binary64 (M : Nat) (E : Int) :
    Format.binary64.targetExponent (totalExponent M E) = max ((M.log2 : Int) + E - 52) (-1074) := by
  rw [targetExponent_binary64, totalExponent]
  omega

theorem two_zpow_lt_two_zpow {a b : Int} : (2 : ℚ) ^ a < 2 ^ b ↔ a < b :=
  zpow_lt_zpow_iff_right₀ one_lt_two

theorem lowQuarters_ge (m : Nat) (q : Int) : 4 * (m : ℚ) - 2 ≤ lowQuarters m q := by
  unfold lowQuarters
  split <;> linarith

theorem reads_bounds (hr : Reads m q v) :
    (4 * m - 2) * 2 ^ (q - 2) ≤ v ∧ v ≤ (4 * m + 2) * 2 ^ (q - 2) := by
  have hu : (0 : ℚ) < 2 ^ (q - 2) := zpow_pos two_pos _
  have hlow := mul_le_mul_of_nonneg_right (lowQuarters_ge m q) hu.le
  obtain ⟨hlo, hhi⟩ := hr
  constructor
  · rcases hlo with h | h
    · linarith
    · linarith [h.2]
  · rcases hhi with h | h
    · exact h.le
    · exact h.2.le

-- The binade of a value that a mantissa places: `2^(log2 M + E) ≤ v < 2^(log2 M + 1 + E)`.
theorem binade_of_places (hv : Places (v / 2 ^ E) M acc) :
    (M ≠ 0 → (2 : ℚ) ^ ((M.log2 : Int) + E) ≤ v) ∧ v < 2 ^ ((M.log2 : Int) + 1 + E) := by
  have hp : (0 : ℚ) < 2 ^ E := zpow_pos two_pos E
  obtain ⟨hlo, hhi⟩ := places_bounds hv
  rw [le_div_iff₀ hp] at hlo
  rw [div_lt_iff₀ hp] at hhi
  have hsplit : ∀ n : Nat, (2 : ℚ) ^ ((n : Int) + E) = 2 ^ n * 2 ^ E := fun n => by
    rw [zpow_add₀ two_ne_zero, zpow_natCast]
  constructor
  · intro hM
    have hl : ((2 ^ M.log2 : Nat) : ℚ) ≤ M := by exact_mod_cast Nat.log2_self_le hM
    rw [hsplit]
    push_cast at hl
    exact (mul_le_mul_of_nonneg_right hl hp.le).trans hlo
  · have hl : ((M + 1 : Nat) : ℚ) ≤ ((2 ^ (M.log2 + 1) : Nat) : ℚ) := by
      exact_mod_cast Nat.lt_log2_self
    have := hsplit (M.log2 + 1)
    push_cast at hl this ⊢
    rw [this]
    exact hhi.trans_le (mul_le_mul_of_nonneg_right hl hp.le)

theorem quarter_zpow (q : Int) (n : Nat) : (2 : ℚ) ^ n * 2 ^ (q - 2) = 2 ^ (q - 2 + n) := by
  rw [zpow_add₀ two_ne_zero, zpow_natCast, mul_comm]

-- The reading window of `m · 2^q` against powers of two, in quarters of the last place.
theorem reads_lt_of (k : Nat) (hk : 4 * m + 2 < 2 ^ k) (hr : Reads m q v) : v < 2 ^ (q - 2 + k) := by
  have hk' : (4 * m + 2 : ℚ) < 2 ^ k := by exact_mod_cast hk
  calc v ≤ (4 * m + 2) * 2 ^ (q - 2) := (reads_bounds hr).2
    _ < 2 ^ k * 2 ^ (q - 2) := mul_lt_mul_of_pos_right hk' (zpow_pos two_pos _)
    _ = 2 ^ (q - 2 + k) := quarter_zpow q k

theorem reads_gt_of (k : Nat) (hk : 2 ^ k + 2 < 4 * m) (hr : Reads m q v) : 2 ^ (q - 2 + k) < v := by
  have hk' : (2 ^ k : ℚ) < 4 * m - 2 := by
    have : ((2 ^ k + 2 : Nat) : ℚ) < ((4 * m : Nat) : ℚ) := by exact_mod_cast hk
    push_cast at this
    linarith
  calc (2 : ℚ) ^ (q - 2 + k) = 2 ^ k * 2 ^ (q - 2) := (quarter_zpow q k).symm
    _ < (4 * m - 2) * 2 ^ (q - 2) := mul_lt_mul_of_pos_right hk' (zpow_pos two_pos _)
    _ ≤ v := (reads_bounds hr).1

theorem target_of_reads (hc : Canonical m q) (hr : Reads m q v) (hv : Places (v / 2 ^ E) M acc)
    (hbits : E ≤ Format.binary64.targetExponent (totalExponent M E)) :
    Format.binary64.targetExponent (totalExponent M E) = q ∨
      narrowBelow m q = true ∧ v < 2 ^ (q + 52) ∧
        Format.binary64.targetExponent (totalExponent M E) = q - 1 := by
  rw [target_binary64] at hbits ⊢
  obtain ⟨hbin, hbin'⟩ := binade_of_places hv
  have hq := hc.least
  -- the binade of the value is at most that of the double
  have hup : (M.log2 : Int) + E ≤ q + 52 := by
    by_cases hM : M = 0
    · simp only [hM, Nat.log2_zero, Nat.cast_zero, zero_add] at hbits ⊢
      omega
    · have hk : 4 * m + 2 < 2 ^ 55 := by have := hc.lt; norm_num at this ⊢; omega
      have h := two_zpow_lt_two_zpow.1 ((hbin hM).trans_lt (reads_lt_of 55 hk hr))
      omega
  by_cases hn : 2 ^ 52 ≤ m
  · -- a normal double: the value is above `2^(q+51)`
    have h51 := two_zpow_lt_two_zpow.1
      ((reads_gt_of 53 (by norm_num at hn ⊢; omega) hr).trans hbin')
    by_cases hv52 : (2 : ℚ) ^ (q + 52) ≤ v
    · left
      have := two_zpow_lt_two_zpow.1 (hv52.trans_lt hbin')
      omega
    · rw [not_le] at hv52
      -- below `2^(q+52)` only at a power of two: its binade is the one below
      have hm : m = 2 ^ 52 := by
        by_contra hm
        have := (reads_gt_of 54 (by norm_num at hn hm ⊢; omega) hr).trans hv52
        rw [two_zpow_lt_two_zpow] at this
        omega
      have hM : M ≠ 0 := by
        rintro rfl
        simp only [Nat.log2_zero, Nat.cast_zero, zero_add] at h51 hbits
        omega
      have := two_zpow_lt_two_zpow.1 ((hbin hM).trans_lt hv52)
      by_cases hleast : q = -1074
      · left
        omega
      · right
        refine ⟨?_, hv52, by omega⟩
        simp only [narrowBelow, hm, Bool.and_eq_true, decide_eq_true_eq]
        exact ⟨rfl, by omega⟩
  · -- a subnormal double: the value is below `2^(q+52)`, at the least exponent
    have hleast : q = -1074 := hc.normal.resolve_left hn
    left
    by_cases hM : M = 0
    · simp only [hM, Nat.log2_zero, Nat.cast_zero, zero_add] at hbits ⊢
      omega
    · have h := two_zpow_lt_two_zpow.1
        ((hbin hM).trans_lt (reads_lt_of 54 (by norm_num at hn ⊢; omega) hr))
      omega

-- The reading window measured in quarters of the last place.
theorem reads_quarters (hr : Reads m q v) :
    (lowQuarters m q < 4 * (v / 2 ^ q) ∨ m % 2 = 0 ∧ lowQuarters m q = 4 * (v / 2 ^ q)) ∧
      (4 * (v / 2 ^ q) < 4 * m + 2 ∨ m % 2 = 0 ∧ 4 * (v / 2 ^ q) = 4 * m + 2) := by
  have hu : (0 : ℚ) < 2 ^ (q - 2) := zpow_pos two_pos _
  have hq : (2 : ℚ) ^ q = 2 ^ (q - 2) * 4 := by
    rw [show q = q - 2 + 2 by ring, zpow_add₀ two_ne_zero]
    norm_num
  -- `v` is `4 (v / 2^q)` quarters of `2^(q-2)`
  have hv : v = 4 * (v / 2 ^ q) * 2 ^ (q - 2) := by
    rw [hq]
    field_simp
  obtain ⟨hlo, hhi⟩ := hr
  rw [hv] at hlo hhi
  refine ⟨?_, ?_⟩
  · rcases hlo with h | ⟨he, h⟩
    · exact .inl (lt_of_mul_lt_mul_right h hu.le)
    · exact .inr ⟨he, mul_right_cancel₀ hu.ne' h⟩
  · rcases hhi with h | ⟨he, h⟩
    · exact .inl (lt_of_mul_lt_mul_right h hu.le)
    · exact .inr ⟨he, mul_right_cancel₀ hu.ne' h⟩

theorem near_of_reads (hr : Reads m q v) : Near m (v / 2 ^ q) := by
  obtain ⟨hlo, hhi⟩ := reads_quarters hr
  have hlow := lowQuarters_ge m q
  constructor
  · rcases hlo with h | ⟨he, h⟩
    · exact .inl (by linarith)
    · -- an end at a quarter lies inside; at half a place it is the end of `Near`
      by_cases hnarrow : narrowBelow m q
      · simp only [lowQuarters, hnarrow, if_true] at h
        exact .inl (by linarith)
      · simp only [lowQuarters, hnarrow, Bool.false_eq_true, if_false] at h
        exact .inr ⟨he, by linarith⟩
  · rcases hhi with h | ⟨he, h⟩
    · exact .inl (by linarith)
    · exact .inr ⟨he, by linarith⟩

-- Below a power of two where the double below is nearer, the value is near `2^53` units of the
-- exponent below.
theorem near_of_reads_narrow (hr : Reads m q v) (hnarrow : narrowBelow m q = true)
    (hv : v < 2 ^ (q + 52)) : Near (2 ^ 53) (v / 2 ^ (q - 1)) := by
  have hm : m = 2 ^ 52 := by
    simp only [narrowBelow, Bool.and_eq_true, decide_eq_true_eq] at hnarrow
    exact hnarrow.1
  obtain ⟨hlo, -⟩ := reads_quarters hr
  have hlow : lowQuarters m q = 4 * m - 1 := by simp [lowQuarters, hnarrow]
  rw [hlow, hm] at hlo
  have hp : (0 : ℚ) < 2 ^ q := zpow_pos two_pos q
  have hhalf : v / 2 ^ (q - 1) = 2 * (v / 2 ^ q) := by
    rw [zpow_sub₀ two_ne_zero, zpow_one]
    field_simp
  have hbelow : v / 2 ^ q < 2 ^ 52 := by
    rw [div_lt_iff₀ hp, ← zpow_natCast, ← zpow_add₀ two_ne_zero, add_comm]
    exact_mod_cast hv
  rw [hhalf]
  push_cast at hlo ⊢
  constructor
  · rcases hlo with h | ⟨-, h⟩
    · exact .inl (by linarith)
    · exact .inr ⟨by norm_num, by linarith⟩
  · exact .inl (by linarith)

-- The first shift brings the mantissa to the target exponent, when it starts at or below it.
theorem places_shiftToTarget (hv : Places (v / 2 ^ E) M acc)
    (hbits : E ≤ Format.binary64.targetExponent (totalExponent M E)) :
    (shiftToTargetExponent Format.binary64 M E acc).2 =
        Format.binary64.targetExponent (totalExponent M E) ∧
      Places (v / 2 ^ (shiftToTargetExponent Format.binary64 M E acc).2)
        (shiftToTargetExponent Format.binary64 M E acc).1.mantissa
        (shiftToTargetExponent Format.binary64 M E acc).1.accuracy := by
  set T := Format.binary64.targetExponent (totalExponent M E)
  have hT : E + ((T - E).toNat : Int) = T := by omega
  have h2 : (shiftToTargetExponent Format.binary64 M E acc).2 = T := hT
  refine ⟨h2, ?_⟩
  have h := places_shiftRight (places_ofMantissaAndAccuracy hv) (T - E).toNat
  rw [div_div, ← zpow_natCast, ← zpow_add₀ two_ne_zero, hT] at h
  rw [h2]
  exact h

-- A canonical significand needs no shift, and neither does anything below `2^53` that the
-- shift would not move.
theorem shiftToTarget_canonical (hc : Canonical m q) :
    shiftToTargetExponent Format.binary64 m q .exact = (⟨m, false, false⟩, q) := by
  have ht : Format.binary64.targetExponent (totalExponent m q) = q := by
    rw [target_binary64]
    have := hc.least
    rcases hc.normal with hn | hq
    · have : m.log2 = 52 := (Nat.log2_eq_iff hc.pos.ne').2 ⟨hn, hc.lt⟩
      omega
    · have : m.log2 < 53 := (Nat.log2_lt hc.pos.ne').2 hc.lt
      omega
  simp only [shiftToTargetExponent, shiftToExponent, ht, sub_self, Int.toNat_zero,
    ExtendedMantissa.ofMantissaAndAccuracy, Nat.cast_zero, add_zero]
  rfl

-- A carry into `2^53` is shifted back to `2^52` one exponent up.
theorem shiftToTarget_carry (hq : -1074 < q) :
    shiftToTargetExponent Format.binary64 (2 ^ 53) (q - 1) .exact = (⟨2 ^ 52, false, false⟩, q) := by
  have ht : Format.binary64.targetExponent (totalExponent (2 ^ 53) (q - 1)) = q := by
    rw [target_binary64, Nat.log2_two_pow]
    omega
  have hk : (q - (q - 1)).toNat = 1 := by omega
  simp only [shiftToTargetExponent, shiftToExponent, ht, hk, ExtendedMantissa.ofMantissaAndAccuracy]
  refine Prod.ext ?_ (by push_cast; ring)
  rfl

theorem roundWithAccuracy_of_reads (s : Sign) (hc : Canonical m q) (hr : Reads m q v)
    (hv : Places (v / 2 ^ E) M acc)
    (hbits : E ≤ Format.binary64.targetExponent (totalExponent M E)) :
    roundWithAccuracy Format.binary64 s M E acc = .finite s m q hc.pos := by
  obtain ⟨hT, hplaces⟩ := places_shiftToTarget hv hbits
  have htarget := target_of_reads hc hr hv hbits
  generalize hfirst : shiftToTargetExponent Format.binary64 M E acc = first at hT hplaces
  obtain ⟨em, e₁⟩ := first
  dsimp only at hT hplaces
  rw [roundWithAccuracy, hfirst]
  dsimp only
  rcases htarget with ht | ⟨hnarrow, hbelow, ht⟩
  · -- rounding at the double's own exponent gives its significand
    rw [ht] at hT
    subst hT
    rw [ExtendedMantissa.roundedMantissa, roundToNearestEven_of_near hplaces (near_of_reads hr),
      shiftToTarget_canonical hc]
    simp [hc.pos.ne']
  · -- one exponent below, rounding carries into `2^53`, and the carry is shifted back
    rw [ht] at hT
    subst hT
    have hm : m = 2 ^ 52 := by
      simp only [narrowBelow, Bool.and_eq_true, decide_eq_true_eq] at hnarrow
      exact hnarrow.1
    have hq : -1074 < q := by
      simp only [narrowBelow, Bool.and_eq_true, decide_eq_true_eq] at hnarrow
      exact hnarrow.2
    rw [ExtendedMantissa.roundedMantissa,
      roundToNearestEven_of_near hplaces (near_of_reads_narrow hr hnarrow hbelow),
      shiftToTarget_carry hq]
    subst hm
    simp

theorem toNat_packComponents (s : Sign) (ex : BitVec 11) (mt : BitVec 52) :
    (packComponents Format.binary64 s ex mt).toNat =
      s.toBitVec.toNat * 2 ^ 63 + ex.toNat * 2 ^ 52 + mt.toNat := by
  simp only [packComponents, BitVec.toNat_append]
  rw [← Nat.shiftLeft_add_eq_or_of_lt ex.isLt, ← Nat.shiftLeft_add_eq_or_of_lt mt.isLt]
  simp only [Nat.shiftLeft_eq]
  ring

theorem toBits_pack (s : Sign) (hc : Canonical m q) :
    (Float.ofModel (Float.Model.pack (.finite s m q hc.pos))).toBits.toNat =
      s.toBitVec.toNat * Nat.pow 2 63 + if Nat.pow 2 52 ≤ m then
        (q + 1075).toNat * Nat.pow 2 52 + (m - Nat.pow 2 52) else m := by
  have hlt := hc.lt
  have hq := hc.least
  have hq' := hc.most
  simp only [Float.toBits, Float.Model.pack, UInt64.toNat_ofBitVec, UnpackedFloat.pack,
    Format.exponentBias, Format.mantissaBits, Nat.pow_eq]
  norm_num
  rw [if_neg (by omega)]
  by_cases hn : 2 ^ 52 ≤ m
  · have hlog : m.log2 = 52 := (Nat.log2_eq_iff hc.pos.ne').2 ⟨hn, hlt⟩
    norm_num at hn hlt
    rw [if_pos (by omega), toNat_packComponents, if_pos hn]
    simp only [BitVec.toNat_ofNat]
    norm_num
    omega
  · have hlog : m.log2 < 52 := (Nat.log2_lt hc.pos.ne').2 (by omega)
    norm_num at hn
    rw [if_neg (by omega), toNat_packComponents, if_neg (by omega)]
    simp only [BitVec.toNat_ofNat]
    norm_num
    omega

theorem ofFloat_pack (s : Sign) (hc : Canonical m q) :
    Binary.ofFloat (Float.ofModel (Float.Model.pack (.finite s m q hc.pos))) =
      .finite (s == .negative) m q := by
  have hlt := hc.lt
  have hq := hc.least
  have hq' := hc.most
  rw [Binary.ofFloat, toBits_pack s hc]
  obtain ⟨b, hb, hb1, hbeq⟩ : ∃ b, s.toBitVec.toNat = b ∧ b ≤ 1 ∧
      (s == .negative) = decide (b = 1) := by
    cases s <;> exact ⟨_, rfl, by decide, rfl⟩
  rw [hb, hbeq]
  -- the fields of the bits: sign on top, then the exponent field, then the fraction
  by_cases hn : 2 ^ 52 ≤ m
  · have hn' : Nat.pow 2 52 ≤ m := hn
    rw [if_pos hn']
    obtain ⟨F, hF, hF1, hF2⟩ : ∃ F, (q + 1075).toNat = F ∧ 1 ≤ F ∧ F ≤ 2046 :=
      ⟨_, rfl, by omega, by omega⟩
    rw [hF]
    generalize hbits : b * Nat.pow 2 63 + (F * Nat.pow 2 52 + (m - Nat.pow 2 52)) = bits
    simp only [Nat.pow_eq, Nat.reducePow] at hn hlt hbits ⊢
    have hfield : bits >>> 52 % 2048 = F := by rw [Nat.shiftRight_eq_div_pow]; norm_num; omega
    have hfrac : bits % 4503599627370496 + 4503599627370496 = m := by omega
    have hsign : bits >>> 63 = b := by rw [Nat.shiftRight_eq_div_pow]; norm_num; omega
    have hexp : (F : Int) - 1075 = q := by omega
    simp only [hfield, hfrac, hsign, hexp]
    rw [if_neg (by omega), if_neg (by omega)]
  · have hn' : ¬Nat.pow 2 52 ≤ m := hn
    rw [if_neg hn']
    have hleast := hc.normal.resolve_left hn
    generalize hbits : b * Nat.pow 2 63 + m = bits
    simp only [Nat.pow_eq, Nat.reducePow] at hn hlt hbits ⊢
    have hfield : bits >>> 52 % 2048 = 0 := by rw [Nat.shiftRight_eq_div_pow]; norm_num; omega
    have hfrac : bits % 4503599627370496 = m := by omega
    have hsign : bits >>> 63 = b := by rw [Nat.shiftRight_eq_div_pow]; norm_num; omega
    simp only [hfield, hfrac, hsign]
    simp [hleast]

theorem unpackSign_packComponents (s : Sign) (ex : BitVec 11) (mt : BitVec 52) :
    Sign.ofBitVec (unpackSign (packComponents Format.binary64 s ex mt)) = s := by
  simp only [unpackSign, packComponents, BitVec.extractLsb]
  rw [BitVec.extractLsb'_append_eq_of_le (by omega), BitVec.extractLsb'_append_eq_of_le (by omega)]
  cases s <;> rfl

theorem finite_congr {s : Sign} {m₁ m₂ : Nat} {e₁ e₂ : Int} {h₁ : 0 < m₁} {h₂ : 0 < m₂}
    (hm : m₁ = m₂) (he : e₁ = e₂) : UnpackedFloat.finite s m₁ e₁ h₁ = .finite s m₂ e₂ h₂ := by
  subst hm he
  rfl

theorem unpack_pack (s : Sign) (hc : Canonical m q) :
    (Float.Model.pack (.finite s m q hc.pos)).unpack = .finite s m q hc.pos := by
  have hlt := hc.lt
  have hq := hc.least
  have hq' := hc.most
  have hpos := hc.pos
  have hbias : ((Format.binary64.exponentBias : Nat) : Int) = 1023 := rfl
  simp only [Float.Model.unpack, Float.Model.pack, UInt64.toBitVec_ofBitVec, UnpackedFloat.pack,
    Format.exponentBias, Format.mantissaBits]
  norm_num
  rw [if_neg (by omega)]
  by_cases hn : 2 ^ 52 ≤ m
  · -- normal: the exponent field is `q + 1075`, strictly between its two special values
    have hlog : m.log2 = 52 := (Nat.log2_eq_iff hc.pos.ne').2 ⟨hn, hlt⟩
    rw [if_pos (by omega), UnpackedFloat.unpack]
    simp only [unpackMantissa_packComponents, unpackExponent_packComponents,
      unpackSign_packComponents]
    have hfield : (BitVec.ofNat 11 (q + 1023 + 52).toNat).toNat = (q + 1075).toNat := by
      rw [BitVec.toNat_ofNat]
      omega
    have hne1 : BitVec.ofNat 11 (q + 1023 + 52).toNat ≠ -1#11 := by
      rw [BitVec.toNat_ne, hfield]
      simp
      omega
    have hne0 : BitVec.ofNat 11 (q + 1023 + 52).toNat ≠ 0#11 := by
      rw [BitVec.toNat_ne, hfield]
      simp
      omega
    rw [if_neg hne1, if_neg hne0]
    apply finite_congr
    · rw [BitVec.toNat_append, ← Nat.shiftLeft_add_eq_or_of_lt (BitVec.ofNat 52 m).isLt,
        BitVec.toNat_ofNat, Nat.shiftLeft_eq]
      norm_num at hn hlt ⊢
      omega
    · rw [hfield, hbias]
      omega
  · -- subnormal: the exponent field is zero and the fraction is the significand
    have hlog : m.log2 < 52 := (Nat.log2_lt hc.pos.ne').2 (by omega)
    have hleast := hc.normal.resolve_left hn
    rw [if_neg (by omega), UnpackedFloat.unpack]
    simp only [unpackMantissa_packComponents, unpackExponent_packComponents,
      unpackSign_packComponents]
    have hfrac : (BitVec.ofNat 52 m).toNat = m := by
      rw [BitVec.toNat_ofNat]
      norm_num at hn ⊢
      omega
    have hne : BitVec.ofNat 52 m ≠ 0#52 := by
      rw [BitVec.toNat_ne, hfrac]
      simp
      omega
    rw [if_pos trivial, dif_neg hne]
    apply finite_congr hfrac
    rw [hbias, hleast]
    rfl

-- A double that is a number is fixed by its parts: the sign bit, the exponent field and the
-- fraction give every bit.
theorem toBits_eq_of_ofFloat_eq {x y : Float} (h : Binary.ofFloat x = Binary.ofFloat y)
    (hx : Binary.ofFloat x ≠ .nan) : x.toBits = y.toBits := by
  have hxl := x.toBits.toNat_lt
  have hyl := y.toBits.toNat_lt
  apply UInt64.toNat_inj.1
  unfold Binary.ofFloat at h hx
  generalize x.toBits.toNat = a at *
  generalize y.toBits.toNat = b at *
  simp only [Nat.shiftRight_eq_div_pow, Nat.pow_eq, Nat.reducePow] at *
  split_ifs at h hx <;> simp only [Binary.infinite.injEq, Binary.finite.injEq, ne_eq,
    not_true_eq_false, decide_eq_decide] at h hx <;> omega

theorem eq_of_ofFloat_eq {x y : Float} (h : Binary.ofFloat x = Binary.ofFloat y)
    (hx : Binary.ofFloat x ≠ .nan) : x = y := by
  have hb := toBits_eq_of_ofFloat_eq h hx
  obtain ⟨⟨bx, vx⟩⟩ := x
  obtain ⟨⟨byy, vy⟩⟩ := y
  simp only [Float.toBits] at hb
  subst hb
  rfl

end Invalidation.Decimal
