import Invalidation.Proofs.Rounding
import Invalidation.Json.Read

namespace Invalidation.Decimal

open Float.Model Float.Model.UnpackedFloat

variable {m : Nat} {q : Int} {v : ℚ}

theorem log2_shiftLeft {n : Nat} (hn : n ≠ 0) (s : Nat) : (n <<< s).log2 = n.log2 + s := by
  have h₁ := Nat.log2_self_le hn
  have h₂ := Nat.lt_log2_self (n := n)
  rw [Nat.log2_eq_iff (by simp [Nat.shiftLeft_eq]; omega), Nat.shiftLeft_eq]
  constructor
  · calc 2 ^ (n.log2 + s) = 2 ^ n.log2 * 2 ^ s := pow_add 2 _ _
      _ ≤ n * 2 ^ s := Nat.mul_le_mul_right _ h₁
  · calc n * 2 ^ s < 2 ^ (n.log2 + 1) * 2 ^ s := Nat.mul_lt_mul_of_pos_right h₂ (Nat.two_pow_pos s)
      _ = 2 ^ (n.log2 + s + 1) := by ring

theorem places_fraction (n d : Nat) (hd : 0 < d) :
    Places ((n : ℚ) / d) (n / d) (accuracyOfFraction (n % d) d) := by
  have hdq : (0 : ℚ) < d := by exact_mod_cast hd
  have hsplit : (n : ℚ) / d = (n / d : Nat) + ((n % d : Nat) : ℚ) / d := by
    have hc : ((n / d * d + n % d : Nat) : ℚ) = n := by rw [Nat.div_add_mod']
    push_cast at hc
    rw [← hc, add_div, mul_div_assoc, div_self hdq.ne', mul_one]
  have hlt : ((n % d : Nat) : ℚ) < d := by exact_mod_cast Nat.mod_lt n hd
  rw [hsplit]
  unfold accuracyOfFraction
  split_ifs with hr
  · simp [Places, hr]
  · have hpos : (0 : ℚ) < (n % d : Nat) := by exact_mod_cast Nat.pos_of_ne_zero hr
    rcases hc : compare (2 * (n % d)) d
    · have h := Nat.compare_eq_lt.1 hc
      have h' : (2 * (n % d : Nat) : ℚ) < d := by exact_mod_cast h
      simp only [Places]
      constructor
      · have := div_pos hpos hdq
        linarith
      · have : 2 * (((n % d : Nat) : ℚ) / d) < 1 := by
          rw [mul_div_assoc', div_lt_one hdq]
          exact h'
        linarith
    · have h := Nat.compare_eq_eq.1 hc
      have h' : (2 * (n % d : Nat) : ℚ) = d := by exact_mod_cast h
      simp only [Places]
      have : 2 * (((n % d : Nat) : ℚ) / d) = 1 := by
        rw [mul_div_assoc', div_eq_one_iff_eq hdq.ne']
        exact h'
      linarith
    · have h := Nat.compare_eq_gt.1 hc
      have h' : (d : ℚ) < 2 * (n % d : Nat) := by exact_mod_cast h
      simp only [Places]
      constructor
      · have : 1 < 2 * (((n % d : Nat) : ℚ) / d) := by
          rw [mul_div_assoc', one_lt_div hdq]
          exact h'
        linarith
      · have : ((n % d : Nat) : ℚ) / d < 1 := (div_lt_one hdq).2 hlt
        linarith

theorem log2_div_ge {a b : Nat} (ha : 0 < a) (hb : 0 < b) (k : Nat) (hk : b.log2 + 1 + k ≤ a.log2) :
    k ≤ (a / b).log2 := by
  have hb' := Nat.lt_log2_self (n := b)
  have ha' := Nat.log2_self_le ha.ne'
  have hkb : 2 ^ k * b ≤ a :=
    calc 2 ^ k * b ≤ 2 ^ k * 2 ^ (b.log2 + 1) := Nat.mul_le_mul_left _ hb'.le
      _ = 2 ^ (b.log2 + 1 + k) := by rw [← pow_add, add_comm]
      _ ≤ 2 ^ a.log2 := Nat.pow_le_pow_right two_pos hk
      _ ≤ a := ha'
  have hq : 2 ^ k ≤ a / b := (Nat.le_div_iff_mul_le hb).2 hkb
  exact (Nat.le_log2 (by have := Nat.two_pow_pos k; omega)).2 hq

theorem places_divCore (m₁ m₂ : Nat) (e₁ e₂ : Int) (h₂ : 0 < m₂) :
    Places ((m₁ * 2 ^ e₁) / (m₂ * 2 ^ e₂) / 2 ^ (divCore Format.binary64 m₁ e₁ m₂ e₂).2.1)
      (divCore Format.binary64 m₁ e₁ m₂ e₂).1 (divCore Format.binary64 m₁ e₁ m₂ e₂).2.2 := by
  simp only [divCore]
  set T := min (e₁ - e₂) (Format.binary64.targetExponent
    (totalExponent m₁ e₁ - totalExponent m₂ e₂)) with hT
  have hs : (((e₁ - e₂ - T).toNat : Nat) : Int) = e₁ - e₂ - T := by omega
  have hval : (m₁ * 2 ^ e₁ : ℚ) / (m₂ * 2 ^ e₂) / 2 ^ T =
      ((m₁ <<< (e₁ - e₂ - T).toNat : Nat) : ℚ) / m₂ := by
    rw [Nat.shiftLeft_eq]
    push_cast
    rw [← zpow_natCast, hs, zpow_sub₀ two_ne_zero, zpow_sub₀ two_ne_zero]
    field_simp
  rw [hval]
  exact places_fraction _ _ h₂

theorem divCore_bits {m₁ m₂ : Nat} (e₁ e₂ : Int) (h₁ : 0 < m₁) (h₂ : 0 < m₂) :
    (divCore Format.binary64 m₁ e₁ m₂ e₂).2.1 ≤ Format.binary64.targetExponent
      (totalExponent (divCore Format.binary64 m₁ e₁ m₂ e₂).1 (divCore Format.binary64 m₁ e₁ m₂ e₂).2.1) := by
  simp only [divCore]
  rw [target_binary64, targetExponent_binary64]
  simp only [totalExponent]
  set T := min (e₁ - e₂) (max ((m₁.log2 : Int) + 1 + e₁ - (m₂.log2 + 1 + e₂) - 53) (-1074))
    with hT
  -- a quotient shifted far enough has at least 53 bits
  by_cases hfar : m₂.log2 + 1 + 52 ≤ (m₁ <<< (e₁ - e₂ - T).toNat).log2
  · have := log2_div_ge (by rw [Nat.shiftLeft_eq]; positivity) h₂ 52 hfar
    omega
  · rw [log2_shiftLeft h₁.ne'] at hfar
    omega

theorem reads_self (m : Nat) (q : Int) : Reads m q (m * 2 ^ q) := by
  have hu : (0 : ℚ) < 2 ^ (q - 2) := zpow_pos two_pos _
  have hq : (m : ℚ) * 2 ^ q = 4 * m * 2 ^ (q - 2) := by
    rw [show q = q - 2 + 2 by ring, zpow_add₀ two_ne_zero]
    norm_num
    ring
  have hlow : lowQuarters m q ≤ 4 * m - 1 := by
    unfold lowQuarters
    split <;> linarith
  rw [hq]
  constructor
  · exact .inl (mul_lt_mul_of_pos_right (by linarith) hu)
  · exact .inl (mul_lt_mul_of_pos_right (by linarith) hu)

theorem mul_of_reads (s₁ s₂ : Sign) (hc : Canonical m q) {m₁ m₂ : Nat} {e₁ e₂ : Int}
    (h₁ : 0 < m₁) (h₂ : 0 < m₂) (hbits : 2 ^ 52 ≤ m₁ * m₂)
    (hr : Reads m q (m₁ * 2 ^ e₁ * (m₂ * 2 ^ e₂))) :
    UnpackedFloat.mul Format.binary64 (.finite s₁ m₁ e₁ h₁) (.finite s₂ m₂ e₂ h₂) =
      .finite (s₁ * s₂) m q hc.pos := by
  rw [UnpackedFloat.mul]
  apply roundWithAccuracy_of_reads _ hc hr
  · simp only [Places]
    push_cast
    rw [zpow_add₀ two_ne_zero]
    field_simp
  · rw [target_binary64]
    have := (Nat.le_log2 (Nat.mul_pos h₁ h₂).ne').2 hbits
    omega

theorem div_of_reads (s₁ s₂ : Sign) (hc : Canonical m q) {m₁ m₂ : Nat} {e₁ e₂ : Int}
    (h₁ : 0 < m₁) (h₂ : 0 < m₂) (hr : Reads m q (m₁ * 2 ^ e₁ / (m₂ * 2 ^ e₂))) :
    UnpackedFloat.div Format.binary64 (.finite s₁ m₁ e₁ h₁) (.finite s₂ m₂ e₂ h₂) =
      .finite (s₁ / s₂) m q hc.pos := by
  have hp := places_divCore m₁ m₂ e₁ e₂ h₂
  have hb := divCore_bits e₁ e₂ h₁ h₂
  rw [UnpackedFloat.div]
  generalize divCore Format.binary64 m₁ e₁ m₂ e₂ = r at hp hb
  obtain ⟨Q, T, acc⟩ := r
  exact roundWithAccuracy_of_reads _ hc hr hp hb

theorem ofNat_of_canonical (hc : Canonical m q) {n : Nat} (hn : (n : ℚ) = m * 2 ^ q) :
    UnpackedFloat.ofNat Format.binary64 n = .finite .positive m q hc.pos := by
  have hpos : 0 < n := by
    have : (0 : ℚ) < n := by
      rw [hn]
      exact mul_pos (by exact_mod_cast hc.pos) (zpow_pos two_pos q)
    exact_mod_cast this
  have hr : Reads m q n := by
    rw [hn]
    exact reads_self m q
  simp only [UnpackedFloat.ofNat, UnpackedFloat.ofInt, UnpackedFloat.normalize]
  rw [Int.compare_eq_gt.2 (by omega)]
  simp only [UnpackedFloat.round, decreaseExponent, Int.toNat_natCast]
  apply roundWithAccuracy_of_reads _ hc hr
  · simp only [Places]
    rw [Nat.shiftLeft_eq]
    push_cast
    rw [zpow_sub₀ two_ne_zero, zpow_natCast]
    field_simp
  · rw [target_binary64, target_binary64, log2_shiftLeft hpos.ne']
    omega

theorem exists_canonical {a : Nat} (b : Int) (ha : 0 < a) (hlt : a < 2 ^ 53) (hb₀ : -1022 ≤ b)
    (hb : b ≤ 919) : ∃ m q, ∃ _ : Canonical m q, 2 ^ 52 ≤ m ∧ (m : ℚ) * 2 ^ q = a * 2 ^ b := by
  have hL : a.log2 < 53 := (Nat.log2_lt ha.ne').2 hlt
  have hlog : (a <<< (52 - a.log2)).log2 = 52 := by rw [log2_shiftLeft ha.ne']; omega
  have hm : 0 < a <<< (52 - a.log2) := by rw [Nat.shiftLeft_eq]; positivity
  have hlo := Nat.log2_self_le hm.ne'
  have hhi := Nat.lt_log2_self (n := a <<< (52 - a.log2))
  rw [hlog] at hlo hhi
  refine ⟨a <<< (52 - a.log2), b - (52 - a.log2 : Nat), ⟨hm, hhi, by omega, by omega, .inl hlo⟩,
    hlo, ?_⟩
  rw [Nat.shiftLeft_eq, zpow_sub₀ two_ne_zero, zpow_natCast]
  push_cast
  field_simp

theorem powersOfTen_exact : ∀ (k : Fin 23) (h : k.val < Float.exactlyRepresentablePowersOfTen.size),
    Float.exactlyRepresentablePowersOfTen[k.val] = Float.ofModel (Float.Model.ofNat (10 ^ k.val)) := by
  decide +kernel

theorem unpack_powerOfTen {k : Nat} (hk : k ≤ 22) (h : k < Float.exactlyRepresentablePowersOfTen.size) :
    ∃ m q, ∃ hc : Canonical m q, 2 ^ 52 ≤ m ∧ (m : ℚ) * 2 ^ q = 10 ^ k ∧
      (Float.exactlyRepresentablePowersOfTen[k]).toModel.unpack = .finite .positive m q hc.pos := by
  have h5 : 5 ^ k < 2 ^ 53 :=
    calc 5 ^ k ≤ 5 ^ 22 := Nat.pow_le_pow_right (by norm_num) hk
      _ < 2 ^ 53 := by norm_num
  obtain ⟨m, q, hc, hn, hv⟩ := exists_canonical (a := 5 ^ k) k (by positivity) h5 (by omega) (by omega)
  have hten : (m : ℚ) * 2 ^ q = 10 ^ k := by
    rw [hv, zpow_natCast]
    push_cast
    rw [← mul_pow]
    norm_num
  refine ⟨m, q, hc, hn, hten, ?_⟩
  rw [powersOfTen_exact ⟨k, by omega⟩ h]
  change (Float.Model.pack (UnpackedFloat.ofNat Format.binary64 (10 ^ k))).unpack = _
  rw [ofNat_of_canonical hc (by push_cast; exact hten.symm), unpack_pack _ hc]

theorem unpack_toFloat {d : Nat} (hd : 0 < d) (hlt : d < 2 ^ 53) :
    ∃ m q, ∃ hc : Canonical m q, 2 ^ 52 ≤ m ∧ (m : ℚ) * 2 ^ q = d ∧
      (d.toUInt64.toFloat).toModel.unpack = .finite .positive m q hc.pos := by
  obtain ⟨m, q, hc, hn, hv⟩ := exists_canonical (a := d) 0 hd hlt (by omega) (by omega)
  rw [zpow_zero, mul_one] at hv
  refine ⟨m, q, hc, hn, hv, ?_⟩
  have hd64 : d.toUInt64.toNat = d := by
    rw [Nat.toUInt64_eq, UInt64.toNat_ofNat_of_lt' (by simp only [UInt64.size]; omega)]
  change (Float.Model.pack (UnpackedFloat.ofNat Format.binary64 d.toUInt64.toNat)).unpack = _
  rw [hd64, ofNat_of_canonical hc hv.symm, unpack_pack _ hc]

-- The two ends a value that reads as a double keeps to: above `2^-1076` and below `2^1024`.
theorem reads_range (hc : Canonical m q) (hr : Reads m q v) :
    (2 : ℚ) ^ (-1076 : Int) < v ∧ v < 2 ^ (1024 : Int) := by
  have hq := hc.least
  have hq' := hc.most
  have hlo := reads_gt_of 0 (by have := hc.pos; norm_num; omega) hr
  have hhi := reads_lt_of 55 (by have := hc.lt; norm_num at this ⊢; omega) hr
  constructor
  · exact lt_of_le_of_lt (zpow_le_zpow_right₀ one_le_two (by push_cast; omega)) hlo
  · exact hhi.trans_le (zpow_le_zpow_right₀ one_le_two (by push_cast; omega))

theorem ofScientific_unpacked_of_reads {d : Nat} {e : Int} (hc : Canonical m q) (hd : 0 < d)
    (hr : Reads m q (d * 10 ^ e)) :
    UnpackedFloat.ofScientific Format.binary64 d e = .finite .positive m q hc.pos := by
  obtain ⟨hlo, hhi⟩ := reads_range hc hr
  have hd1 : (1 : ℚ) ≤ d := by exact_mod_cast hd
  unfold UnpackedFloat.ofScientific
  rw [dif_neg hd.ne']
  -- a power of ten above `10^2048` is beyond every double
  have hbig : ¬e > 2 ^ Format.binary64.exponentBits := by
    intro he
    obtain ⟨n, rfl⟩ := Int.eq_ofNat_of_zero_le (show 0 ≤ e by simp at he; omega)
    have hn : 2048 < n := by simp at he; omega
    have : (2 : ℚ) ^ (1024 : Int) ≤ d * 10 ^ (n : Int) :=
      calc (2 : ℚ) ^ (1024 : Int) ≤ 2 ^ (n : Int) := zpow_le_zpow_right₀ one_le_two (by omega)
        _ ≤ 10 ^ (n : Int) := zpow_le_zpow_left₀ (by omega) (by norm_num) (by norm_num)
        _ ≤ d * 10 ^ (n : Int) := le_mul_of_one_le_left (by positivity) hd1
    linarith
  -- and one below `10^-(2048 + log2 d)` is below every double
  have hsmall : ¬e < -((2 ^ Format.binary64.exponentBits : Int) + d.log2) := by
    intro he
    obtain ⟨n, rfl⟩ := Int.exists_eq_neg_ofNat (show e ≤ 0 by omega)
    have hn : 2048 + d.log2 < n := by simp at he; omega
    have hdl : (d : ℚ) < 2 ^ (d.log2 + 1) := by exact_mod_cast Nat.lt_log2_self
    have h10 : (10 : ℚ) ^ (-(n : Int)) ≤ 2 ^ (-(n : Int)) := by
      rw [zpow_neg, zpow_neg, zpow_natCast, zpow_natCast]
      exact inv_anti₀ (by positivity) (pow_le_pow_left₀ (by norm_num) (by norm_num) n)
    have : (d : ℚ) * 10 ^ (-(n : Int)) < 2 ^ (-1076 : Int) :=
      calc (d : ℚ) * 10 ^ (-(n : Int)) ≤ d * 2 ^ (-(n : Int)) :=
            mul_le_mul_of_nonneg_left h10 (by positivity)
        _ < 2 ^ (d.log2 + 1) * 2 ^ (-(n : Int)) := mul_lt_mul_of_pos_right hdl (by positivity)
        _ = 2 ^ ((d.log2 + 1 : Nat) - (n : Int)) := by
            rw [← zpow_natCast, ← zpow_add₀ two_ne_zero, sub_eq_add_neg]
        _ ≤ 2 ^ (-1076 : Int) := zpow_le_zpow_right₀ one_le_two (by push_cast; omega)
    linarith
  rw [if_neg hbig, if_neg hsmall]
  split_ifs with he
  · -- a product with the digits shifted up by 53 bits
    obtain ⟨n, rfl⟩ := Int.eq_ofNat_of_zero_le he
    apply mul_of_reads _ _ hc
    · rw [Nat.shiftLeft_eq]
      calc 2 ^ 52 ≤ d * 2 ^ 53 := by have := Nat.two_pow_pos 52; rw [pow_succ]; nlinarith
        _ ≤ d * 2 ^ Format.binary64.mantissaBits * 10 ^ (n : Int).toNat :=
          Nat.le_mul_of_pos_right _ (by positivity)
    · convert hr using 1
      rw [Nat.shiftLeft_eq]
      simp only [Format.mantissaBits, Int.toNat_natCast, zpow_natCast, zpow_neg, zpow_zero]
      push_cast
      field_simp
      norm_num
  · -- a quotient by a power of ten
    obtain ⟨n, rfl⟩ := Int.exists_eq_neg_ofNat (show e ≤ 0 by omega)
    apply div_of_reads _ _ hc hd (by positivity)
    convert hr using 1
    simp only [neg_neg, Int.toNat_natCast, zpow_zero, mul_one, zpow_neg, zpow_natCast]
    push_cast
    field_simp

theorem ofScientific_of_reads {d k : Nat} {s : Bool} (hc : Canonical m q) (hd : 0 < d)
    (hr : Reads m q (d * 10 ^ (if s then -(k : Int) else k))) :
    Float.ofScientific d s k = Float.ofModel (Float.Model.pack (.finite .positive m q hc.pos)) := by
  unfold Float.ofScientific
  split
  · -- both `d` and `10^k` are doubles: one product or quotient, rounded once
    rename_i hfast
    obtain ⟨m₁, e₁, hc₁, hn₁, hv₁, hx⟩ := unpack_toFloat hd hfast.1
    obtain ⟨m₂, e₂, hc₂, -, hv₂, hp⟩ := unpack_powerOfTen hfast.2
      (by simp [Float.exactlyRepresentablePowersOfTen]; omega)
    have hm₂ := hc₂.pos
    cases s
    · change Float.ofModel (Float.Model.pack (UnpackedFloat.mul Format.binary64
        (d.toUInt64.toFloat).toModel.unpack _)) = _
      rw [hx, hp, mul_of_reads _ _ hc hc₁.pos hc₂.pos (le_mul_of_le_of_one_le hn₁ hm₂)]
      · rfl
      · rw [hv₁, hv₂]
        simpa using hr
    · change Float.ofModel (Float.Model.pack (UnpackedFloat.div Format.binary64
        (d.toUInt64.toFloat).toModel.unpack _)) = _
      rw [hx, hp, div_of_reads _ _ hc hc₁.pos hc₂.pos]
      · rfl
      · rw [hv₁, hv₂]
        simpa [div_eq_mul_inv] using hr
  · -- otherwise the exact conversion
    change Float.ofModel (Float.Model.pack (UnpackedFloat.ofScientific Format.binary64 d _)) = _
    rw [ofScientific_unpacked_of_reads hc hd]
    cases s
    · simpa using hr
    · simpa [Int.negOfNat_eq] using hr

theorem toDigits_bounds {D : Nat} (hD : 0 < D) :
    10 ^ ((Nat.toDigits 10 D).length - 1) ≤ D ∧ D < 10 ^ (Nat.toDigits 10 D).length := by
  have hpos := Nat.length_toDigits_pos (b := 10) (n := D)
  refine ⟨?_, (Nat.length_toDigits_le_iff (by norm_num) hpos).1 le_rfl⟩
  by_cases h1 : (Nat.toDigits 10 D).length = 1
  · rw [h1]
    simpa using Nat.one_le_iff_ne_zero.2 hD.ne'
  · have := (Nat.length_toDigits_le_iff (b := 10) (n := D) (by norm_num) (by omega :
      0 < (Nat.toDigits 10 D).length - 1)).not.1 (by omega)
    omega

-- The sign a reading gives a double.
def signOf (neg : Bool) : Sign := if neg then .negative else .positive

theorem neg_pack (hc : Canonical m q) (neg : Bool) :
    (if neg then -Float.ofModel (Float.Model.pack (.finite .positive m q hc.pos))
      else Float.ofModel (Float.Model.pack (.finite .positive m q hc.pos))) =
      Float.ofModel (Float.Model.pack (.finite (signOf neg) m q hc.pos)) := by
  cases neg
  · rfl
  · change Float.ofModel (Float.Model.pack (Float.Model.pack _).unpack.neg) = _
    rw [unpack_pack _ hc]
    rfl

theorem nearestDouble_of_reads {D : Nat} {E : Int} (hc : Canonical m q) (hD : 0 < D)
    (hr : Reads m q (D * 10 ^ E)) (neg : Bool) :
    Json.nearestDouble neg D E = Float.ofModel (Float.Model.pack (.finite (signOf neg) m q hc.pos)) := by
  obtain ⟨hlo, hhi⟩ := reads_range hc hr
  obtain ⟨hD₁, hD₂⟩ := toDigits_bounds hD
  unfold Json.nearestDouble
  set L := (Nat.toDigits 10 D).length
  have hL : 0 < L := Nat.length_toDigits_pos
  have hten : ∀ n : Int, (0 : ℚ) < 10 ^ n := fun n => zpow_pos (by norm_num) n
  -- the value lies between `10^(L + E - 1)` and `10^(L + E)`
  have hV₁ : (10 : ℚ) ^ ((L : Int) - 1 + E) ≤ D * 10 ^ E := by
    rw [zpow_add₀ (by norm_num)]
    apply mul_le_mul_of_nonneg_right _ (hten E).le
    have : ((10 ^ (L - 1) : Nat) : ℚ) ≤ D := by exact_mod_cast hD₁
    rw [show (L : Int) - 1 = ((L - 1 : Nat) : Int) by omega, zpow_natCast]
    exact_mod_cast this
  have hV₂ : (D : ℚ) * 10 ^ E < 10 ^ ((L : Int) + E) := by
    rw [zpow_add₀ (by norm_num)]
    apply mul_lt_mul_of_pos_right _ (hten E)
    rw [zpow_natCast]
    exact_mod_cast hD₂
  have hlow : ¬((L : Int) + E < -324) := by
    intro h
    have : (10 : ℚ) ^ ((L : Int) + E) ≤ 2 ^ (-1076 : Int) :=
      calc (10 : ℚ) ^ ((L : Int) + E) ≤ 10 ^ (-325 : Int) := zpow_le_zpow_right₀ (by norm_num) (by omega)
        _ ≤ 2 ^ (-1076 : Int) := by
          rw [zpow_neg, zpow_neg, inv_le_inv₀ (by positivity) (by positivity), zpow_ofNat,
            zpow_ofNat]
          exact_mod_cast (by decide +kernel : (2 : ℕ) ^ 1076 ≤ 10 ^ 325)
    linarith
  have hhigh : ¬(309 < (L : Int) + E) := by
    intro h
    have : (2 : ℚ) ^ (1024 : Int) ≤ 10 ^ ((L : Int) - 1 + E) :=
      calc (2 : ℚ) ^ (1024 : Int) ≤ 10 ^ (309 : Int) := by
            rw [zpow_ofNat, zpow_ofNat]
            exact_mod_cast (by decide +kernel : (2 : ℕ) ^ 1024 ≤ 10 ^ 309)
        _ ≤ 10 ^ ((L : Int) - 1 + E) := zpow_le_zpow_right₀ (by norm_num) (by omega)
    linarith
  have hread : (if E < 0 then Float.ofScientific D true (-E).toNat
      else Float.ofScientific D false E.toNat) =
      Float.ofModel (Float.Model.pack (.finite .positive m q hc.pos)) := by
    split_ifs with hE
    · apply ofScientific_of_reads hc hD
      rw [if_pos rfl, show -(((-E).toNat : Nat) : Int) = E by omega]
      exact hr
    · apply ofScientific_of_reads hc hD
      rw [if_neg Bool.false_ne_true, show ((E.toNat : Nat) : Int) = E by omega]
      exact hr
  simp only [hlow, hhigh, hD.ne', decide_false, Bool.or_false, if_false]
  rw [hread]
  exact neg_pack hc neg

end Invalidation.Decimal
