import Invalidation.Proofs.NearestDouble
import Invalidation.Decimal.Shortest

namespace Invalidation.Decimal

variable {m : Nat} {q : Int}

theorem Scale.den_pos (s : Scale) : 0 < s.den := by
  unfold Scale.den
  simp only [Nat.pow_eq]
  positivity

-- Both sides of a comparison on a scale are `d · 10^e` and `x · 2^a`, times one positive factor.
theorem Scale.key (s : Scale) : ∃ K : ℚ, 0 < K ∧ ∀ d x : Nat,
    ((d * s.den : Nat) : ℚ) = d * 10 ^ s.e * K ∧ ((s.num x : Nat) : ℚ) = x * 2 ^ s.a * K := by
  have hden : (0 : ℚ) < s.den := by exact_mod_cast s.den_pos
  refine ⟨10 ^ (-s.e) * s.den, by positivity, fun d x => ⟨?_, ?_⟩⟩
  · push_cast
    rw [zpow_neg]
    field_simp
  · have h2 : (2 : ℚ) ^ s.a * 2 ^ (-s.a).toNat = 2 ^ s.a.toNat := by
      rw [← zpow_natCast, ← zpow_natCast, ← zpow_add₀ two_ne_zero]
      congr 1
      omega
    have h10 : (10 : ℚ) ^ (-s.e) * 10 ^ s.e.toNat = 10 ^ (-s.e).toNat := by
      rw [← zpow_natCast, ← zpow_natCast, ← zpow_add₀ (by norm_num)]
      congr 1
      omega
    unfold Scale.num Scale.den
    simp only [Nat.pow_eq]
    push_cast
    rw [← h2, ← h10]
    ring

theorem Scale.lt_num_iff (s : Scale) (d x : Nat) :
    d * s.den < s.num x ↔ (d : ℚ) * 10 ^ s.e < x * 2 ^ s.a := by
  obtain ⟨K, hK, hk⟩ := s.key
  rw [← Nat.cast_lt (α := ℚ), (hk d x).1, (hk d x).2]
  exact mul_lt_mul_iff_of_pos_right hK

theorem Scale.num_lt_iff (s : Scale) (d x : Nat) :
    s.num x < d * s.den ↔ (x : ℚ) * 2 ^ s.a < d * 10 ^ s.e := by
  obtain ⟨K, hK, hk⟩ := s.key
  rw [← Nat.cast_lt (α := ℚ), (hk d x).1, (hk d x).2]
  exact mul_lt_mul_iff_of_pos_right hK

theorem Scale.num_eq_iff (s : Scale) (d x : Nat) :
    s.num x = d * s.den ↔ (x : ℚ) * 2 ^ s.a = d * 10 ^ s.e := by
  obtain ⟨K, hK, hk⟩ := s.key
  rw [← Nat.cast_inj (R := ℚ), (hk d x).1, (hk d x).2]
  exact mul_left_inj' hK.ne'

theorem Scale.le_num_iff (s : Scale) (d x : Nat) :
    d * s.den ≤ s.num x ↔ (d : ℚ) * 10 ^ s.e ≤ x * 2 ^ s.a := by
  rw [← not_lt, s.num_lt_iff, not_lt]

theorem holds_iff (hm : 0 < m) (e : Int) (d : Nat) :
    (Window.ofBinary m q).holds ⟨q - 2, e⟩ d = true ↔ Reads m q (d * 10 ^ e) := by
  have hlow : (((Window.ofBinary m q).low : Nat) : ℚ) = lowQuarters m q := by
    simp only [Window.ofBinary, lowQuarters]
    split <;> push_cast [Nat.cast_sub (show 2 ≤ 4 * m by omega),
      Nat.cast_sub (show 1 ≤ 4 * m by omega)] <;> ring
  have hhigh : (((Window.ofBinary m q).high : Nat) : ℚ) = 4 * m + 2 := by
    simp [Window.ofBinary]
  simp only [Window.holds, Bool.and_eq_true, Bool.or_eq_true, beq_iff_eq, decide_eq_true_eq]
  rw [Scale.num_lt_iff, Scale.num_eq_iff, Scale.lt_num_iff, eq_comm (a := d * _),
    Scale.num_eq_iff, hlow, hhigh]
  simp only [Window.ofBinary, decide_eq_true_eq, Reads]
  constructor <;> rintro ⟨h₁, h₂⟩ <;> refine ⟨?_, ?_⟩ <;> grind

theorem Reads.between {a b c : ℚ} (ha : Reads m q a) (hb : Reads m q b) (h₁ : a ≤ c) (h₂ : c ≤ b) :
    Reads m q c := by
  obtain ⟨ha, -⟩ := ha
  obtain ⟨-, hb⟩ := hb
  constructor
  · rcases ha with h | ⟨he, h⟩
    · exact .inl (h.trans_le h₁)
    · rcases h₁.lt_or_eq with h₁ | h₁
      · exact .inl (h ▸ h₁)
      · exact .inr ⟨he, h.trans h₁⟩
  · rcases hb with h | ⟨he, h⟩
    · exact .inl (h₂.trans_lt h)
    · rcases h₂.lt_or_eq with h₂ | h₂
      · exact .inl (h ▸ h₂)
      · exact .inr ⟨he, h₂.trans h⟩

theorem pick_holds {w : Window} {a e : Int} {d : Nat} (h : w.pick a e = some d) :
    w.holds ⟨a, e⟩ d = true := by
  unfold Window.pick at h
  dsimp only at h
  split at h <;> rename_i hb ha
  · split_ifs at h <;> cases h <;> assumption
  · cases h
    exact hb
  · cases h
    exact ha
  · cases h

theorem pick_isSome {w : Window} {a e : Int}
    (h : w.holds ⟨a, e⟩ ((⟨a, e⟩ : Scale).num w.value / (⟨a, e⟩ : Scale).den) = true ∨
      w.holds ⟨a, e⟩ ((⟨a, e⟩ : Scale).num w.value / (⟨a, e⟩ : Scale).den + 1) = true) :
    (w.pick a e).isSome := by
  unfold Window.pick
  dsimp only
  split <;> rename_i hb ha
  · split_ifs <;> rfl
  · rfl
  · rfl
  · simp_all

theorem pick_isSome_of_reads (hm : 0 < m) {e : Int} {j : Nat} (hj : Reads m q (j * 10 ^ e)) :
    ((Window.ofBinary m q).pick (q - 2) e).isSome := by
  set s : Scale := ⟨q - 2, e⟩
  have hv : (((Window.ofBinary m q).value : Nat) : ℚ) * 2 ^ (q - 2) = m * 2 ^ q := by
    simp only [Window.ofBinary]
    rw [show q = q - 2 + 2 by ring, zpow_add₀ two_ne_zero]
    push_cast
    ring_nf
  have hself : Reads m q (m * 2 ^ q) := reads_self m q
  set B := s.num (Window.ofBinary m q).value / s.den
  -- the grid point below the double and the one above it
  have hB : (B : ℚ) * 10 ^ e ≤ m * 2 ^ q := by
    rw [← hv]
    exact (s.le_num_iff B _).1 (Nat.div_mul_le_self _ _)
  have hB₁ : (m : ℚ) * 2 ^ q < ((B + 1 : Nat) : ℚ) * 10 ^ e := by
    rw [← hv]
    exact (s.num_lt_iff (B + 1) _).1 (by rw [Nat.mul_comm]; exact Nat.lt_mul_div_succ _ s.den_pos)
  apply pick_isSome
  rw [holds_iff hm, holds_iff hm]
  by_cases hjB : j ≤ B
  · left
    have : (j : ℚ) * 10 ^ e ≤ B * 10 ^ e :=
      mul_le_mul_of_nonneg_right (by exact_mod_cast hjB) (zpow_pos (by norm_num) e).le
    exact hj.between hself this hB
  · right
    have : ((B + 1 : Nat) : ℚ) * 10 ^ e ≤ j * 10 ^ e :=
      mul_le_mul_of_nonneg_right (by exact_mod_cast (show B + 1 ≤ j by omega))
        (zpow_pos (by norm_num) e).le
    exact hself.between hj hB₁.le this

theorem leadingExponent_bounds (hc : Canonical m q) :
    (10 : ℚ) ^ leadingExponent m q ≤ m * 2 ^ q ∧ (m : ℚ) * 2 ^ q < 10 ^ (leadingExponent m q + 1) := by
  set s : Scale := ⟨q, -400⟩
  set N := s.num m / s.den with hNdef
  have hN₁ : (N : ℚ) * 10 ^ (-400 : Int) ≤ m * 2 ^ q :=
    (s.le_num_iff N m).1 (Nat.div_mul_le_self _ _)
  have hN₂ : (m : ℚ) * 2 ^ q < ((N + 1 : Nat) : ℚ) * 10 ^ (-400 : Int) :=
    (s.num_lt_iff (N + 1) m).1 (by rw [Nat.mul_comm]; exact Nat.lt_mul_div_succ _ s.den_pos)
  -- the least double is above `10^-400`, so the scaled value has a leading digit
  have hNpos : 0 < N := by
    by_contra h0
    rw [Nat.eq_zero_of_not_pos h0] at hN₂
    simp only [Nat.zero_add, Nat.cast_one, one_mul] at hN₂
    have hm : (1 : ℚ) ≤ m := by exact_mod_cast hc.pos
    have hleast : (10 : ℚ) ^ (-400 : Int) ≤ 2 ^ (-1074 : Int) := by
      rw [zpow_neg, zpow_neg, inv_le_inv₀ (by positivity) (by positivity), zpow_ofNat, zpow_ofNat]
      exact_mod_cast (by decide +kernel : (2 : ℕ) ^ 1074 ≤ 10 ^ 400)
    have : (2 : ℚ) ^ (-1074 : Int) ≤ m * 2 ^ q :=
      calc (2 : ℚ) ^ (-1074 : Int) ≤ 2 ^ q := zpow_le_zpow_right₀ one_le_two hc.least
        _ ≤ m * 2 ^ q := le_mul_of_one_le_left (by positivity) hm
    linarith
  obtain ⟨hL₁, hL₂⟩ := toDigits_bounds hNpos
  have hL : 0 < (Nat.toDigits 10 N).length := Nat.length_toDigits_pos
  have hsplit : ∀ k : Nat, (10 : ℚ) ^ ((k : Int) - 400) = 10 ^ k * 10 ^ (-400 : Int) := fun k => by
    rw [sub_eq_add_neg, zpow_add₀ (by norm_num), zpow_natCast]
  unfold leadingExponent decimalLength
  dsimp only
  rw [← hNdef]
  constructor
  · rw [show ((Nat.toDigits 10 N).length : Int) - 1 - 400 =
      (((Nat.toDigits 10 N).length - 1 : Nat) : Int) - 400 by omega, hsplit]
    refine le_trans (mul_le_mul_of_nonneg_right ?_ (by positivity)) hN₁
    exact_mod_cast hL₁
  · rw [show ((Nat.toDigits 10 N).length : Int) - 1 - 400 + 1 =
      ((Nat.toDigits 10 N).length : Int) - 400 by omega, hsplit]
    refine hN₂.trans_le (mul_le_mul_of_nonneg_right ?_ (by positivity))
    exact_mod_cast hL₂

theorem exists_reads_seventeen (hc : Canonical m q) :
    ∃ j : Nat, Reads m q (j * 10 ^ (leadingExponent m q + 1 - 17)) := by
  set e := leadingExponent m q + 1 - 17
  set S : ℚ := 10 ^ e
  set u : ℚ := 2 ^ (q - 2)
  have hS : 0 < S := zpow_pos (by norm_num) e
  have hu : 0 < u := zpow_pos two_pos _
  have hv : (m : ℚ) * 2 ^ q = 4 * m * u := by
    rw [show q = q - 2 + 2 by ring, zpow_add₀ two_ne_zero]
    norm_num
    ring
  -- the spacing is at most the value over `10^16`
  have hS16 : S * 10 ^ 16 ≤ 4 * m * u := by
    rw [← hv]
    calc S * 10 ^ 16 = 10 ^ leadingExponent m q := by
          rw [show leadingExponent m q = e + 16 by omega, zpow_add₀ (by norm_num)]
          norm_num
          rfl
      _ ≤ m * 2 ^ q := (leadingExponent_bounds hc).1
  have hm : (m : ℚ) < 2 ^ 53 := by exact_mod_cast hc.lt
  -- and below the width of the window
  have hwidth : S < (4 * m + 2) * u - lowQuarters m q * u := by
    by_cases hn : narrowBelow m q = true
    · have hm52 : m = 2 ^ 52 := by
        simp only [narrowBelow, Bool.and_eq_true, decide_eq_true_eq] at hn
        exact hn.1
      have hlow : lowQuarters m q = 4 * m - 1 := by simp [lowQuarters, hn]
      rw [hlow]
      rw [hm52] at hS16
      push_cast at hS16
      nlinarith
    · have hlow : lowQuarters m q = 4 * m - 2 := by simp [lowQuarters, hn]
      rw [hlow]
      have : (m : ℚ) * u < 2 ^ 53 * u := mul_lt_mul_of_pos_right hm hu
      nlinarith
  -- the grid point at or below the value, or the one above it
  set j := ⌊(m : ℚ) * 2 ^ q / S⌋₊
  have hj₁ : (j : ℚ) * S ≤ m * 2 ^ q := by
    have := Nat.floor_le (div_nonneg (by positivity) hS.le : (0 : ℚ) ≤ m * 2 ^ q / S)
    rwa [le_div_iff₀ hS] at this
  have hj₂ : (m : ℚ) * 2 ^ q < (j + 1) * S := by
    have := Nat.lt_floor_add_one ((m : ℚ) * 2 ^ q / S)
    rwa [div_lt_iff₀ hS] at this
  have hlowv : lowQuarters m q * u < 4 * m * u := by
    have : lowQuarters m q ≤ 4 * m - 1 := by unfold lowQuarters; split <;> linarith
    nlinarith
  by_cases hin : lowQuarters m q * u < j * S
  · refine ⟨j, .inl hin, .inl ?_⟩
    linarith
  · refine ⟨j + 1, .inl ?_, .inl ?_⟩ <;> push_cast <;> linarith

theorem normalize_go (d : Scientific) (k : Nat) : ∀ (digits : Nat) (exp : Int),
    (Scientific.normalize.go d digits exp k).neg = d.neg ∧
      ((Scientific.normalize.go d digits exp k).digits : ℚ) *
          10 ^ (Scientific.normalize.go d digits exp k).exp = digits * 10 ^ exp ∧
      (0 < digits → 0 < (Scientific.normalize.go d digits exp k).digits) := by
  induction k with
  | zero => intro digits exp; simp [Scientific.normalize.go]
  | succ k ih =>
    intro digits exp
    rw [Scientific.normalize.go]
    split_ifs with h
    · obtain ⟨h₁, h₂, h₃⟩ := ih (digits / 10) (exp + 1)
      refine ⟨h₁, ?_, fun _ => h₃ (by omega)⟩
      have hdigits : (digits : ℚ) = (digits / 10 : Nat) * 10 := by
        exact_mod_cast (Nat.div_mul_cancel (Nat.dvd_of_mod_eq_zero h.2)).symm
      rw [h₂, zpow_add₀ (by norm_num), zpow_one, hdigits]
      ring
    · exact ⟨rfl, rfl, id⟩

theorem normalize_spec (d : Scientific) :
    d.normalize.neg = d.neg ∧ (d.normalize.digits : ℚ) * 10 ^ d.normalize.exp = d.digits * 10 ^ d.exp ∧
      (0 < d.digits → 0 < d.normalize.digits) :=
  normalize_go d _ d.digits d.exp

theorem shortestOf_reads (hc : Canonical m q) (neg : Bool) :
    (shortestOf neg m q).neg = neg ∧ 0 < (shortestOf neg m q).digits ∧
      Reads m q ((shortestOf neg m q).digits * 10 ^ (shortestOf neg m q).exp) := by
  rw [shortestOf]
  set top := leadingExponent m q
  set f := fun n : Nat => ((Window.ofBinary m q).pick (q - 2) (top + 1 - n)).map
    fun d => (d, top + 1 - n)
  -- the search finds a grid point, at the seventeenth digit at the latest
  have hsome : ((List.range' 1 17).findSome? f).isSome := by
    rw [List.findSome?_isSome_iff]
    obtain ⟨j, hj⟩ := exists_reads_seventeen hc
    exact ⟨17, by simp, by simpa [f] using pick_isSome_of_reads hc.pos hj⟩
  obtain ⟨⟨d, e⟩, hfound⟩ := Option.isSome_iff_exists.1 hsome
  obtain ⟨n, -, hn⟩ := List.exists_of_findSome?_eq_some hfound
  obtain ⟨d', hpick, hde⟩ := Option.map_eq_some_iff.1 hn
  simp only [Prod.mk.injEq] at hde
  obtain ⟨rfl, rfl⟩ := hde
  have hr : Reads m q (d' * 10 ^ (top + 1 - n)) := (holds_iff hc.pos _ _).1 (pick_holds hpick)
  have hd : 0 < d' := by
    by_contra h0
    have := (reads_range hc hr).1
    rw [Nat.eq_zero_of_not_pos h0, Nat.cast_zero, zero_mul] at this
    exact absurd this (not_lt.2 (zpow_pos two_pos _).le)
  rw [hfound, Option.map_some, Option.getD_some]
  obtain ⟨h₁, h₂, h₃⟩ := normalize_spec ⟨neg, d', top + 1 - n⟩
  exact ⟨h₁, h₃ hd, h₂ ▸ hr⟩

end Invalidation.Decimal
