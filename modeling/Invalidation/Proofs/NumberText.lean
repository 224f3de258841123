import Invalidation.Proofs.Shortest
import Invalidation.Decimal.Notation

namespace Invalidation.Decimal

-- Whether a double is a finite number.
def Binary.isFinite : Binary → Bool
  | .finite _ _ _ => true
  | _ => false

theorem ofFloat_finite_parts {x : Float} {neg : Bool} {m : Nat} {q : Int}
    (h : Binary.ofFloat x = .finite neg m q) :
    (m < 2 ^ 52 ∧ q = -1074) ∨ (2 ^ 52 ≤ m ∧ m < 2 ^ 53 ∧ -1074 ≤ q ∧ q ≤ 971) := by
  have hlt := x.toBits.toNat_lt
  unfold Binary.ofFloat at h
  generalize x.toBits.toNat = b at *
  simp only [Nat.shiftRight_eq_div_pow, Nat.pow_eq, Nat.reducePow] at *
  split_ifs at h with h₁ h₂ h₃ <;> simp only [Binary.finite.injEq] at h
  · obtain ⟨-, rfl, rfl⟩ := h
    exact .inl ⟨by omega, rfl⟩
  · obtain ⟨-, rfl, rfl⟩ := h
    exact .inr ⟨by omega, by omega, by omega, by omega⟩

theorem canonical_of_ofFloat {x : Float} {neg : Bool} {m : Nat} {q : Int}
    (h : Binary.ofFloat x = .finite neg m q) (hm : 0 < m) : Canonical m q := by
  rcases ofFloat_finite_parts h with ⟨hlt, rfl⟩ | ⟨hle, hlt, hleast, hmost⟩
  · exact ⟨hm, by omega, le_refl _, by norm_num, .inr rfl⟩
  · exact ⟨hm, hlt, hleast, hmost, .inl hle⟩

theorem eq_zero_of_ofFloat {x : Float} {neg : Bool} {q : Int}
    (h : Binary.ofFloat x = .finite neg 0 q) : x = if neg then -0.0 else 0.0 := by
  -- a zero significand has no leading bit, so it is subnormal
  have hq : q = -1074 := by
    rcases ofFloat_finite_parts h with ⟨-, hq⟩ | ⟨hle, -⟩
    · exact hq
    · omega
  apply eq_of_ofFloat_eq _ (by simp [h])
  rw [h, hq]
  cases neg <;> decide

end Invalidation.Decimal

namespace Invalidation.Json

open Decimal

-- What may follow a number in a text: nothing that would read as part of it.
def EndsNumber (rest : List Char) : Prop :=
  ∀ c ∈ rest.head?, c.isDigit = false ∧ c ≠ '.' ∧ c ≠ 'e' ∧ c ≠ 'E'

-- All characters are ASCII digits.
def AllDigits (ds : List Char) : Prop := ∀ c ∈ ds, c.isDigit = true

theorem EndsNumber.not_digit {rest : List Char} (h : EndsNumber rest) :
    ∀ c ∈ rest.head?, c.isDigit = false := fun c hc => (h c hc).1

theorem EndsNumber.not_exp {rest : List Char} (h : EndsNumber rest) :
    ∀ c ∈ rest.head?, c ≠ 'e' ∧ c ≠ 'E' := fun c hc => (h c hc).2.2

theorem takeWhile_digits {ds rest : List Char} (hds : AllDigits ds)
    (hrest : ∀ c ∈ rest.head?, c.isDigit = false) :
    (ds ++ rest).takeWhile Char.isDigit = ds ∧ (ds ++ rest).dropWhile Char.isDigit = rest := by
  induction ds with
  | nil =>
    cases rest with
    | nil => simp
    | cons c rest => simp [hrest c rfl]
  | cons c ds ih =>
    have hc := hds c List.mem_cons_self
    obtain ⟨h₁, h₂⟩ := ih fun x hx => hds x (List.mem_cons_of_mem c hx)
    simp [hc, h₁, h₂]

theorem asciiDigits_append {ds rest : List Char} (hds : AllDigits ds)
    (hrest : ∀ c ∈ rest.head?, c.isDigit = false) : asciiDigits (ds ++ rest) = (ds, rest) := by
  obtain ⟨h₁, h₂⟩ := takeWhile_digits hds hrest
  simp [asciiDigits, h₁, h₂]

theorem digitsValue_eq (ds : List Char) : digitsValue ds = Nat.ofDigitChars 10 ds 0 := by
  unfold digitsValue Nat.ofDigitChars
  congr 1
  funext n c
  ring

theorem digitsValue_append (a b : List Char) :
    digitsValue (a ++ b) = 10 ^ b.length * digitsValue a + digitsValue b := by
  rw [digitsValue_eq, digitsValue_eq, digitsValue_eq, Nat.ofDigitChars_append,
    Nat.ofDigitChars_eq_ofDigitChars_zero]

@[simp]
theorem digitsValue_toDigits (n : Nat) : digitsValue (Nat.toDigits 10 n) = n := by
  rw [digitsValue_eq, Nat.ofDigitChars_ten_toDigits]

@[simp]
theorem digitsValue_zeros (k : Nat) : digitsValue (List.replicate k '0') = 0 := by
  rw [digitsValue_eq, Nat.ofDigitChars_replicate_zero, Nat.mul_zero]

theorem allDigits_toDigits (n : Nat) : AllDigits (Nat.toDigits 10 n) :=
  fun _ hc => Nat.isDigit_of_mem_toDigits (by decide) (by decide) hc

theorem allDigits_zeros (k : Nat) : AllDigits (List.replicate k '0') := by
  intro c hc
  rw [List.eq_of_mem_replicate hc]
  rfl

theorem AllDigits.append {a b : List Char} (ha : AllDigits a) (hb : AllDigits b) :
    AllDigits (a ++ b) := by
  intro c hc
  rcases List.mem_append.1 hc with h | h
  exacts [ha c h, hb c h]

theorem toDigits_head {n : Nat} (hn : 0 < n) :
    ∃ c l, Nat.toDigits 10 n = c :: l ∧ c ≠ '0' := by
  induction n using Nat.strong_induction_on with
  | _ n ih =>
    rw [Nat.toDigits_eq_if (by norm_num)]
    split_ifs with h
    · refine ⟨_, [], rfl, ?_⟩
      interval_cases n <;> decide
    · obtain ⟨c, l, hcl, hc⟩ := ih (n / 10) (by omega) (by omega)
      exact ⟨c, l ++ [Nat.digitChar (n % 10)], by rw [hcl]; rfl, hc⟩

theorem intPart_zero (rest : List Char) : intPart ('0' :: rest) = some (['0'], rest) := rfl

theorem intPart_digits {c : Char} {l rest : List Char} (hc : c.isDigit = true) (hc0 : c ≠ '0')
    (hl : AllDigits l) (hrest : ∀ x ∈ rest.head?, x.isDigit = false) :
    intPart (c :: (l ++ rest)) = some (c :: l, rest) := by
  rw [intPart.eq_2 _ _ hc0]
  simp [hc, asciiDigits_append hl hrest]

theorem fracPart_digits {c : Char} {l rest : List Char} (hc : c.isDigit = true) (hl : AllDigits l)
    (hrest : ∀ x ∈ rest.head?, x.isDigit = false) :
    fracPart ('.' :: c :: (l ++ rest)) = (c :: l, rest) := by
  simp [fracPart, hc, asciiDigits_append hl hrest]

theorem fracPart_of_head {rest : List Char} (h : ∀ x ∈ rest.head?, x ≠ '.') :
    fracPart rest = ([], rest) := by
  rw [fracPart.eq_2]
  rintro c rest' rfl
  exact h '.' rfl rfl

theorem expPart_of_head {rest : List Char} (h : ∀ x ∈ rest.head?, x ≠ 'e' ∧ x ≠ 'E') :
    expPart rest = (none, rest) := by
  match rest, h with
  | [], _ => rfl
  | c :: rest, h =>
    have hc := h c rfl
    simp [expPart, hc.1, hc.2]

theorem expPart_signed (neg : Bool) {ds rest : List Char} (hne : ds ≠ []) (hds : AllDigits ds)
    (hrest : ∀ x ∈ rest.head?, x.isDigit = false) :
    expPart ('e' :: (if neg then '-' else '+') :: (ds ++ rest)) =
      (some (if neg then -(digitsValue ds : Int) else digitsValue ds), rest) := by
  obtain ⟨c, l, rfl⟩ := List.exists_cons_of_ne_nil hne
  have h := asciiDigits_append hds hrest
  rw [List.cons_append] at h
  cases neg <;> simp [expPart, h]

theorem intPart_lead {ds rest : List Char} (hds : AllDigits ds) (hnil : ds ≠ [])
    (h0 : ∀ c ∈ ds.head?, c ≠ '0') (hrest : ∀ x ∈ rest.head?, x.isDigit = false) :
    intPart (ds ++ rest) = some (ds, rest) := by
  obtain ⟨c, l, rfl⟩ := List.exists_cons_of_ne_nil hnil
  exact intPart_digits (hds c List.mem_cons_self) (h0 c rfl)
    (fun x hx => hds x (List.mem_cons_of_mem c hx)) hrest

theorem fracPart_point {ds rest : List Char} (hds : AllDigits ds) (hnil : ds ≠ [])
    (hrest : ∀ x ∈ rest.head?, x.isDigit = false) : fracPart ('.' :: (ds ++ rest)) = (ds, rest) := by
  obtain ⟨c, l, rfl⟩ := List.exists_cons_of_ne_nil hnil
  exact fracPart_digits (hds c List.mem_cons_self) (fun x hx => hds x (List.mem_cons_of_mem c hx))
    hrest

theorem readNumber_float (neg : Bool) {cs whole r₁ frac r₂ r₃ : List Char} {exp : Option Int}
    (h₁ : intPart cs = some (whole, r₁)) (h₂ : fracPart r₁ = (frac, r₂))
    (h₃ : expPart r₂ = (exp, r₃)) (hne : frac ≠ [] ∨ exp.isSome) :
    readNumber neg cs = some (.ok (.float (nearestDouble neg (digitsValue (whole ++ frac))
      (exp.getD 0 - frac.length)), r₃)) := by
  have hcond : (frac.isEmpty && exp.isNone) = false := by
    rcases hne with h | h
    · simp [List.isEmpty_iff, h]
    · simp [h]
  simp only [readNumber, h₁, Option.map_some, h₂, h₃, hcond, Bool.false_eq_true, if_false]

theorem readNumber_exponent (neg : Bool) {c : Char} {l rest : List Char} (x : Int) (w : Nat)
    (hc : c.isDigit = true) (hc0 : c ≠ '0') (hl : AllDigits l) (hrest : EndsNumber rest) :
    readNumber neg (c :: ((if l ≠ [] then '.' :: l else []) ++ 'e' :: (if x < 0 then '-' else '+') ::
      (List.replicate w '0' ++ Nat.toDigits 10 x.natAbs ++ rest))) =
      some (.ok (.float (nearestDouble neg (digitsValue (c :: l)) (x - l.length)), rest)) := by
  set tail := 'e' :: (if x < 0 then '-' else '+') ::
    (List.replicate w '0' ++ Nat.toDigits 10 x.natAbs ++ rest)
  have hexp : expPart tail = (some x, rest) := by
    have hv : digitsValue (List.replicate w '0' ++ Nat.toDigits 10 x.natAbs) = x.natAbs := by
      rw [digitsValue_append, digitsValue_zeros, digitsValue_toDigits, Nat.mul_zero, Nat.zero_add]
    have h := expPart_signed (decide (x < 0)) (by simp)
      ((allDigits_zeros w).append (allDigits_toDigits x.natAbs)) hrest.not_digit
    simp only [decide_eq_true_eq, hv] at h
    rw [h]
    split_ifs <;> congr <;> omega
  have he : ∀ y ∈ tail.head?, y.isDigit = false := by simp [tail]
  by_cases hl₀ : l = []
  · subst hl₀
    have h₁ := intPart_digits (l := []) hc hc0 (by simp [AllDigits]) he
    rw [List.nil_append] at h₁
    have h₂ : fracPart tail = ([], tail) := fracPart_of_head (by simp [tail])
    simp only [ne_eq, not_true_eq_false, if_false, List.nil_append]
    rw [readNumber_float neg h₁ h₂ hexp (.inr rfl)]
    rfl
  · have h₁ := @intPart_digits c [] ('.' :: (l ++ tail)) hc hc0 (by simp [AllDigits]) (by simp)
    rw [List.nil_append] at h₁
    have h₂ := fracPart_point hl hl₀ he
    simp only [ne_eq, hl₀, not_false_eq_true, if_true, List.cons_append]
    rw [readNumber_float neg h₁ h₂ hexp (.inr rfl)]
    rfl

theorem readNumber_body (n : Notation) (neg : Bool) {d : Nat} (e : Int) (hd : 0 < d)
    {rest : List Char} (hrest : EndsNumber rest) :
    ∃ (D : Nat) (E : Int), 0 < D ∧ (D : ℚ) * 10 ^ E = d * 10 ^ e ∧
      readNumber neg ((n.body (Nat.toDigits 10 d) ((Nat.toDigits 10 d).length + e)).toList ++
        rest) = some (.ok (.float (nearestDouble neg D E), rest)) := by
  obtain ⟨c, l, hcl, hc0⟩ := toDigits_head hd
  have hds := allDigits_toDigits d
  have hdv := digitsValue_toDigits d
  have hlen : 0 < (Nat.toDigits 10 d).length := Nat.length_toDigits_pos
  generalize Nat.toDigits 10 d = ds at hcl hds hdv hlen ⊢
  subst hcl
  have hnd := hrest.not_digit
  have h₃ : expPart rest = (none, rest) := expPart_of_head hrest.not_exp
  unfold Notation.body
  split_ifs with hrange hp hle
  · -- `0.0…0ddd`: a zero, the point, zeros, then the digits
    set k := (-(((c :: l).length : Int) + e)).toNat with hk
    have htext : (String.ofList ('0' :: '.' :: List.replicate k '0' ++ c :: l)).toList ++ rest =
        '0' :: ('.' :: ((List.replicate k '0' ++ c :: l) ++ rest)) := by simp
    have h₂ := fracPart_point ((allDigits_zeros k).append hds) (by simp) hnd
    rw [htext, readNumber_float neg (intPart_zero _) h₂ h₃ (.inl (by simp))]
    have hv : digitsValue (['0'] ++ (List.replicate k '0' ++ c :: l)) = d := by
      rw [digitsValue_append, digitsValue_append, digitsValue_zeros, hdv]
      simp [digitsValue]
    refine ⟨_, _, hv ▸ hd, ?_, rfl⟩
    rw [hv, Option.getD_none, List.length_append, List.length_replicate]
    congr 2
    omega
  · -- `ddd00.0`: the digits, zeros up to the point, and a zero after it
    set k := ((((c :: l).length : Int) + e).toNat - (c :: l).length) with hk
    have htext : (String.ofList (c :: l ++ List.replicate k '0' ++ ['.', '0'])).toList ++ rest =
        (c :: l ++ List.replicate k '0') ++ ('.' :: '0' :: rest) := by simp
    have h₁ := @intPart_lead _ ('.' :: '0' :: rest) (hds.append (allDigits_zeros k)) (by simp)
      (by simpa using hc0) (by simp)
    have h₂ : fracPart ('.' :: '0' :: rest) = (['0'], rest) :=
      fracPart_digits (l := []) rfl (by simp [AllDigits]) hnd
    rw [htext, readNumber_float neg h₁ h₂ h₃ (.inl (by simp))]
    have hv : digitsValue (c :: l ++ List.replicate k '0' ++ ['0']) = d * 10 ^ (k + 1) := by
      rw [digitsValue_append, digitsValue_append, digitsValue_zeros, hdv]
      simp [digitsValue, pow_succ]
      ring
    refine ⟨_, _, by rw [hv]; positivity, ?_, rfl⟩
    rw [hv, Option.getD_none, show ((0 : Int) - ((['0'] : List Char).length : Int)) = -1 by simp]
    push_cast
    rw [show e = (k : Int) by omega, zpow_natCast, zpow_neg_one]
    field_simp
    ring
  · -- `dd.ddd`: the point inside the digits
    set k := (((c :: l).length : Int) + e).toNat with hk
    have htext : (String.ofList ((c :: l).take k ++ '.' :: (c :: l).drop k)).toList ++ rest =
        (c :: l).take k ++ ('.' :: ((c :: l).drop k ++ rest)) := by simp
    have htake : AllDigits ((c :: l).take k) := fun x hx => hds x (List.mem_of_mem_take hx)
    have hdrop : AllDigits ((c :: l).drop k) := fun x hx => hds x (List.mem_of_mem_drop hx)
    have hdrop₀ : (c :: l).drop k ≠ [] := by
      simp only [ne_eq, List.drop_eq_nil_iff]
      omega
    obtain ⟨k', hk'⟩ : ∃ k', k = k' + 1 := ⟨k - 1, by omega⟩
    have h₁ := @intPart_lead _ ('.' :: ((c :: l).drop k ++ rest)) htake (by simp [hk'])
      (by simpa [hk'] using hc0) (by simp)
    have h₂ := fracPart_point hdrop hdrop₀ hnd
    rw [htext, readNumber_float neg h₁ h₂ h₃ (.inl hdrop₀), List.take_append_drop, hdv]
    refine ⟨_, _, hd, ?_, rfl⟩
    rw [Option.getD_none, List.length_drop]
    congr 2
    omega
  all_goals
    -- `d.ddde+xx`: one digit, the others after the point, and the exponent of the first
    dsimp only
    refine ⟨d, e, hd, rfl, ?_⟩
    have h := readNumber_exponent neg (((c :: l).length : Int) + e - 1)
      (n.expDigits - (Nat.toDigits 10 ((((c :: l).length : Int) + e - 1).natAbs)).length)
      (hds c List.mem_cons_self) hc0 (fun y hy => hds y (List.mem_cons_of_mem c hy)) hrest
    rw [hdv, show ((c :: l).length : Int) + e - 1 - l.length = e by simp; omega] at h
    rw [← h]
    congr 1
    rename_i hmore
    simp only [List.length_cons, gt_iff_lt, Nat.lt_add_left_iff_pos, List.length_pos_iff] at hmore
    simp [hmore]

theorem literal?_digit {c : Char} (hc : c.isDigit = true) (cs : List Char) :
    literal? (c :: cs) = none := by
  rw [literal?.eq_7] <;> (intros; simp_all)

theorem literal?_minus_digit {c : Char} (hc : c.isDigit = true) (cs : List Char) :
    literal? ('-' :: c :: cs) = none := by
  rw [literal?.eq_7] <;> (intros; simp_all)

theorem readValue_other {fuel : Nat} {c : Char} {cs : List Char}
    (hc : c ≠ '[' ∧ c ≠ '{' ∧ c ≠ '"' ∧ c ≠ '-') :
    readValue (fuel + 1) (c :: cs) =
      ((literal? (c :: cs)).map .ok).getD ((readNumber false (c :: cs)).getD (.error .malformed)) := by
  obtain ⟨h₁, h₂, h₃, h₄⟩ := hc
  rw [readValue.eq_6]
  · cases literal? (c :: cs) <;> rfl
  all_goals rintro rest ⟨⟩; contradiction

theorem ne_of_isDigit {c d : Char} (hc : c.isDigit = true) (hd : d.isDigit = false) : c ≠ d := by
  rintro rfl
  simp [hc] at hd

theorem readValue_digit {fuel : Nat} {c : Char} {cs : List Char} (hc : c.isDigit = true) :
    readValue (fuel + 1) (c :: cs) = (readNumber false (c :: cs)).getD (.error .malformed) := by
  rw [readValue_other ⟨ne_of_isDigit hc rfl, ne_of_isDigit hc rfl, ne_of_isDigit hc rfl,
    ne_of_isDigit hc rfl⟩, literal?_digit hc, Option.map_none, Option.getD_none]

theorem readValue_minus_digit {fuel : Nat} {c : Char} {cs : List Char} (hc : c.isDigit = true) :
    readValue (fuel + 1) ('-' :: c :: cs) = (readNumber true (c :: cs)).getD (.error .malformed) := by
  rw [readValue.eq_5, literal?_minus_digit hc]

theorem body_head (n : Notation) {ds : List Char} (hds : AllDigits ds) (hnil : ds ≠ [])
    (p : Int) : ∃ c cs, (n.body ds p).toList = c :: cs ∧ c.isDigit = true := by
  obtain ⟨c, l, rfl⟩ := List.exists_cons_of_ne_nil hnil
  have hc := hds c List.mem_cons_self
  unfold Notation.body
  split_ifs with hrange hp hle
  · exact ⟨'0', _, by simp; rfl, rfl⟩
  · exact ⟨c, _, by simp; rfl, hc⟩
  · obtain ⟨k, hk⟩ : ∃ k, p.toNat = k + 1 := ⟨p.toNat - 1, by omega⟩
    exact ⟨c, _, by simp [hk]; rfl, hc⟩
  all_goals exact ⟨c, _, by simp; rfl, hc⟩

theorem readValue_render_float {x : Float} (hx : (Binary.ofFloat x).isFinite = true) (fuel : Nat)
    {rest : List Char} (hrest : EndsNumber rest) :
    readValue (fuel + 1) ((Notation.data.render x).toList ++ rest) = .ok (.float x, rest) := by
  obtain ⟨neg, m, q, hb⟩ : ∃ neg m q, Binary.ofFloat x = .finite neg m q := by
    revert hx
    cases Binary.ofFloat x <;> simp [Binary.isFinite]
  have hnd := hrest.not_digit
  rcases Nat.eq_zero_or_pos m with rfl | hm
  · -- a zero is written `0.0` or `-0.0`
    have hread := readNumber_float neg (intPart_zero _)
      (fracPart_digits (l := []) (c := '0') rfl (by simp [AllDigits]) hnd)
      (expPart_of_head hrest.not_exp) (.inl (by simp))
    rw [List.nil_append] at hread
    have hzero : nearestDouble neg (digitsValue (['0'] ++ ['0']))
        ((none : Option Int).getD 0 - (['0'] : List Char).length) = x := by
      rw [eq_zero_of_ofFloat hb]
      cases neg <;> rfl
    rw [Notation.render, hb]
    cases neg
    · have htext : "0.0".toList ++ rest = '0' :: '.' :: '0' :: rest := by simp
      simp only [Bool.false_eq_true, if_false, htext]
      rw [readValue_digit rfl, hread, hzero]
      rfl
    · have htext : "-0.0".toList ++ rest = '-' :: '0' :: '.' :: '0' :: rest := by simp
      simp only [if_true, htext]
      rw [readValue_minus_digit rfl, hread, hzero]
      rfl
  · -- otherwise the shortest digits, which read back as the nearest double
    have hc := canonical_of_ofFloat hb hm
    obtain ⟨hneg, hpos, hr⟩ := shortestOf_reads hc neg
    obtain ⟨D, E, hD, hval, hread⟩ := readNumber_body Notation.data neg (shortestOf neg m q).exp hpos
      hrest
    obtain ⟨c, cs, hcs, hcd⟩ := body_head Notation.data (allDigits_toDigits (shortestOf neg m q).digits)
      Nat.toDigits_ne_nil ((Nat.toDigits 10 (shortestOf neg m q).digits).length +
        (shortestOf neg m q).exp)
    have hnear : nearestDouble neg D E = x := by
      rw [nearestDouble_of_reads hc hD (by rw [hval]; exact hr) neg]
      apply eq_of_ofFloat_eq _ (by rw [ofFloat_pack _ hc]; simp)
      rw [ofFloat_pack _ hc, hb]
      cases neg <;> rfl
    obtain ⟨m', rfl⟩ : ∃ m', m = m' + 1 := ⟨m - 1, by omega⟩
    rw [hcs, List.cons_append] at hread
    rw [Notation.render, hb]
    simp only [Notation.scientific, hneg]
    cases neg
    · simp only [Bool.false_eq_true, if_false, String.toList_append, hcs]
      simp [readValue_digit hcd, hread, hnear]
    · simp only [if_true, String.toList_append, hcs]
      simp [readValue_minus_digit hcd, hread, hnear]

theorem readNumber_int (neg : Bool) (k : Nat)
    (hk : (Nat.toDigits 10 k).length ≤ Text.maxIntDigits) {rest : List Char}
    (hrest : EndsNumber rest) :
    readNumber neg (Nat.toDigits 10 k ++ rest) =
      some (.ok (.int (if neg then -(k : Int) else k), rest)) := by
  have h₁ : intPart (Nat.toDigits 10 k ++ rest) = some (Nat.toDigits 10 k, rest) := by
    rcases Nat.eq_zero_or_pos k with rfl | hk₀
    · exact intPart_zero rest
    · obtain ⟨c, l, hcl, hc0⟩ := toDigits_head hk₀
      exact intPart_lead (allDigits_toDigits k) Nat.toDigits_ne_nil (by simp [hcl, hc0])
        hrest.not_digit
  have h₂ : fracPart rest = ([], rest) := fracPart_of_head fun y hy => (hrest y hy).2.1
  have h₃ : expPart rest = (none, rest) := expPart_of_head hrest.not_exp
  simp [readNumber, h₁, h₂, h₃, Nat.not_lt.2 hk]

theorem toString_int_toList (n : Int) :
    (toString n).toList = (if n < 0 then ['-'] else []) ++ Nat.toDigits 10 n.natAbs := by
  cases n with
  | ofNat k => simp [Int.repr, Nat.toList_repr]
  | negSucc k => simp [Int.repr, Nat.toList_repr]

theorem readValue_render_int {n : Int} (hn : (Nat.toDigits 10 n.natAbs).length ≤ Text.maxIntDigits)
    (fuel : Nat) {rest : List Char} (hrest : EndsNumber rest) :
    readValue (fuel + 1) ((toString n).toList ++ rest) = .ok (.int n, rest) := by
  obtain ⟨c, l, hcl⟩ := List.exists_cons_of_ne_nil (Nat.toDigits_ne_nil (n := n.natAbs) (b := 10))
  have hc : c.isDigit = true := allDigits_toDigits n.natAbs c (by simp [hcl])
  have hread := readNumber_int (decide (n < 0)) n.natAbs hn hrest
  rw [hcl, List.cons_append] at hread
  rw [toString_int_toList, hcl]
  by_cases hneg : n < 0
  · simp only [hneg, decide_true, if_true] at hread ⊢
    rw [List.cons_append, List.nil_append, List.cons_append, List.cons_append,
      readValue_minus_digit hc, hread]
    simp only [Option.getD_some]
    congr
    omega
  · simp only [hneg, decide_false, Bool.false_eq_true, if_false] at hread ⊢
    rw [List.nil_append, List.cons_append, readValue_digit hc, hread]
    simp only [Option.getD_some]
    congr
    omega

end Invalidation.Json
