import Invalidation.Proofs.NumberText
import Invalidation.Json.Write

namespace Invalidation

-- Whether a code point is a high surrogate, the first unit of a pair.
def isHighSurrogate (c : Nat) : Bool := 0xD800 ≤ c && c ≤ 0xDBFF

-- Whether a code point is a low surrogate, the second unit of a pair.
def isLowSurrogate (c : Nat) : Bool := 0xDC00 ≤ c && c ≤ 0xDFFF

-- A text that its string literal gives back: its code points are below 0x110000, and no high
-- surrogate stands right before a low one, as the two would be read back as one code point.
structure Text.Plain (t : Text) : Prop where
  lt : ∀ c ∈ t.codes, c < 0x110000
  unpaired : t.codes.IsChain fun a b => ¬(isHighSurrogate a = true ∧ isLowSurrogate b = true)

instance (t : Text) : Decidable t.Plain :=
  decidable_of_iff ((∀ c ∈ t.codes, c < 0x110000) ∧
      t.codes.IsChain fun a b => ¬(isHighSurrogate a = true ∧ isLowSurrogate b = true))
    ⟨fun ⟨h₁, h₂⟩ => ⟨h₁, h₂⟩, fun ⟨h₁, h₂⟩ => ⟨h₁, h₂⟩⟩

example : Text.Plain ⟨[0x61, 0xDC00, 0xD800, 0x1F600]⟩ ∧ ¬Text.Plain ⟨[0xD83D, 0xDE00]⟩ := by
  decide

namespace Json

theorem hexDigit?_digitChar {n : Nat} (hn : n < 16) : hexDigit? n.digitChar = some n :=
  (by decide : ∀ k : Fin 16, hexDigit? (k : Nat).digitChar = some k) ⟨n, hn⟩

theorem hexDigits_four {n : Nat} (hn : n < 0x10000) :
    Text.hexDigits 4 n = [(n / 4096).digitChar, (n / 256 % 16).digitChar,
      (n / 16 % 16).digitChar, (n % 16).digitChar] := by
  unfold Text.hexDigits
  have h0 : Nat.digitChar 0 = '0' := rfl
  rcases (by omega : n < 16 ∨ 16 ≤ n ∧ n < 256 ∨ 256 ≤ n ∧ n < 4096 ∨ 4096 ≤ n)
    with h | h | h | h
  · rw [Nat.toDigits_of_lt_base h]
    simp [show n / 4096 = 0 by omega, show n / 256 % 16 = 0 by omega,
      show n / 16 % 16 = 0 by omega, Nat.mod_eq_of_lt h, h0]
  · rw [Nat.toDigits_of_base_le (by norm_num) h.1, Nat.toDigits_of_lt_base (by omega)]
    simp [show n / 4096 = 0 by omega, show n / 256 % 16 = 0 by omega,
      show n / 16 % 16 = n / 16 by omega, h0]
  · rw [Nat.toDigits_of_base_le (by norm_num) (show 16 ≤ n by omega),
      Nat.toDigits_of_base_le (by norm_num) (show 16 ≤ n / 16 by omega),
      Nat.toDigits_of_lt_base (by omega)]
    simp [show n / 4096 = 0 by omega, show n / 16 / 16 = n / 256 by omega,
      show n / 256 % 16 = n / 256 by omega, h0]
  · rw [Nat.toDigits_of_base_le (by norm_num) (show 16 ≤ n by omega),
      Nat.toDigits_of_base_le (by norm_num) (show 16 ≤ n / 16 by omega),
      Nat.toDigits_of_base_le (by norm_num) (show 16 ≤ n / 16 / 16 by omega),
      Nat.toDigits_of_lt_base (by omega)]
    simp [show n / 16 / 16 = n / 256 by omega, show n / 256 / 16 = n / 4096 by omega]

theorem hex4?_hexDigits {n : Nat} (hn : n < 0x10000) :
    ∃ a b c d, Text.hexDigits 4 n = [a, b, c, d] ∧ hex4? a b c d = some n := by
  refine ⟨_, _, _, _, hexDigits_four hn, ?_⟩
  simp only [hex4?, hexDigit?_digitChar (by omega : n / 4096 < 16),
    hexDigit?_digitChar (Nat.mod_lt _ (by norm_num) : n / 256 % 16 < 16),
    hexDigit?_digitChar (Nat.mod_lt _ (by norm_num) : n / 16 % 16 < 16),
    hexDigit?_digitChar (Nat.mod_lt _ (by norm_num) : n % 16 < 16), Option.pure_def,
    Option.bind_eq_bind, Option.bind_some, Option.some.injEq]
  omega

-- A text that, where it starts with a `\\u` escape, starts with the escape of a code point that is
-- no low surrogate: after the escape of a high surrogate it is read on its own.
def NoLowEscape (cs : List Char) : Prop :=
  ∀ e f g h rest, cs = '\\' :: 'u' :: e :: f :: g :: h :: rest →
    ∃ lo, hex4? e f g h = some lo ∧ isLowSurrogate lo = false

theorem toNat_ofNat_ascii {c : Nat} (hc : c < 0x7F) : (Char.ofNat c).toNat = c := by
  rw [Char.toNat_ofNat, if_pos (by simp [Nat.isValidChar]; omega)]

theorem readChars_escape {c : Nat} (hc : c < 0x110000) (acc : List Nat) {tail : List Char}
    (htail : isHighSurrogate c = true → NoLowEscape tail) :
    readChars acc (escape c ++ tail) = readChars (c :: acc) tail := by
  unfold escape
  dsimp only
  split_ifs with h₁ h₂ h₃ h₄ h₅ h₆ h₇ h₈ h₉
  -- seven escapes of two characters
  iterate 7
    · subst_vars
      rw [List.cons_append, List.cons_append, List.nil_append, readChars.eq_5]
      all_goals first | rfl | (intros; simp_all)
  · -- printable ASCII stands for itself
    have hcn := toNat_ofNat_ascii h₈.2
    rw [List.cons_append, List.nil_append, readChars.eq_6, hcn, if_neg (by omega)]
    all_goals intros; subst_vars; simp_all
  · -- a code point of the basic plane is written `\\uXXXX`
    obtain ⟨a, b, c', d, hdig, hhex⟩ := hex4?_hexDigits h₉
    rw [hdig]
    by_cases ht : ∃ e f g h r, tail = '\\' :: 'u' :: e :: f :: g :: h :: r
    · obtain ⟨e, f, g, h, r, rfl⟩ := ht
      simp only [List.cons_append, List.nil_append]
      rw [readChars.eq_3, hhex]
      dsimp only
      split_ifs with hhigh
      · obtain ⟨lo, hlo, hlow⟩ :=
          htail (by simp [isHighSurrogate, hhigh.1, hhigh.2]) e f g h r rfl
        rw [hlo]
        dsimp only
        rw [if_neg (by simpa [isLowSurrogate] using hlow)]
      · rfl
    · simp only [List.cons_append, List.nil_append]
      rw [readChars.eq_4 _ _ _ _ _ _ (fun e f g h r heq => ht ⟨e, f, g, h, r, heq⟩), hhex]
  · -- beyond the basic plane: the escapes of a surrogate pair
    obtain ⟨a, b, c', d, hdig, hhex⟩ :=
      hex4?_hexDigits (n := 0xD800 + (c - 0x10000) / 0x400) (by omega)
    obtain ⟨e, f, g, h, hdig', hhex'⟩ :=
      hex4?_hexDigits (n := 0xDC00 + (c - 0x10000) % 0x400) (by omega)
    have hv : 0x10000 + (0xD800 + (c - 0x10000) / 0x400 - 0xD800) * 0x400 +
        (0xDC00 + (c - 0x10000) % 0x400 - 0xDC00) = c := by omega
    simp only [hdig, hdig', List.cons_append, List.nil_append]
    rw [readChars.eq_3, hhex, hhex']
    dsimp only
    rw [if_pos (by omega), if_pos (by omega), hv]

theorem unit_digits_eq {a b c d e f g h : Char} {tail rest : List Char}
    (heq : ['\\', 'u', a, b, c, d] ++ tail = '\\' :: 'u' :: e :: f :: g :: h :: rest) :
    a = e ∧ b = f ∧ c = g ∧ d = h := by
  simp only [List.cons_append, List.nil_append, List.cons.injEq] at heq
  exact ⟨heq.2.2.1, heq.2.2.2.1, heq.2.2.2.2.1, heq.2.2.2.2.2.1⟩

theorem noLowEscape_escape {c : Nat} (hc : c < 0x110000) (hlow : isLowSurrogate c = false)
    (tail : List Char) : NoLowEscape (escape c ++ tail) := by
  intro e f g h rest heq
  unfold escape at heq
  dsimp only at heq
  split_ifs at heq with h₁ h₂ h₃ h₄ h₅ h₆ h₇ h₈ h₉
  iterate 7 simp at heq
  · have hcn := toNat_ofNat_ascii h₈.2
    simp only [List.cons_append, List.nil_append, List.cons.injEq] at heq
    have := congrArg Char.toNat heq.1
    simp only [hcn] at this
    exact absurd this h₂
  · -- `\\uXXXX` of the code point itself
    obtain ⟨a, b, c', d, hdig, hhex⟩ := hex4?_hexDigits h₉
    rw [hdig] at heq
    obtain ⟨rfl, rfl, rfl, rfl⟩ := unit_digits_eq heq
    exact ⟨c, hhex, hlow⟩
  · -- `\\uXXXX` of the high surrogate of a pair
    obtain ⟨a, b, c', d, hdig, hhex⟩ :=
      hex4?_hexDigits (n := 0xD800 + (c - 0x10000) / 0x400) (by omega)
    rw [hdig, List.append_assoc] at heq
    obtain ⟨rfl, rfl, rfl, rfl⟩ := unit_digits_eq heq
    exact ⟨_, hhex, by simp [isLowSurrogate]; omega⟩

theorem readChars_escapes (acc : List Nat) {codes : List Nat} (hlt : ∀ c ∈ codes, c < 0x110000)
    (hpair : codes.IsChain fun a b => ¬(isHighSurrogate a = true ∧ isLowSurrogate b = true))
    (rest : List Char) :
    readChars acc (codes.flatMap escape ++ '"' :: rest) = some (⟨acc.reverse ++ codes⟩, rest) := by
  induction codes generalizing acc with
  | nil => simp [readChars]
  | cons c cs ih =>
    -- what follows the escape of `c` starts with the escape of the next code point, if any
    have htail : isHighSurrogate c = true → NoLowEscape (cs.flatMap escape ++ '"' :: rest) := by
      intro hhigh
      cases cs with
      | nil => intro e f g h r heq; simp at heq
      | cons c' cs' =>
        have hlow : isLowSurrogate c' = false := by
          have := (List.isChain_cons_cons.1 hpair).1
          simpa [hhigh] using this
        rw [List.flatMap_cons, List.append_assoc]
        exact noLowEscape_escape (hlt c' (by simp)) hlow _
    rw [List.flatMap_cons, List.append_assoc, readChars_escape (hlt c (by simp)) acc htail,
      ih (c :: acc) (fun x hx => hlt x (List.mem_cons_of_mem c hx)) hpair.tail]
    simp

theorem quoteString_toList (s : Text) :
    (quoteString s).toList = '"' :: (s.codes.flatMap escape ++ ['"']) := by
  simp [quoteString]

theorem readChars_quoteString {s : Text} (hs : s.Plain) (rest : List Char) :
    readChars [] (s.codes.flatMap escape ++ '"' :: rest) = some (s, rest) := by
  rw [readChars_escapes [] hs.lt hs.unpaired rest]
  simp

theorem readValue_quoteString {s : Text} (hs : s.Plain) (fuel : Nat) (rest : List Char) :
    readValue (fuel + 1) ((quoteString s).toList ++ rest) = .ok (.str s, rest) := by
  rw [quoteString_toList, List.cons_append, List.append_assoc, List.singleton_append,
    readValue.eq_4, readChars_quoteString hs]

end Json

end Invalidation
