import Invalidation.Identifier.Scheme
import Mathlib.Data.List.TakeDrop
import Mathlib.Data.List.TakeWhile

namespace Invalidation

theorem Except.bind_eq_ok {ε α β : Type} {x : Except ε α} {f : α → Except ε β} {b : β} :
    x >>= f = .ok b ↔ ∃ a, x = .ok a ∧ f a = .ok b := by
  cases x <;> simp [bind, Except.bind]

namespace Identifier

theorem splitAtDelimiter_fst (cs : List Nat) :
    (splitAtDelimiter cs).1 = cs.takeWhile (· ≠ delimiter) := by
  unfold splitAtDelimiter
  rw [List.span_eq_takeWhile_dropWhile]
  split <;> simp_all

theorem splitAtDelimiter_of_forall {cs : List Nat} (h : ∀ c ∈ cs, c ≠ delimiter) :
    splitAtDelimiter cs = (cs, none) := by
  unfold splitAtDelimiter
  rw [List.span_eq_takeWhile_dropWhile, List.takeWhile_eq_self_iff.2 (by simpa using h),
    List.dropWhile_eq_nil_iff.2 (by simpa using h)]

-- An instance's class keeps the mark and the class name, so it is valid as the instance is.
theorem isValid_classOf {s : Text} (hv : isValid s = true) (hc : isClassLevel s = false) :
    isValid (classOf s) = true := by
  simp only [isValid, Bool.and_eq_true] at hv
  obtain ⟨hm, hcls⟩ := hv
  obtain ⟨rest, hs⟩ : ∃ rest, s.codes = mark.codes ++ rest := by
    simp only [Text.startsWith, List.isPrefixOf_iff_prefix] at hm
    obtain ⟨rest, h⟩ := hm
    exact ⟨rest, h.symm⟩
  have hdrop : (mark.codes ++ rest).drop mark.length = rest := List.drop_left' rfl
  -- the class name is the same whether read from the instance or from its class
  have name : (rest.takeWhile (· ≠ delimiter)).all Text.isBlank = false := by
    rw [hs, hdrop] at hcls
    rw [← splitAtDelimiter_fst]
    split at hcls <;> simp_all
  have hcl : (classOf s).codes = mark.codes ++ rest.takeWhile (· ≠ delimiter) := by
    simp only [classOf, hc, Bool.false_eq_true, ite_false, splitAtDelimiter_fst, hs]
    rw [List.takeWhile_append_of_pos]
    decide
  have hdrop' : (classOf s).codes.drop mark.length = rest.takeWhile (· ≠ delimiter) := by
    rw [hcl]
    exact List.drop_left' rfl
  have hsplit : splitAtDelimiter (rest.takeWhile (· ≠ delimiter)) =
      (rest.takeWhile (· ≠ delimiter), none) :=
    splitAtDelimiter_of_forall fun c h => by simpa using List.mem_takeWhile_imp h
  have hpre : (classOf s).startsWith mark = true := by
    simp only [Text.startsWith, List.isPrefixOf_iff_prefix, hcl]
    exact List.prefix_append _ _
  simp only [isValid, hpre, hdrop', hsplit, name, Bool.true_and, Bool.not_false]

end Identifier

namespace Scheme

variable {sc : Scheme} {v : Json} {role s : Text}

theorem requireValid_eq_ok : sc.requireValid v role = .ok s ↔ v = .str s ∧ sc.isValid (.str s) = true := by
  unfold requireValid
  split
  case h_1 t =>
    split
    case isTrue h =>
      constructor
      · rintro ⟨⟩; exact ⟨rfl, h⟩
      · rintro ⟨⟨⟩, -⟩; rfl
    case isFalse h => simp only [reduceCtorEq, false_iff]; rintro ⟨⟨⟩, h'⟩; exact h h'
  case h_2 hv => simp only [reduceCtorEq, false_iff]; rintro ⟨rfl, -⟩; exact hv s rfl

-- A value the scheme refuses is refused with the fault that names it and the role.
theorem requireValid_eq_error (h : sc.isValid v = false) :
    sc.requireValid v role = .error (.invalidIdentifier v (.invalid role)) := by
  unfold requireValid
  split
  case h_1 => simp [h]
  case h_2 => rfl

theorem requireValid_str (h : sc.isValid (.str s) = true) : sc.requireValid (.str s) role = .ok s :=
  requireValid_eq_ok.2 ⟨rfl, h⟩

theorem standard_isValid_classOf (hv : standard.isValid (.str s) = true)
    (hc : standard.isClassLevel s = false) : standard.isValid (.str (standard.classOf s)) = true :=
  Identifier.isValid_classOf hv hc

end Scheme

end Invalidation
