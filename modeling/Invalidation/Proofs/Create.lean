import Invalidation.Proofs.Scheme
import Invalidation.Identifier.Dynamic

namespace Invalidation

namespace Text

@[simp] theorem codes_append (a b : Text) : (a ++ b).codes = a.codes ++ b.codes := rfl

theorem ext_codes {a b : Text} (h : a.codes = b.codes) : a = b := by
  cases a
  cases b
  cases h
  rfl

-- Every item after the dropped blanks is blank exactly when every item is: the first item kept
-- would be one that is not.
theorem forall_mem_dropWhile_iff {p : Nat → Bool} {l : List Nat} :
    (∀ x ∈ l.dropWhile p, p x = true) ↔ ∀ x ∈ l, p x = true := by
  constructor
  · intro h
    rw [← List.dropWhile_eq_nil_iff]
    cases hl : l.dropWhile p with
    | nil => rfl
    | cons y ys =>
      have hy := List.head_dropWhile_not p (l := l) (by simp [hl])
      simp only [hl, List.head_cons] at hy
      exact absurd (h y (by simp [hl])) (by simp [hy])
  · exact fun h x hx => h x ((List.dropWhile_sublist p).subset hx)

-- A text strips to nothing exactly when all of it is blank.
theorem strip_eq_empty_iff {t : Text} : strip t = empty ↔ isBlankText t = true := by
  simp only [strip, empty, Text.mk.injEq, List.reverse_eq_nil_iff, List.dropWhile_eq_nil_iff,
    List.mem_reverse, forall_mem_dropWhile_iff, isBlankText, List.all_eq_true]

end Text

namespace Identifier

variable {c t s : Text} {i : Option Text} {a b cs : List Nat}

theorem delimiter_not_mem_mark : delimiter ∉ mark.codes := by decide

theorem contains_eq_false_iff {t : Text} {x : Nat} : t.contains x = false ↔ x ∉ t.codes := by
  simp [Text.contains]

theorem splitAtDelimiter_append (ha : delimiter ∉ a) :
    splitAtDelimiter (a ++ delimiter :: b) = (a, some b) := by
  have hall : ∀ x ∈ a, decide (x ≠ delimiter) = true := fun x hx => by
    simpa using fun he : x = delimiter => ha (he ▸ hx)
  unfold splitAtDelimiter
  rw [List.span_eq_takeWhile_dropWhile, List.takeWhile_append_of_pos hall,
    List.dropWhile_append_of_pos hall]
  simp

-- What splitting finds: the text is the part before, the delimiter and the part after, or it
-- holds no delimiter at all.
theorem splitAtDelimiter_spec (cs : List Nat) :
    delimiter ∉ (splitAtDelimiter cs).1 ∧
      cs = (splitAtDelimiter cs).1 ++ ((splitAtDelimiter cs).2.map (delimiter :: ·)).getD [] := by
  have hfst : delimiter ∉ cs.takeWhile (· ≠ delimiter) := fun h => by
    simpa using List.mem_takeWhile_imp h
  unfold splitAtDelimiter
  rw [List.span_eq_takeWhile_dropWhile]
  split
  case h_1 before x after heq =>
    simp only [Prod.mk.injEq] at heq
    obtain ⟨rfl, hd⟩ := heq
    have hx : x = delimiter := by
      have := List.head_dropWhile_not (fun y => decide (y ≠ delimiter)) (l := cs)
        (by rw [hd]; exact List.cons_ne_nil _ _)
      simp only [hd, List.head_cons] at this
      simpa using this
    subst hx
    refine ⟨hfst, ?_⟩
    conv_lhs => rw [← List.takeWhile_append_dropWhile (p := (· ≠ delimiter)) (l := cs), hd]
    simp
  case h_2 before heq =>
    simp only [Prod.mk.injEq] at heq
    obtain ⟨rfl, hd⟩ := heq
    refine ⟨hfst, ?_⟩
    conv_lhs => rw [← List.takeWhile_append_dropWhile (p := (· ≠ delimiter)) (l := cs), hd]
    simp

-- A prefix without a delimiter stays in front of the first part.
theorem splitAtDelimiter_prefix (ha : delimiter ∉ a) :
    splitAtDelimiter (a ++ cs) = (a ++ (splitAtDelimiter cs).1, (splitAtDelimiter cs).2) := by
  obtain ⟨hnot, hcs⟩ := splitAtDelimiter_spec cs
  cases h : (splitAtDelimiter cs).2 with
  | none =>
    rw [h] at hcs
    simp only [Option.map_none, Option.getD_none, List.append_nil] at hcs
    rw [← hcs, splitAtDelimiter_of_forall]
    intro x hx he
    rcases List.mem_append.1 hx with hx | hx
    · exact ha (he ▸ hx)
    · exact hnot (hcs ▸ he ▸ hx)
  | some b =>
    rw [h] at hcs
    simp only [Option.map_some, Option.getD_some] at hcs
    conv_lhs => rw [hcs, ← List.append_assoc, splitAtDelimiter_append (by simpa using ⟨ha, hnot⟩)]

-- The identifier of a class name and an optional instance key: the mark, the class name, and then
-- the delimiter and the key if there is one.
def compose (c : Text) : Option Text → Text
  | none => mark ++ c
  | some t => mark ++ c ++ Text.single delimiter ++ t

-- Parts that `create` accepts: a class name that is not blank once stripped and holds no delimiter,
-- and no instance key or one that is not blank once stripped.
def Admissible (c : Text) (i : Option Text) : Prop :=
  Text.strip c ≠ Text.empty ∧ c.contains delimiter = false ∧ ∀ t ∈ i, Text.strip t ≠ Text.empty

theorem codes_compose (c : Text) (i : Option Text) :
    (compose c i).codes = mark.codes ++ (c.codes ++ (i.map (delimiter :: ·.codes)).getD []) := by
  cases i <;> simp [compose, Text.single]

theorem admissible_iff :
    Admissible c i ↔ Text.isBlankText c = false ∧ delimiter ∉ c.codes ∧
      ∀ t ∈ i, Text.isBlankText t = false := by
  simp [Admissible, Text.strip_eq_empty_iff, contains_eq_false_iff]

-- `create` checks the class name and then the instance key, and joins the parts that pass. An
-- empty class name is blank, so its truth test adds nothing to the blank test.
theorem create_str (c : Text) (i : Option Text) :
    create (.str c) (Json.ofOption i) =
      if Text.isBlankText c then .error (.invalidIdentifier (.str c) .classRequired)
      else if c.contains delimiter then .error (.invalidIdentifier (.str c) .classHasDelimiter)
      else match i with
        | none => .ok (mark ++ c)
        | some t => if Text.isBlankText t then .error (.invalidIdentifier (.str t) .blankInstance)
          else .ok (mark ++ c ++ Text.single delimiter ++ t) := by
  have htruthy : Text.isBlankText c = false → (Json.str c).isTruthy = true := by
    intro h
    cases hcs : c.codes with
    | nil => simp [Text.isBlankText, hcs] at h
    | cons x xs => simp [Json.isTruthy, Text.isEmpty, hcs]
  cases hb : Text.isBlankText c
  case false =>
    have ht := htruthy hb
    cases hd : c.contains delimiter
    case false =>
      cases i with
      | none => simp [create, ht, hb, hd, Json.ofOption, Json.textFor, bind, Except.bind, pure,
          Except.pure]
      | some t =>
        cases hbt : Text.isBlankText t <;>
          simp [create, ht, hb, hd, hbt, Json.ofOption, Json.textFor, bind, Except.bind, pure,
            Except.pure, throw, throwThe, MonadExceptOf.throw]
    case true =>
      simp [create, ht, hb, hd, Json.textFor, bind, Except.bind, throw, throwThe,
        MonadExceptOf.throw]
  case true =>
    cases ht : (Json.str c).isTruthy <;>
      simp [create, ht, hb, Json.textFor, bind, Except.bind, throw, throwThe, MonadExceptOf.throw]

theorem create_eq_ok_iff :
    create (.str c) (Json.ofOption i) = .ok s ↔ Admissible c i ∧ s = compose c i := by
  rw [admissible_iff, create_str, ← contains_eq_false_iff]
  cases hb : Text.isBlankText c <;> cases hd : c.contains delimiter <;> simp only [if_true,
    Bool.false_eq_true, if_false, reduceCtorEq, true_and, false_and, and_false]
  cases i with
  | none =>
    simp only [Except.ok.injEq, Option.mem_def, reduceCtorEq, false_implies, implies_true, true_and]
    exact eq_comm
  | some t =>
    cases hbt : Text.isBlankText t
    case true => simp [hbt]
    case false =>
      simp only [hbt, Bool.false_eq_true, if_false, Except.ok.injEq, Option.mem_def,
        Option.some.injEq, forall_eq', true_and]
      exact eq_comm

theorem isValid_compose (h : Admissible c i) : isValid (compose c i) = true := by
  obtain ⟨hb, hd, hi⟩ := admissible_iff.1 h
  have hpre : (compose c i).startsWith mark = true := by
    simp [Text.startsWith, codes_compose, List.isPrefixOf_iff_prefix]
  have hdrop : (compose c i).codes.drop mark.length = c.codes ++ (i.map (delimiter :: ·.codes)).getD [] := by
    rw [codes_compose]
    exact List.drop_left' rfl
  have hcls : c.codes.all Text.isBlank = false := hb
  simp only [isValid, hpre, hdrop, Bool.true_and]
  cases i with
  | none =>
    rw [Option.map_none, Option.getD_none, List.append_nil, splitAtDelimiter_of_forall]
    · simp [hcls]
    · exact fun x hx he => hd (he ▸ hx)
  | some t =>
    rw [Option.map_some, Option.getD_some, splitAtDelimiter_append hd]
    have ht : t.codes.all Text.isBlank = false := hi t rfl
    simp [hcls, ht]

theorem splitAtDelimiter_compose (hd : delimiter ∉ c.codes) :
    splitAtDelimiter (compose c i).codes = ((mark ++ c).codes, i.map (·.codes)) := by
  have hmc : delimiter ∉ mark.codes ++ c.codes := by
    simp only [List.mem_append, not_or]
    exact ⟨delimiter_not_mem_mark, hd⟩
  rw [codes_compose, ← List.append_assoc]
  cases i with
  | none => simpa using splitAtDelimiter_of_forall fun x hx he => hmc (he ▸ hx)
  | some t => simpa using splitAtDelimiter_append hmc

theorem className_compose (hd : delimiter ∉ c.codes) : className (compose c i) = c := by
  have hpre : (compose c i).startsWith mark = true := by
    simp [Text.startsWith, codes_compose, List.isPrefixOf_iff_prefix]
  have hbody : body (compose c i) = c.codes ++ (i.map (delimiter :: ·.codes)).getD [] := by
    rw [body, if_pos hpre, codes_compose]
    exact List.drop_left' rfl
  cases i with
  | none =>
    simp only [className, hbody, Option.map_none, Option.getD_none, List.append_nil]
    rw [splitAtDelimiter_of_forall fun x hx he => hd (he ▸ hx)]
  | some t =>
    simp only [className, hbody, Option.map_some, Option.getD_some]
    rw [splitAtDelimiter_append hd]

theorem instanceKey?_compose (hd : delimiter ∉ c.codes) : instanceKey? (compose c i) = i := by
  cases i <;> simp [instanceKey?, splitAtDelimiter_compose hd]

theorem isClassLevel_compose (hd : delimiter ∉ c.codes) : isClassLevel (compose c i) = i.isNone := by
  have hsplit := (splitAtDelimiter_spec (compose c i).codes).2
  rw [splitAtDelimiter_compose hd] at hsplit
  have hmc : delimiter ∉ (mark ++ c).codes := by
    simp only [Text.codes_append, List.mem_append, not_or]
    exact ⟨delimiter_not_mem_mark, hd⟩
  cases i with
  | none => simpa [isClassLevel, Text.contains, hsplit] using hmc
  | some t => simp [isClassLevel, Text.contains, hsplit]

theorem classOf_compose (hd : delimiter ∉ c.codes) : classOf (compose c i) = compose c none := by
  cases i with
  | none => simp [classOf, isClassLevel_compose hd]
  | some t =>
    rw [classOf, isClassLevel_compose hd, splitAtDelimiter_compose hd]
    rfl

-- A valid identifier is the composition of the parts read off it, and those parts are admissible.
theorem compose_parts (hv : isValid s = true) :
    Admissible (className s) (instanceKey? s) ∧ compose (className s) (instanceKey? s) = s := by
  simp only [isValid, Bool.and_eq_true] at hv
  obtain ⟨hm, hsplit⟩ := hv
  obtain ⟨rest, hs⟩ : ∃ rest, s.codes = mark.codes ++ rest := by
    simp only [Text.startsWith, List.isPrefixOf_iff_prefix] at hm
    obtain ⟨rest, h⟩ := hm
    exact ⟨rest, h.symm⟩
  have hdrop : s.codes.drop mark.length = rest := by
    rw [hs]
    exact List.drop_left' rfl
  have hbody : body s = rest := by rw [body, if_pos hm, hdrop]
  have hname : className s = ⟨(splitAtDelimiter rest).1⟩ := by rw [className, hbody]
  have hkey : instanceKey? s = (splitAtDelimiter rest).2.map Text.mk := by
    rw [instanceKey?, hs, splitAtDelimiter_prefix delimiter_not_mem_mark]
  obtain ⟨hnot, hrest⟩ := splitAtDelimiter_spec rest
  rw [hdrop] at hsplit
  rw [hname, hkey, admissible_iff]
  generalize splitAtDelimiter rest = p at hsplit hnot hrest
  obtain ⟨cls, inst⟩ := p
  refine ⟨⟨?_, hnot, ?_⟩, ?_⟩
  · cases inst <;> simp_all [Text.isBlankText]
  · intro t ht
    cases inst with
    | none => cases ht
    | some b =>
      cases ht
      simp_all [Text.isBlankText]
  · apply Text.ext_codes
    rw [codes_compose, hs, hrest]
    cases inst <;> simp

theorem create_inverts_reading :
    (∀ (c : Text) (i : Option Text),
      ((∃ s, create (.str c) (Json.ofOption i) = .ok s) ↔ Admissible c i) ∧
      ∀ s, create (.str c) (Json.ofOption i) = .ok s →
        isValid s = true ∧ className s = c ∧ instanceKey? s = i ∧
          (isClassLevel s = true ↔ i = none) ∧ create (.str c) .null = .ok (classOf s)) ∧
    ∀ s, isValid s = true →
      create (.str (className s)) (Json.ofOption (instanceKey? s)) = .ok s := by
  refine ⟨fun c i => ⟨?_, fun s hs => ?_⟩, fun s hv => ?_⟩
  · constructor
    · rintro ⟨s, hs⟩
      exact (create_eq_ok_iff.1 hs).1
    · intro h
      exact ⟨_, create_eq_ok_iff.2 ⟨h, rfl⟩⟩
  · obtain ⟨h, rfl⟩ := create_eq_ok_iff.1 hs
    have hd : delimiter ∉ c.codes := (admissible_iff.1 h).2.1
    have hnone : Admissible c none := ⟨h.1, h.2.1, by simp⟩
    refine ⟨isValid_compose h, className_compose hd, instanceKey?_compose hd, ?_, ?_⟩
    · rw [isClassLevel_compose hd]
      cases i <;> simp
    · rw [classOf_compose hd]
      exact create_eq_ok_iff.2 ⟨hnone, rfl⟩
  · obtain ⟨hadm, hcomp⟩ := compose_parts hv
    exact create_eq_ok_iff.2 ⟨hadm, hcomp.symm⟩

end Identifier

end Invalidation
