import Invalidation.Proofs.StringText

namespace Invalidation

open Decimal

-- A document whose text reads back as itself: its texts are plain, its integers have at most
-- `maxIntDigits` digits, its doubles are finite, and no object repeats a key.
inductive Json.Plain : Json → Prop where
  | null : Plain .null
  | bool (b : Bool) : Plain (.bool b)
  | int {n : Int} (h : (Nat.toDigits 10 n.natAbs).length ≤ Text.maxIntDigits) : Plain (.int n)
  | float {x : Float} (h : (Binary.ofFloat x).isFinite = true) : Plain (.float x)
  | str {s : Text} (h : s.Plain) : Plain (.str s)
  | arr {xs : List Json} (h : ∀ x ∈ xs, Plain x) : Plain (.arr xs)
  | obj {ms : List (Text × Json)} (keys : ∀ m ∈ ms, m.1.Plain) (distinct : (ms.map (·.1)).Nodup)
      (h : ∀ m ∈ ms, Plain m.2) : Plain (.obj ms)

namespace Json

theorem Plain.obj_of_map {ms : List (Text × Json)} (hk : ∀ k ∈ ms.map (·.1), k.Plain)
    (hd : (ms.map (·.1)).Nodup) (hv : ∀ v ∈ ms.map (·.2), v.Plain) : (Json.obj ms).Plain :=
  .obj (fun m hm => hk m.1 (List.mem_map_of_mem hm)) hd
    (fun m hm => hv m.2 (List.mem_map_of_mem hm))

theorem endsNumber_nil : EndsNumber [] := nofun

theorem endsNumber_cons {c : Char} (rest : List Char)
    (hc : c.isDigit = false ∧ c ≠ '.' ∧ c ≠ 'e' ∧ c ≠ 'E') : EndsNumber (c :: rest) := by
  intro d hd
  cases hd
  exact hc

theorem literal?_of_head {c : Char} (cs : List Char)
    (hc : c ≠ 'n' ∧ c ≠ 't' ∧ c ≠ 'f' ∧ c ≠ 'N' ∧ c ≠ 'I' ∧ c ≠ '-') : literal? (c :: cs) = none := by
  obtain ⟨h₁, h₂, h₃, h₄, h₅, h₆⟩ := hc
  rw [literal?.eq_7] <;> rintro rest ⟨⟩ <;> contradiction

theorem readValue_closing {fuel : Nat} {c : Char} (cs : List Char)
    (hc : c = ' ' ∨ c = '\t' ∨ c = '\n' ∨ c = '\r' ∨ c = ']' ∨ c = '}') :
    readValue (fuel + 1) (c :: cs) = .error .malformed := by
  rcases hc with rfl | rfl | rfl | rfl | rfl | rfl <;>
    rw [readValue_other (by decide), literal?_of_head _ (by decide)] <;> rfl

theorem readValue_ok_head {n : Nat} {cs : List Char} {r : Json × List Char}
    (h : readValue n cs = .ok r) :
    ∃ c cs', cs = c :: cs' ∧ isSpace c = false ∧ c ≠ ']' ∧ c ≠ '}' := by
  cases n with
  | zero => simp [readValue] at h
  | succ fuel =>
    cases cs with
    | nil =>
      have hnil : ∀ (c : Char) (rest : List Char), ([] : List Char) = c :: rest → False :=
        fun _ _ h => List.cons_ne_nil _ _ h.symm
      rw [readValue.eq_6 [] fuel (hnil _) (hnil _) (hnil _) (hnil _)] at h
      cases h
    | cons c cs' =>
      have hbad : ¬(c = ' ' ∨ c = '\t' ∨ c = '\n' ∨ c = '\r' ∨ c = ']' ∨ c = '}') := by
        intro hc
        rw [readValue_closing cs' hc] at h
        cases h
      refine ⟨c, cs', rfl, ?_, ?_, ?_⟩
      · simp only [isSpace, Bool.or_eq_false_iff, decide_eq_false_iff_not]
        tauto
      all_goals
        intro hc
        exact hbad (by simp [hc])

-- A document whose text, followed by anything that ends a number, is read back as it with any fuel
-- beyond the text's length.
def ReadsBack (j : Json) : Prop :=
  ∀ n, (render j).toList.length < n → ∀ rest, EndsNumber rest →
    readValue n ((render j).toList ++ rest) = .ok (j, rest)

theorem ReadsBack.of_succ {j : Json}
    (h : ∀ fuel, (render j).toList.length ≤ fuel → ∀ rest, EndsNumber rest →
      readValue (fuel + 1) ((render j).toList ++ rest) = .ok (j, rest)) : ReadsBack j := by
  intro n hn rest hrest
  obtain ⟨fuel, rfl⟩ : ∃ fuel, n = fuel + 1 := ⟨n - 1, by omega⟩
  exact h fuel (by omega) rest hrest

theorem ReadsBack.head {j : Json} (hj : ReadsBack j) :
    ∃ c cs, (render j).toList = c :: cs ∧ isSpace c = false ∧ c ≠ ']' ∧ c ≠ '}' := by
  have h := hj _ (Nat.lt_succ_self _) [] endsNumber_nil
  rw [List.append_nil] at h
  exact readValue_ok_head h

theorem ReadsBack.dropWhile_isSpace {j : Json} (hj : ReadsBack j) (rest : List Char) :
    ((render j).toList ++ rest).dropWhile isSpace = (render j).toList ++ rest := by
  obtain ⟨c, cs, hcs, hc, -⟩ := hj.head
  simp [hcs, hc]

theorem renderItems_toList_cons_cons (x x' : Json) (xs : List Json) :
    (renderItems (x :: x' :: xs)).toList =
      (render x).toList ++ ',' :: ' ' :: (renderItems (x' :: xs)).toList := by
  rw [renderItems, String.toList_append, String.toList_append, List.append_assoc]
  · rfl
  · exact List.cons_ne_nil _ _

theorem renderItems_head (x : Json) (xs : List Json) :
    ∃ t, (renderItems (x :: xs)).toList = (render x).toList ++ t := by
  cases xs with
  | nil => exact ⟨[], by simp [renderItems]⟩
  | cons x' xs => exact ⟨_, renderItems_toList_cons_cons x x' xs⟩

theorem readItems_renderItems : ∀ {xs : List Json}, xs ≠ [] → (∀ x ∈ xs, ReadsBack x) →
    ∀ (acc : List Json) {m : Nat}, (renderItems xs).toList.length + 1 < m → ∀ rest : List Char,
    readValue.readItems m acc ((renderItems xs).toList ++ ']' :: rest) =
      .ok (.arr (acc.reverse ++ xs), rest) := by
  intro xs
  -- on the items; the item after the first is read on by the hypothesis for the tail
  induction xs with
  | nil => intro hne; exact absurd rfl hne
  | cons x tail ih =>
    intro _ hxs acc m hm rest
    obtain ⟨m', rfl⟩ : ∃ m', m = m' + 1 := ⟨m - 1, by omega⟩
    cases tail with
    | nil =>
      have hlen : (render x).toList.length < m' := by simp [renderItems] at hm; omega
      rw [show renderItems [x] = render x by rw [renderItems], readValue.readItems.eq_2,
        hxs x (by simp) m' hlen _ (endsNumber_cons rest (by decide))]
      simp [show isSpace ']' = false from rfl]
    | cons x' xs =>
      rw [renderItems_toList_cons_cons] at hm ⊢
      simp only [List.length_append, List.length_cons] at hm
      obtain ⟨t, ht⟩ := renderItems_head x' xs
      have hnext : ReadsBack x' := hxs x' (by simp)
      have hitems := ih (by simp) (fun y hy => hxs y (List.mem_cons_of_mem x hy)) (x :: acc)
        (m := m') (by omega) rest
      simp only [List.append_assoc, List.cons_append]
      rw [readValue.readItems.eq_2, hxs x (by simp) m' (by omega) _ (endsNumber_cons _ (by decide))]
      simp only [List.dropWhile_cons, show isSpace ',' = false from rfl,
        show isSpace ' ' = true from rfl, Bool.false_eq_true, if_false, if_true]
      rw [ht, List.append_assoc, hnext.dropWhile_isSpace, ← List.append_assoc, ← ht, hitems]
      simp

theorem renderMembers_toList_single (k : Text) (v : Json) :
    (renderMembers [(k, v)]).toList = (quoteString k).toList ++ ':' :: ' ' :: (render v).toList := by
  rw [renderMembers, String.toList_append, String.toList_append, List.append_assoc]
  rfl

theorem renderMembers_toList_cons_cons (k : Text) (v : Json) (m : Text × Json)
    (ms : List (Text × Json)) :
    (renderMembers ((k, v) :: m :: ms)).toList = (quoteString k).toList ++ ':' :: ' ' ::
      ((render v).toList ++ ',' :: ' ' :: (renderMembers (m :: ms)).toList) := by
  rw [renderMembers, String.toList_append, String.toList_append, String.toList_append,
    String.toList_append, List.append_assoc, List.append_assoc, List.append_assoc]
  · rfl
  · exact List.cons_ne_nil _ _

theorem setMember_fresh {acc : List (Text × Json)} {k : Text} (h : k ∉ acc.map (·.1))
    (v : Json) : setMember acc k v = acc ++ [(k, v)] := by
  rw [setMember, if_neg]
  simpa using h

theorem readMembers_last {k : Text} (hk : k.Plain) {v : Json} (hv : ReadsBack v)
    (acc : List (Text × Json)) {n : Nat} (hn : (render v).toList.length < n) (rest : List Char) :
    readValue.readMembers (n + 1) acc
        ((quoteString k).toList ++ ':' :: ' ' :: ((render v).toList ++ '}' :: rest)) =
      .ok (.obj (setMember acc k v), rest) := by
  rw [quoteString_toList, List.cons_append, List.append_assoc, List.singleton_append,
    readValue.readMembers.eq_2, readChars_quoteString hk]
  simp only [List.dropWhile_cons, show isSpace ':' = false from rfl,
    show isSpace ' ' = true from rfl, Bool.false_eq_true, if_false, if_true,
    hv.dropWhile_isSpace, hv n hn _ (endsNumber_cons (c := '}') rest (by decide)),
    show isSpace '}' = false from rfl]

theorem readMembers_more {k : Text} (hk : k.Plain) {v : Json} (hv : ReadsBack v)
    (acc : List (Text × Json)) {n : Nat} (hn : (render v).toList.length < n) {Y : List Char}
    (hY : ∀ c ∈ Y.head?, isSpace c = false) :
    readValue.readMembers (n + 1) acc
        ((quoteString k).toList ++ ':' :: ' ' :: ((render v).toList ++ ',' :: ' ' :: Y)) =
      readValue.readMembers n (setMember acc k v) Y := by
  rw [quoteString_toList, List.cons_append, List.append_assoc, List.singleton_append,
    readValue.readMembers.eq_2, readChars_quoteString hk]
  simp only [List.dropWhile_cons, show isSpace ':' = false from rfl,
    show isSpace ' ' = true from rfl, Bool.false_eq_true, if_false, if_true,
    hv.dropWhile_isSpace, hv n hn _ (endsNumber_cons (c := ',') _ (by decide)),
    show isSpace ',' = false from rfl]
  cases Y with
  | nil => rfl
  | cons c Y => simp [hY c rfl]

theorem renderMembers_head (m : Text × Json) (ms : List (Text × Json)) :
    ∃ t, (renderMembers (m :: ms)).toList = '"' :: t := by
  obtain ⟨k, v⟩ := m
  cases ms with
  | nil => exact ⟨_, by rw [renderMembers_toList_single, quoteString_toList, List.cons_append]⟩
  | cons m ms =>
    exact ⟨_, by rw [renderMembers_toList_cons_cons, quoteString_toList, List.cons_append]⟩

theorem readMembers_renderMembers : ∀ {ms : List (Text × Json)}, ms ≠ [] →
    (∀ m ∈ ms, m.1.Plain ∧ ReadsBack m.2) → (ms.map (·.1)).Nodup →
    ∀ (acc : List (Text × Json)), (∀ m ∈ ms, m.1 ∉ acc.map (·.1)) →
    ∀ {n : Nat}, (renderMembers ms).toList.length + 1 < n → ∀ rest : List Char,
    readValue.readMembers n acc ((renderMembers ms).toList ++ '}' :: rest) =
      .ok (.obj (acc ++ ms), rest) := by
  intro ms
  -- on the members; the member after the first is read on by the hypothesis for the tail
  induction ms with
  | nil => intro hne; exact absurd rfl hne
  | cons km tail ih =>
    intro _ hms hnodup acc hfresh n hn rest
    obtain ⟨k, v⟩ := km
    obtain ⟨n', rfl⟩ : ∃ n', n = n' + 1 := ⟨n - 1, by omega⟩
    obtain ⟨hk, hv⟩ : k.Plain ∧ ReadsBack v := hms (k, v) (by simp)
    cases tail with
    | nil =>
      rw [renderMembers_toList_single] at hn ⊢
      simp only [List.length_append, List.length_cons] at hn
      simp only [List.append_assoc, List.cons_append]
      rw [readMembers_last hk hv acc (by omega) rest,
        setMember_fresh (k := k) (hfresh (k, v) (by simp))]
    | cons m ms =>
      rw [renderMembers_toList_cons_cons] at hn ⊢
      simp only [List.length_append, List.length_cons] at hn
      -- the later keys are new after this member too, as no key repeats
      have hk' : k ∉ (m :: ms).map (·.1) := (List.nodup_cons.1 hnodup).1
      have hfresh' : ∀ m' ∈ m :: ms, m'.1 ∉ (acc ++ [(k, v)]).map (·.1) := by
        intro m' hm' hmem
        rw [List.map_append, List.mem_append] at hmem
        rcases hmem with h | h
        · exact hfresh m' (List.mem_cons_of_mem _ hm') h
        · simp only [List.map_cons, List.map_nil, List.mem_singleton] at h
          exact hk' (h ▸ List.mem_map_of_mem hm')
      have hrest := ih (by simp) (fun m' hm' => hms m' (List.mem_cons_of_mem _ hm'))
        (List.nodup_cons.1 hnodup).2 (acc ++ [(k, v)]) hfresh' (n := n') (by omega) rest
      -- the next member starts with the quote of its key
      have hnext : ∀ c ∈ ((renderMembers (m :: ms)).toList ++ '}' :: rest).head?,
          isSpace c = false := by
        obtain ⟨t, ht⟩ := renderMembers_head m ms
        rw [ht, List.cons_append, List.head?_cons]
        rintro c ⟨⟩
        rfl
      simp only [List.append_assoc, List.cons_append]
      rw [readMembers_more hk hv acc (by omega) hnext,
        setMember_fresh (k := k) (hfresh (k, v) (by simp)), hrest]
      simp

theorem Plain.readsBack {j : Json} (hj : j.Plain) : ReadsBack j := by
  induction hj with
  | null =>
    refine .of_succ fun n _ rest _ => ?_
    rw [render, show "null".toList ++ rest = 'n' :: 'u' :: 'l' :: 'l' :: rest from rfl,
      readValue_other (by decide)]
    rfl
  | bool b =>
    refine .of_succ fun n _ rest _ => ?_
    cases b
    · rw [render, show "false".toList ++ rest = 'f' :: 'a' :: 'l' :: 's' :: 'e' :: rest from rfl,
        readValue_other (by decide)]
      rfl
    · rw [render, show "true".toList ++ rest = 't' :: 'r' :: 'u' :: 'e' :: rest from rfl,
        readValue_other (by decide)]
      rfl
  | int h =>
    refine .of_succ fun n _ rest hrest => ?_
    rw [render]
    exact readValue_render_int h n hrest
  | float h =>
    refine .of_succ fun n _ rest hrest => ?_
    rw [render]
    exact readValue_render_float h n hrest
  | str h =>
    refine .of_succ fun n _ rest _ => ?_
    rw [render]
    exact readValue_quoteString h n rest
  | @arr xs _ ih =>
    refine .of_succ fun n hn rest _ => ?_
    rw [render] at hn ⊢
    simp only [String.toList_append, show "[".toList = ['['] from rfl,
      show "]".toList = [']'] from rfl, List.length_append, List.length_singleton] at hn ⊢
    rw [List.append_assoc, List.append_assoc, List.singleton_append, List.singleton_append,
      readValue.eq_2]
    cases xs with
    | nil => simp [renderItems, show isSpace ']' = false from rfl]
    | cons x xs =>
      -- the first item starts with no blank and no closing bracket
      have hx := ih x List.mem_cons_self
      obtain ⟨t, ht⟩ := renderItems_head x xs
      obtain ⟨c, cs, hcs, -, hc, -⟩ := hx.head
      rw [ht, List.append_assoc, hx.dropWhile_isSpace, hcs, List.cons_append]
      split
      · rename_i heq
        cases heq
        exact absurd rfl hc
      · rw [← List.cons_append, ← hcs, ← List.append_assoc, ← ht,
          readItems_renderItems (List.cons_ne_nil _ _) ih [] (by omega)]
        rfl
  | @obj ms keys distinct _ ih =>
    refine .of_succ fun n hn rest _ => ?_
    rw [render] at hn ⊢
    simp only [String.toList_append, show "\x7b".toList = ['\x7b'] from rfl,
      show "\x7d".toList = ['\x7d'] from rfl, List.length_append, List.length_singleton] at hn ⊢
    rw [List.append_assoc, List.append_assoc, List.singleton_append, List.singleton_append,
      readValue.eq_3]
    cases ms with
    | nil => simp [renderMembers, show isSpace '\x7d' = false from rfl]
    | cons m ms =>
      -- the first member starts with the quote of its key
      obtain ⟨t, ht⟩ := renderMembers_head m ms
      rw [ht, List.cons_append, List.dropWhile_cons, if_neg (by decide)]
      show readValue.readMembers n [] ('"' :: (t ++ '\x7d' :: rest)) = _
      rw [← List.cons_append, ← ht,
        readMembers_renderMembers (List.cons_ne_nil _ _) (fun m hm => ⟨keys m hm, ih m hm⟩)
          distinct [] (by simp) (by omega)]
      rfl

theorem read_render {j : Json} (hj : j.Plain) : read (render j) = .ok j := by
  have hb := hj.readsBack
  have hdrop := hb.dropWhile_isSpace []
  rw [List.append_nil] at hdrop
  have hread := hb _ (Nat.lt_succ_self _) [] endsNumber_nil
  rw [List.append_nil] at hread
  simp only [read, hdrop, hread]
  rfl

end Json

end Invalidation
