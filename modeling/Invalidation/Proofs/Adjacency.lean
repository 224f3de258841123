import Invalidation.Graph.Search

namespace Invalidation

namespace IdSet

theorem eq_empty_of_isEmpty {s : IdSet} (h : s.isEmpty = true) : s = empty := by
  have : s.toList = [] := List.isEmpty_iff.1 h
  exact ext this

theorem mem_foldl_insert {l : List Text} {s : IdSet} {x : Text} :
    x ∈ l.foldl insert s ↔ x ∈ s ∨ x ∈ l := by
  induction l generalizing s with
  | nil => simp
  | cons a l ih =>
    simp only [List.foldl_cons, ih, mem_insert, List.mem_cons]
    constructor
    · rintro ((h | h) | h) <;> simp_all
    · rintro (h | h | h) <;> simp_all

@[simp] theorem mem_ofList {l : List Text} {x : Text} : x ∈ ofList l ↔ x ∈ l := by
  simp [ofList, mem_foldl_insert]

end IdSet

namespace Adjacency

variable {m : Adjacency} {k x y v : Text} {s : IdSet}

-- A list sorted by strictly increasing key holds at most one set under a key.
theorem eq_of_mem_sorted {l : List (Text × IdSet)} (hl : l.Pairwise (fun a b => a.1 < b.1))
    (h₁ : (k, s) ∈ l) (h₂ : (k, s') ∈ l) : s = s' := by
  induction l with
  | nil => cases h₁
  | cons e es ih =>
    rw [List.pairwise_cons] at hl
    rcases List.mem_cons.1 h₁ with rfl | hs₁ <;> rcases List.mem_cons.1 h₂ with he | hs₂
    · exact (Prod.mk.inj he).2.symm
    · exact (Text.lt_irrefl k (hl.1 (k, s') hs₂)).elim
    · subst he; exact (Text.lt_irrefl k (hl.1 (k, s) hs₁)).elim
    · exact ih hl.2 hs₁ hs₂

theorem eq_of_mem_entries (h₁ : (k, s) ∈ m.entries) (h₂ : (k, s') ∈ m.entries) : s = s' :=
  eq_of_mem_sorted m.sorted h₁ h₂

theorem find_eq_of_mem (h : (k, s) ∈ m.entries) : m.find k = s := by
  unfold find
  split
  case h_1 e he =>
    have hk : e.1 = k := by simpa using List.find?_some he
    have hmem : (k, e.2) ∈ m.entries := hk ▸ List.mem_of_find?_eq_some he
    exact eq_of_mem_entries hmem h
  case h_2 he =>
    exact absurd h (by simpa using List.find?_eq_none.1 he (k, s))

theorem find_eq_empty (h : ∀ e ∈ m.entries, e.1 ≠ k) : m.find k = IdSet.empty := by
  unfold find
  split
  case h_1 e he =>
    exact absurd (by simpa using List.find?_some he) (h e (List.mem_of_find?_eq_some he))
  case h_2 => rfl

-- `find` read through the entries: a member under a key is a member of the key's entry.
theorem mem_find_iff : y ∈ m.find k ↔ ∃ s, (k, s) ∈ m.entries ∧ y ∈ s := by
  by_cases h : ∃ e ∈ m.entries, e.1 = k
  · obtain ⟨⟨k', s⟩, he, rfl⟩ := h
    rw [find_eq_of_mem he]
    constructor
    · intro hy; exact ⟨s, he, hy⟩
    · rintro ⟨s', he', hy⟩; rwa [eq_of_mem_entries he he']
  · have h : ∀ e ∈ m.entries, e.1 ≠ k := fun e he hk => h ⟨e, he, hk⟩
    rw [find_eq_empty h]
    simp only [IdSet.not_mem_empty, false_iff]
    rintro ⟨s, he, -⟩
    exact h _ he rfl

theorem mem_putSorted {l : List (Text × IdSet)} {e : Text × IdSet}
    (hl : l.Pairwise (fun a b => a.1 < b.1)) :
    e ∈ putSorted k s l ↔ e = (k, s) ∨ e ∈ l ∧ e.1 ≠ k := by
  induction l with
  | nil => simp [putSorted]
  | cons b bs ih =>
    rw [List.pairwise_cons] at hl
    -- every key after `b` is above `b`'s
    have above : ∀ e ∈ bs, b.1 < e.1 := hl.1
    unfold putSorted
    split
    case isTrue hkb =>
      simp only [List.mem_cons]
      constructor
      · rintro (h | h | h)
        · exact .inl h
        · subst h; exact .inr ⟨.inl rfl, fun h => Text.lt_irrefl _ (h ▸ hkb)⟩
        · exact .inr ⟨.inr h, fun h' => Text.lt_irrefl _ (Text.lt_trans hkb (h' ▸ above e h))⟩
      · rintro (h | ⟨h, -⟩)
        · exact .inl h
        · exact .inr h
    case isFalse hkb =>
      split
      case isTrue hk =>
        simp only [List.mem_cons]
        constructor
        · rintro (h | h)
          · exact .inl h
          · exact .inr ⟨.inr h, fun h' => Text.lt_irrefl _ (hk ▸ h' ▸ above e h)⟩
        · rintro (h | ⟨h | h, hne⟩)
          · exact .inl h
          · exact absurd (h ▸ hk.symm) hne
          · exact .inr h
      case isFalse hne =>
        have hbk : b.1 < k := Text.lt_of_not_lt_of_ne hkb hne
        simp only [List.mem_cons, ih hl.2]
        constructor
        · rintro (h | h | h)
          · subst h; exact .inr ⟨.inl rfl, fun h => Text.lt_irrefl _ (h ▸ hbk)⟩
          · exact .inl h
          · exact .inr ⟨.inr h.1, h.2⟩
        · rintro (h | ⟨h | h, hne⟩)
          · exact .inr (.inl h)
          · exact .inl h
          · exact .inr (.inr ⟨h, hne⟩)

-- The one equation every change of an index goes through.
theorem find_put : (m.put k s).find x = if x = k then s else m.find x := by
  unfold put
  split
  case isTrue hs =>
    have hs := IdSet.eq_empty_of_isEmpty hs
    split
    case isTrue hx =>
      subst hx hs
      exact find_eq_empty fun e he => by simpa using (List.mem_filter.1 he).2
    case isFalse hx =>
      by_cases h : ∃ e ∈ m.entries, e.1 = x
      · obtain ⟨⟨k', s'⟩, he, rfl⟩ := h
        have he' : (k', s') ∈ (m.erase k).entries := List.mem_filter.2 ⟨he, by simpa using hx⟩
        rw [find_eq_of_mem he', find_eq_of_mem he]
      · have h : ∀ e ∈ m.entries, e.1 ≠ x := fun e he hx => h ⟨e, he, hx⟩
        rw [find_eq_empty h]
        exact find_eq_empty fun e he => h e (List.mem_filter.1 he).1
  case isFalse =>
    split
    case isTrue hx =>
      subst hx
      exact find_eq_of_mem ((mem_putSorted m.sorted).2 (.inl rfl))
    case isFalse hx =>
      by_cases h : ∃ e ∈ m.entries, e.1 = x
      · obtain ⟨⟨k', s'⟩, he, rfl⟩ := h
        rw [find_eq_of_mem ((mem_putSorted m.sorted).2 (.inr ⟨he, hx⟩)), find_eq_of_mem he]
      · have h : ∀ e ∈ m.entries, e.1 ≠ x := fun e he hx => h ⟨e, he, hx⟩
        rw [find_eq_empty h]
        refine find_eq_empty fun e he => ?_
        rcases (mem_putSorted m.sorted).1 he with rfl | ⟨he, -⟩
        · exact Ne.symm hx
        · exact h e he

@[simp] theorem mem_find_add : y ∈ (m.add k v).find x ↔ x = k ∧ y = v ∨ y ∈ m.find x := by
  rw [add, find_put]
  split
  case isTrue hx => subst hx; simp
  case isFalse hx => simp [hx]

@[simp] theorem mem_find_remove : y ∈ (m.remove k v).find x ↔ y ∈ m.find x ∧ ¬(x = k ∧ y = v) := by
  rw [remove, find_put]
  split
  case isTrue hx => subst hx; simp
  case isFalse hx => simp [hx]

@[simp] theorem find_empty : empty.find x = IdSet.empty :=
  find_eq_empty fun _ h => by cases h

theorem mem_members_of_mem_find (h : y ∈ m.find x) : y ∈ m.members := by
  obtain ⟨s, he, hy⟩ := mem_find_iff.1 h
  exact List.mem_flatMap.2 ⟨(x, s), he, hy⟩

-- No key of the index is left with an empty set.
def Populated (m : Adjacency) : Prop := ∀ e ∈ m.entries, e.2.toList ≠ []

theorem populated_empty : empty.Populated := fun _ h => by cases h

-- `put` never stores an empty set, whatever the index held before.
theorem Populated.put (hm : m.Populated) (k : Text) (s : IdSet) : (m.put k s).Populated := by
  unfold Adjacency.put
  split
  case isTrue => exact fun e he => hm e (List.mem_filter.1 he).1
  case isFalse hs =>
    intro e he
    rcases (mem_putSorted m.sorted).1 he with rfl | ⟨he, -⟩
    · simpa [IdSet.isEmpty, List.isEmpty_iff] using hs
    · exact hm e he

theorem Populated.add (hm : m.Populated) (k v : Text) : (m.add k v).Populated := hm.put _ _

theorem Populated.remove (hm : m.Populated) (k v : Text) : (m.remove k v).Populated := hm.put _ _

end Adjacency

end Invalidation
