import Invalidation.Roster

namespace Invalidation

theorem Listener.same_iff {a b : Listener} : a.same b = true ↔ a.id = b.id := beq_iff_eq

theorem Listener.same_comm (a b : Listener) : a.same b = b.same a := by
  simp only [Listener.same, Bool.beq_comm]

namespace Roster

-- A call on the listener set, with a listener or none.
inductive Change where
  | add (l : Option Listener)
  | remove (l : Option Listener)

-- What a call gives: the listeners after it and the line it logs, or its fault.
def call (r : Roster) : Change → Except Fault (Roster × Option LogLine)
  | .add l => r.add l
  | .remove l => r.remove l

-- The listeners after a call; a call that fails leaves them as they were.
def apply (r : Roster) (c : Change) : Roster :=
  match r.call c with
  | .ok (r', _) => r'
  | .error _ => r

-- The listeners after a sequence of calls from none.
def ofChanges (cs : List Change) : Roster := cs.foldl apply empty

-- Whether a listener is the primary consumer registered or one of the observers.
def Knows (r : Roster) (l : Listener) : Prop :=
  (l.primary = true ∧ r.primary.any l.same = true) ∨ ∃ o ∈ r.observers, o.same l = true

-- The reference: what a call does to the primary slot and the observers.
def expect (r : Roster) : Change → Except Fault Roster
  | .add none | .remove none => .error .listenerRequired
  | .add (some l) =>
    if l.primary then
      match r.primary with
      | some p => if p.same l then .ok { r with primary := some l }
        else .error (.duplicatePrimary p.kind l.kind)
      | none => .ok { r with primary := some l }
    else if ∃ o ∈ r.observers, o.same l = true then .ok r
    else .ok { r with observers := r.observers ++ [l] }
  | .remove (some l) =>
    if l.primary = true ∧ r.primary.any l.same = true then .ok { r with primary := none }
    else .ok { r with observers := r.observers.eraseP (·.same l) }

-- The listeners after a call by the reference.
def expectApply (r : Roster) (c : Change) : Roster :=
  match r.expect c with
  | .ok r' => r'
  | .error _ => r

-- The line a removal of an unknown listener logs.
def unknownLine (l : Listener) : LogLine :=
  ⟨.warning, .listeners, Text.ofString "Listener " ++ l.kind.display ++ " was not registered"⟩

-- The listener a call names, if any.
def Change.listener : Change → Option Listener
  | .add l | .remove l => l

-- The listeners a sequence of calls names.
def Change.listeners (cs : List Change) : List Listener := cs.flatMap (·.listener.toList)

-- The registered listeners: the primary consumer, if any, then the observers.
def registered (r : Roster) : List Listener := r.primary.toList ++ r.observers

-- The shape every listener set reached by calls has.
structure Valid (r : Roster) : Prop where
  primary : ∀ p ∈ r.primary, p.primary = true
  observers : ∀ o ∈ r.observers, o.primary = false
  distinct : r.observers.Pairwise fun a b => a.same b = false

variable {r : Roster} {l : Listener}

theorem valid_empty : empty.Valid :=
  ⟨fun _ h => (by cases h), fun _ h => (by cases h), List.Pairwise.nil⟩

-- Among distinct observers, dropping every entry of a listener drops its one entry.
theorem filter_eq_eraseP {os : List Listener} (hd : os.Pairwise fun a b => a.same b = false) :
    os.filter (fun o => !o.same l) = os.eraseP (·.same l) := by
  induction os with
  | nil => rfl
  | cons o os ih =>
    obtain ⟨ho, hd⟩ := List.pairwise_cons.1 hd
    by_cases hl : o.same l = true
    · -- no later observer is the same as `l`, since none is the same as `o`
      have rest : ∀ x ∈ os, (!x.same l) = true := by
        intro x hx
        have hox : o.id ≠ x.id := by simpa [Listener.same] using ho x hx
        have hxl : x.id ≠ l.id := fun h => hox ((Listener.same_iff.1 hl).trans h.symm)
        simpa [Listener.same] using hxl
      simp [hl, List.filter_eq_self.2 rest]
    · simp [hl, ih hd]

-- Each call, on a listener set of the right shape, does what the reference says.
theorem call_eq_expect (hr : r.Valid) (c : Change) : (r.call c).map Prod.fst = r.expect c := by
  cases c with
  | add l =>
    cases l with
    | none => rfl
    | some l =>
      simp only [call, add, expect]
      by_cases hp : l.primary = true
      · cases r.primary with
        | none => simp [hp, Except.map]
        | some p => by_cases hs : p.same l = true <;> simp [hp, hs, Except.map]
      · by_cases hk : ∃ o ∈ r.observers, o.same l = true
        · have : r.observers.any l.same = true := List.any_eq_true.2 (by
            obtain ⟨o, ho, hs⟩ := hk
            exact ⟨o, ho, by rw [Listener.same_comm]; exact hs⟩)
          simp [hp, hk, this, Except.map]
        · have : r.observers.any l.same = false := by
            rw [List.any_eq_false]
            intro o ho hs
            exact hk ⟨o, ho, by rw [Listener.same_comm]; exact hs⟩
          simp only [hp, Bool.false_eq_true, ite_false, this, hk, Except.map]
  | remove l =>
    cases l with
    | none => rfl
    | some l =>
      simp only [call, remove, expect]
      by_cases hp : l.primary = true ∧ r.primary.any l.same = true
      · simp [hp, Except.map]
      · have hb : (l.primary && r.primary.any l.same) = false := by
          simpa [Bool.and_eq_true] using hp
        simp only [hb, Bool.false_eq_true, ite_false, hp]
        split
        · simp only [Except.map, filter_eq_eraseP hr.distinct]
        · -- no observer is the listener: erasing it changes nothing
          rename_i hk
          have hn : ∀ o ∈ r.observers, ¬o.same l = true := by
            intro o ho hs
            rw [Listener.same_comm] at hs
            simp only [List.any_eq_true, not_exists, not_and] at hk
            exact absurd hs (by simpa using hk o ho)
          simp [Except.map, List.eraseP_of_forall_not hn]

-- A call on a listener set of the right shape leaves one of the right shape.
theorem Valid.expectApply (hr : r.Valid) (c : Change) : (r.expectApply c).Valid := by
  -- the two ways a call fills or empties the slot keep the observers as they are
  have fill : ∀ p : Listener, p.primary = true → ({ r with primary := some p } : Roster).Valid :=
    fun p hp => ⟨fun q hq => (by cases hq; exact hp), hr.observers, hr.distinct⟩
  have empty : ({ r with primary := none } : Roster).Valid :=
    ⟨fun _ hq => (by cases hq), hr.observers, hr.distinct⟩
  cases c with
  | add l =>
    cases l with
    | none => exact hr
    | some l =>
      by_cases hp : l.primary = true
      · cases hq : r.primary with
        | none => simpa [Roster.expectApply, expect, hp, hq] using fill l hp
        | some p =>
          by_cases hs : p.same l = true
          · simpa [Roster.expectApply, expect, hp, hq, hs] using fill l hp
          · simpa [Roster.expectApply, expect, hp, hq, hs] using hr
      · by_cases hk : ∃ o ∈ r.observers, o.same l = true
        · simpa [Roster.expectApply, expect, hp, hk] using hr
        · simp only [Roster.expectApply, expect, hp, Bool.false_eq_true, ite_false, hk]
          refine ⟨hr.primary, fun o ho => ?_, ?_⟩
          · rcases List.mem_append.1 ho with ho | ho
            · exact hr.observers o ho
            · rw [List.mem_singleton.1 ho]; simpa using hp
          · refine List.pairwise_append.2 ⟨hr.distinct, List.pairwise_singleton _ _, ?_⟩
            intro a ha b hb
            rw [List.mem_singleton.1 hb]
            simpa using fun h => hk ⟨a, ha, h⟩
  | remove l =>
    cases l with
    | none => exact hr
    | some l =>
      by_cases hp : l.primary = true ∧ r.primary.any l.same = true
      · simpa [Roster.expectApply, expect, hp] using empty
      · simp only [Roster.expectApply, expect, hp, ite_false]
        exact ⟨hr.primary, fun o ho => hr.observers o (List.mem_of_mem_eraseP ho),
          List.Pairwise.sublist List.eraseP_sublist hr.distinct⟩

-- The run lemma: from a listener set of the right shape, every call in a sequence does what the
-- reference says, and the set stays of the right shape.
theorem foldl_apply (cs : List Change) (hr : r.Valid) :
    cs.foldl apply r = cs.foldl Roster.expectApply r ∧ (cs.foldl apply r).Valid ∧
      ∀ pre c post, cs = pre ++ c :: post →
        ((pre.foldl apply r).call c).map Prod.fst = (pre.foldl apply r).expect c := by
  induction cs generalizing r with
  | nil => exact ⟨rfl, hr, fun pre c post h => by simp at h⟩
  | cons c cs ih =>
    -- one call agrees with the reference, so the rest starts from the same listener set
    have step : r.apply c = r.expectApply c := by
      unfold apply Roster.expectApply
      rw [← call_eq_expect hr c]
      rcases r.call c with _ | ⟨r', line⟩ <;> rfl
    obtain ⟨eq, valid, calls⟩ := ih (hr.expectApply c)
    refine ⟨by simp only [List.foldl_cons, step, eq], by simpa [step] using valid, ?_⟩
    intro pre c' post h
    cases pre with
    | nil =>
      obtain ⟨rfl, -⟩ := List.cons_eq_cons.1 h
      exact call_eq_expect hr _
    | cons c₀ pre =>
      simp only [List.cons_append, List.cons.injEq] at h
      obtain ⟨rfl, h⟩ := h
      simpa [step] using calls pre c' post h

-- Removing a listener that is neither the primary consumer nor an observer changes nothing and
-- is reported.
theorem call_remove_unknown (hk : ¬r.Knows l) :
    r.call (.remove (some l)) = .ok (r, some (unknownLine l)) := by
  simp only [Knows, not_or, not_and, not_exists] at hk
  have hb : (l.primary && r.primary.any l.same) = false := by
    cases hp : l.primary
    · rfl
    · simpa using hk.1 hp
  have ho : r.observers.any l.same = false := by
    rw [List.any_eq_false]
    intro o ho hs
    exact hk.2 o ho (by rw [Listener.same_comm]; exact hs)
  simp [call, remove, hb, ho, unknownLine]

-- A listener registered after a call was registered before, or is the one the call names.
theorem mem_registered_expectApply {x : Listener} {c : Change}
    (hx : x ∈ (r.expectApply c).registered) : x ∈ r.registered ∨ x ∈ c.listener := by
  simp only [registered, List.mem_append, Option.mem_toList] at hx ⊢
  cases c with
  | add l =>
    cases l with
    | none => exact .inl hx
    | some l =>
      by_cases hp : l.primary = true
      · -- the slot holds `l` or what it held, and the observers stay
        have hx' : l = x ∨ x ∈ r.primary ∨ x ∈ r.observers := by
          cases hq : r.primary with
          | none => simp_all [Roster.expectApply, expect]
          | some p =>
            by_cases hs : p.same l = true
            · have h : l = x ∨ x ∈ r.observers := by
                simpa [Roster.expectApply, expect, hp, hq, hs] using hx
              rcases h with h | h
              · exact .inl h
              · exact .inr (.inr h)
            · simp_all [Roster.expectApply, expect]
        rcases hx' with rfl | hx' | hx'
        · exact .inr rfl
        · exact .inl (.inl hx')
        · exact .inl (.inr hx')
      · by_cases hk : ∃ o ∈ r.observers, o.same l = true
        · simp_all [Roster.expectApply, expect]
        · simp only [Roster.expectApply, expect, hp, Bool.false_eq_true, ite_false, hk,
            List.mem_append, List.mem_singleton] at hx
          rcases hx with hx | hx | rfl
          · exact .inl (.inl hx)
          · exact .inl (.inr hx)
          · exact .inr rfl
  | remove l =>
    cases l with
    | none => exact .inl hx
    | some l =>
      by_cases hp : l.primary = true ∧ r.primary.any l.same = true
      · simp only [Roster.expectApply, expect, hp, and_self, ite_true] at hx
        rcases hx with hx | hx
        · cases hx
        · exact .inl (.inr hx)
      · simp only [Roster.expectApply, expect, hp, ite_false] at hx
        rcases hx with hx | hx
        · exact .inl (.inl hx)
        · exact .inl (.inr (List.mem_of_mem_eraseP hx))

-- Every listener registered after a sequence of calls from none is one that a call named.
theorem mem_listeners_of_registered (cs : List Change) {x : Listener}
    (hx : x ∈ (cs.foldl Roster.expectApply r).registered) : x ∈ r.registered ∨ x ∈ Change.listeners cs := by
  induction cs generalizing r with
  | nil => exact .inl hx
  | cons c cs ih =>
    rcases ih hx with h | h
    · rcases mem_registered_expectApply h with h | h
      · exact .inl h
      · exact .inr (List.mem_flatMap.2 ⟨c, List.mem_cons_self, Option.mem_toList.2 h⟩)
    · exact .inr (List.mem_flatMap.2 (by
        obtain ⟨c', hc', h'⟩ := List.mem_flatMap.1 h
        exact ⟨c', List.mem_cons_of_mem _ hc', h'⟩))

-- When listeners that are the same object agree on being primary consumers, the primary
-- consumer is none of the observers.
theorem Valid.registered_distinct (hr : r.Valid)
    (objects : ∀ a ∈ r.registered, ∀ b ∈ r.registered, a.same b = true → a.primary = b.primary) :
    r.registered.Pairwise fun a b => a.same b = false := by
  unfold registered
  refine List.pairwise_append.2 ⟨by cases r.primary <;> simp, hr.distinct, ?_⟩
  intro p hp o ho
  rw [Option.mem_toList] at hp
  -- a primary consumer and an observer differ in kind, so they are not the same object
  cases hs : p.same o
  · rfl
  · have := objects p (by simp [registered, hp]) o (by simp [registered, ho]) hs
    rw [hr.primary p hp, hr.observers o ho] at this
    cases this

theorem count_eq_length_registered : r.count = r.registered.length := by
  cases h : r.primary <;> simp [count, registered, h]

-- Every call of a sequence from no listeners does what the reference says, and a removal of a
-- listener that is not registered is reported. After the sequence the listeners are those of the
-- reference and of the right shape; and when listeners that are the same object agree on being
-- primary consumers, no listener is registered twice and the count is the number registered.
theorem listeners_follow_reference (cs : List Change)
    (objects : ∀ a ∈ Change.listeners cs, ∀ b ∈ Change.listeners cs, a.same b = true →
      a.primary = b.primary) :
    (∀ pre c post, cs = pre ++ c :: post →
      ((ofChanges pre).call c).map Prod.fst = (ofChanges pre).expect c ∧
      ∀ l, c = .remove (some l) → ¬(ofChanges pre).Knows l →
        (ofChanges pre).call c = .ok (ofChanges pre, some (unknownLine l))) ∧
    ofChanges cs = cs.foldl expectApply empty ∧ (ofChanges cs).Valid ∧
    (ofChanges cs).registered.Pairwise (fun a b => a.same b = false) ∧
    (ofChanges cs).count = (ofChanges cs).registered.length := by
  obtain ⟨eq, valid, calls⟩ := foldl_apply cs valid_empty
  -- every registered listener is one that a call named
  have named : ∀ x ∈ (ofChanges cs).registered, x ∈ Change.listeners cs := by
    intro x hx
    rw [ofChanges, eq] at hx
    rcases mem_listeners_of_registered cs hx with h | h
    · simp [registered, empty] at h
    · exact h
  refine ⟨fun pre c post h => ⟨calls pre c post h, fun l hc hk => ?_⟩, eq, valid,
    valid.registered_distinct fun a ha b hb => objects a (named a ha) b (named b hb),
    count_eq_length_registered⟩
  subst hc
  exact call_remove_unknown hk

-- Two primary consumers and an observer added twice, a second primary consumer refused, then
-- removals of it, of no listener and of the first primary consumer.
theorem listeners_follow_reference_sample :
    let p : Listener := ⟨0, .str "p", true⟩
    let q : Listener := ⟨1, .str "q", true⟩
    let o : Listener := ⟨2, .str "o", false⟩
    let cs : List Change := [.add (some p), .add (some o), .add (some o), .add (some q),
      .remove (some q), .remove none, .remove (some p)]
    (∀ a ∈ Change.listeners cs, ∀ b ∈ Change.listeners cs, a.same b = true →
      a.primary = b.primary) ∧
    (∀ pre c post, cs = pre ++ c :: post →
      ((ofChanges pre).call c).map Prod.fst = (ofChanges pre).expect c ∧
      ∀ l, c = .remove (some l) → ¬(ofChanges pre).Knows l →
        (ofChanges pre).call c = .ok (ofChanges pre, some (unknownLine l))) ∧
    ofChanges cs = cs.foldl expectApply empty ∧ (ofChanges cs).Valid ∧
    (ofChanges cs).registered.Pairwise (fun a b => a.same b = false) ∧
    (ofChanges cs).count = (ofChanges cs).registered.length := by
  intro p q o cs
  have objects : ∀ a ∈ Change.listeners cs, ∀ b ∈ Change.listeners cs, a.same b = true →
      a.primary = b.primary := by decide
  exact ⟨objects, listeners_follow_reference cs objects⟩

end Roster

end Invalidation
