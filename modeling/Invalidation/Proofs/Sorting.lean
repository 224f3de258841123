import Invalidation.Sort
import Mathlib

namespace Invalidation.Sort

variable {α ε : Type}

-- Every item of an array satisfies `S`.
def Within (S : α → Prop) (xs : Array α) : Prop := ∀ x ∈ xs, S x

section Within

variable {S : α → Prop} {xs ys : Array α}

@[simp] theorem within_append : Within S (xs ++ ys) ↔ Within S xs ∧ Within S ys := by
  simp only [Within, Array.mem_append]
  exact ⟨fun h => ⟨fun x hx => h x (.inl hx), fun x hx => h x (.inr hx)⟩,
    fun h x hx => hx.elim (h.1 x) (h.2 x)⟩

theorem Within.extract (h : Within S xs) (a b : Nat) : Within S (xs.extract a b) := by
  intro x hx
  simp only [Array.mem_extract_iff_getElem] at hx
  obtain ⟨k, hk, rfl⟩ := hx
  exact h _ (Array.getElem_mem _)

theorem Within.get [Inhabited α] (h : Within S xs) (i : Nat) (hi : i < xs.size) : S xs[i]! := by
  rw [getElem!_pos xs i hi]
  exact h _ (Array.getElem_mem hi)

theorem Within.reverseSlice {xs : Array α} (hxs : Within S xs) (lo hi : Nat) :
    Within S (reverseSlice xs lo hi) := by
  simp only [Sort.reverseSlice, within_append]
  refine ⟨⟨hxs.extract _ _, ?_⟩, hxs.extract _ _⟩
  intro x hx
  exact hxs.extract lo hi x (Array.mem_reverse.1 hx)

end Within

-- The runs on the stack: each has an item, lies within the first `n` items, and ends where the
-- next one starts.
def Stacked (n : Nat) (runs : Array Run) : Prop :=
  (∀ k (hk : k < runs.size), 0 < runs[k].size ∧ runs[k].start + runs[k].size ≤ n) ∧
  ∀ k (hk : k + 1 < runs.size), runs[k].start + runs[k].size = runs[k + 1].start

-- The top run ends at `lo`.
def EndsAt (runs : Array Run) (lo : Nat) : Prop :=
  ∀ k (hk : k + 1 = runs.size), runs[k].start + runs[k].size = lo

section Stack

variable {n lo : Nat} {runs : Array Run}

-- Joining the run at `i`, second or third from the top, with the next one: the joined run stands
-- at `i`, the top run moves down to `i + 1` when there was one above the two, and the runs below
-- stay where they are.
theorem getElem_joinAt {i k : Nat} (hi : i + 2 = runs.size ∨ i + 3 = runs.size)
    (hk : k < (joinAt runs i).size) :
    (joinAt runs i)[k] =
      if k = i then { runs[i]! with size := runs[i]!.size + runs[i + 1]!.size }
      else if k = i + 1 then runs[i + 2]! else runs[k]! := by
  have hk' := hk
  rw [size_joinAt] at hk'
  simp only [Sort.joinAt, Array.getElem_pop]
  split
  · rw [Array.getElem_setIfInBounds (by simp; omega), Array.getElem_setIfInBounds (by omega)]
    by_cases h1 : k = i
    · simp [h1]
    · by_cases h2 : k = i + 1
      · simp [h2]
      · simp [h1, h2, Ne.symm h1, Ne.symm h2, getElem!_pos runs k (by omega)]
  · rw [Array.getElem_setIfInBounds (by omega)]
    by_cases h1 : k = i
    · simp [h1]
    · have h2 : k ≠ i + 1 := by omega
      simp [h1, h2, Ne.symm h1, getElem!_pos runs k (by omega)]

-- Each run of the new stack is the joined run, the former top run or a run below: the joined run
-- has the items of both and ends where the second one did.
theorem Stacked.joinAt (h : Stacked n runs) {i : Nat} (hi : i + 2 = runs.size ∨ i + 3 = runs.size) :
    Stacked n (joinAt runs i) := by
  obtain ⟨hin, hadj⟩ := h
  have hsize := size_joinAt runs i
  constructor
  · intro k hk
    rw [getElem_joinAt hi hk]
    split_ifs <;> grind
  · intro k hk
    rw [getElem_joinAt hi (by omega), getElem_joinAt hi hk]
    split_ifs <;> grind

theorem EndsAt.joinAt (h : Stacked n runs) (he : EndsAt runs lo) {i : Nat}
    (hi : i + 2 = runs.size ∨ i + 3 = runs.size) : EndsAt (joinAt runs i) lo := by
  obtain ⟨hin, hadj⟩ := h
  have hlast := he (runs.size - 1) (by omega)
  have hsize := size_joinAt runs i
  intro k hk
  rw [getElem_joinAt hi (by omega)]
  split_ifs <;> grind

theorem Stacked.push (h : Stacked n runs) (he : EndsAt runs lo) {s p : Nat} (hs : 0 < s)
    (hn : lo + s ≤ n) : Stacked n (runs.push ⟨lo, s, p⟩) := by
  obtain ⟨hin, hadj⟩ := h
  constructor
  · intro k hk
    simp [Array.getElem_push] at hk ⊢
    grind
  · intro k hk
    simp [Array.getElem_push] at hk ⊢
    grind [EndsAt]

theorem Stacked.modify (h : Stacked n runs) (k : Nat) (p : Nat) :
    Stacked n (runs.modify k fun r => { r with power := p }) := by
  obtain ⟨hin, hadj⟩ := h
  constructor
  · intro j hj
    simp [Array.getElem_modify] at hj ⊢
    grind
  · intro j hj
    simp [Array.getElem_modify] at hj ⊢
    grind

theorem EndsAt.modify (h : EndsAt runs lo) (k : Nat) (p : Nat) :
    EndsAt (runs.modify k fun r => { r with power := p }) lo := by
  intro j hj
  simp [Array.getElem_modify] at hj ⊢
  grind [EndsAt]

end Stack

section Answers

variable {lt : α → α → Except ε Bool} {S : α → Prop}
  (hlt : ∀ a b, S a → S b → ∃ c, lt a b = .ok c)
include hlt

variable [Inhabited α]

end Answers

end Invalidation.Sort
