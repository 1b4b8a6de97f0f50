/-
  DoubleTurnouts.Lib.Lease

  Slots leased in pairs.  A `Book` records which slots are marked as taken
  and which key holds which pair; it is consistent when the marks are exactly
  the slots held, no slot has two holders and no pair is degenerate.  Both
  operations keep a consistent book consistent, over any types of keys and
  slots.
-/
import Mathlib.Data.Set.Basic
import Mathlib.Tactic

namespace DoubleTurnouts
namespace Lease

variable {κ ι : Type*}

@[ext]
structure Book (κ ι : Type*) where
  taken : Set ι
  held : κ → Option (ι × ι)

namespace Book

/-- `k` holds slot `i`, as the first or the second of its pair. -/
def Holds (b : Book κ ι) (k : κ) (i : ι) : Prop :=
  ∃ p, b.held k = some p ∧ (i = p.1 ∨ i = p.2)

structure Consistent (b : Book κ ι) : Prop where
  taken_iff : ∀ i, i ∈ b.taken ↔ ∃ k, b.Holds k i
  holder_unique : ∀ {k k' i}, b.Holds k i → b.Holds k' i → k = k'
  pair_ne : ∀ {k i j}, b.held k = some (i, j) → i ≠ j

/-- In a consistent book a slot is taken exactly when it has one holder. -/
theorem Consistent.taken_iff_existsUnique {b : Book κ ι} (h : b.Consistent) (i : ι) :
    i ∈ b.taken ↔ ∃! k, b.Holds k i := by
  rw [h.taken_iff]
  constructor
  · rintro ⟨k, hk⟩
    exact ⟨k, hk, fun k' hk' => h.holder_unique hk' hk⟩
  · rintro ⟨k, hk, -⟩
    exact ⟨k, hk⟩

section Operations

variable [DecidableEq κ]

/-- `k` takes the pair `(i, j)`. -/
def take (b : Book κ ι) (k : κ) (i j : ι) : Book κ ι where
  taken := insert i (insert j b.taken)
  held := Function.update b.held k (some (i, j))

/-- `k` gives its pair back. -/
def give (b : Book κ ι) (k : κ) : Book κ ι where
  taken := {i | i ∈ b.taken ∧ ¬ b.Holds k i}
  held := Function.update b.held k none

theorem mem_taken_take {b : Book κ ι} {k : κ} {i j s : ι} :
    s ∈ (b.take k i j).taken ↔ s = i ∨ s = j ∨ s ∈ b.taken := Iff.rfl

theorem mem_taken_give {b : Book κ ι} {k : κ} {s : ι} :
    s ∈ (b.give k).taken ↔ s ∈ b.taken ∧ ¬ b.Holds k s := Iff.rfl

theorem holds_take {b : Book κ ι} {k k' : κ} {i j s : ι} :
    (b.take k i j).Holds k' s ↔ (k' = k ∧ (s = i ∨ s = j)) ∨ (k' ≠ k ∧ b.Holds k' s) := by
  by_cases hk : k' = k
  · subst hk
    simp [Holds, take]
  · simp [Holds, take, hk]

theorem holds_give {b : Book κ ι} {k k' : κ} {s : ι} :
    (b.give k).Holds k' s ↔ k' ≠ k ∧ b.Holds k' s := by
  by_cases hk : k' = k
  · subst hk
    simp [Holds, give]
  · simp [Holds, give, hk]

/-- Taking two different free slots keeps a book consistent. -/
theorem Consistent.take {b : Book κ ι} (h : b.Consistent) {k : κ} {i j : ι}
    (hk : b.held k = none) (hi : i ∉ b.taken) (hj : j ∉ b.taken) (hij : i ≠ j) :
    (b.take k i j).Consistent where
  taken_iff s := by
    have hfree : ∀ s, ¬ b.Holds k s := by
      rintro s ⟨p, hp, -⟩
      simp [hk] at hp
    simp only [holds_take, mem_taken_take, h.taken_iff]
    constructor
    · rintro (rfl | rfl | ⟨k', hk'⟩)
      · exact ⟨k, Or.inl ⟨rfl, Or.inl rfl⟩⟩
      · exact ⟨k, Or.inl ⟨rfl, Or.inr rfl⟩⟩
      · refine ⟨k', Or.inr ⟨?_, hk'⟩⟩
        rintro rfl
        exact hfree s hk'
    · rintro ⟨k', ⟨-, hs⟩ | ⟨-, hk'⟩⟩
      · exact hs.imp_right Or.inl
      · exact Or.inr (Or.inr ⟨k', hk'⟩)
  holder_unique {k₁ k₂ s} h₁ h₂ := by
    -- a slot somebody holds is taken, the two new ones are not
    have hnew : ∀ {k'}, b.Holds k' s → s ≠ i ∧ s ≠ j := by
      intro k' hk'
      have hs : s ∈ b.taken := (h.taken_iff s).mpr ⟨k', hk'⟩
      exact ⟨fun he => hi (he ▸ hs), fun he => hj (he ▸ hs)⟩
    rw [holds_take] at h₁ h₂
    rcases h₁ with ⟨e₁, s₁⟩ | ⟨-, s₁⟩ <;> rcases h₂ with ⟨e₂, s₂⟩ | ⟨-, s₂⟩
    · rw [e₁, e₂]
    · exact absurd s₁ (not_or.mpr (hnew s₂))
    · exact absurd s₂ (not_or.mpr (hnew s₁))
    · exact h.holder_unique s₁ s₂
  pair_ne {k' i' j'} hp := by
    by_cases hk' : k' = k
    · subst hk'
      simp only [Book.take, Function.update_self, Option.some.injEq, Prod.mk.injEq] at hp
      obtain ⟨rfl, rfl⟩ := hp
      exact hij
    · simp only [Book.take, Function.update_of_ne hk'] at hp
      exact h.pair_ne hp

/-- Giving a pair back keeps a book consistent. -/
theorem Consistent.give {b : Book κ ι} (h : b.Consistent) (k : κ) : (b.give k).Consistent where
  taken_iff s := by
    simp only [holds_give, mem_taken_give, h.taken_iff]
    constructor
    · rintro ⟨⟨k', hk'⟩, hs⟩
      refine ⟨k', ?_, hk'⟩
      rintro rfl
      exact hs hk'
    · rintro ⟨k', hne, hk'⟩
      -- a slot has one holder, so nobody else's is given back
      exact ⟨⟨k', hk'⟩, fun hs => hne (h.holder_unique hk' hs)⟩
  holder_unique h₁ h₂ := h.holder_unique (holds_give.mp h₁).2 (holds_give.mp h₂).2
  pair_ne {k' i j} hp := by
    by_cases hk' : k' = k
    · subst hk'
      simp [Book.give] at hp
    · simp only [Book.give, Function.update_of_ne hk'] at hp
      exact h.pair_ne hp

end Operations

end Book
end Lease
end DoubleTurnouts
