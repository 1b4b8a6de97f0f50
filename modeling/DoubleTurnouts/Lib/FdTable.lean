/-
  DoubleTurnouts.Lib.FdTable

  The descriptor table of a process with a limit: a new descriptor is the
  lowest free number below the limit, and a full table gives none.
-/
import Mathlib.Data.List.Basic
import Mathlib.Logic.Function.Basic

namespace DoubleTurnouts

/-- Who has which descriptor. -/
structure FdTable (α : Type) where
  limit : Nat
  owner : Nat → Option α

namespace FdTable

variable {α : Type} {t : FdTable α} {fd : Nat}

/-- The next descriptor that is given out. -/
def lowest (t : FdTable α) : Option Nat :=
  (List.range t.limit).find? fun fd => (t.owner fd).isNone

def give (t : FdTable α) (fd : Nat) (a : α) : FdTable α :=
  { t with owner := Function.update t.owner fd (some a) }

def close (t : FdTable α) (fd : Nat) : FdTable α :=
  { t with owner := Function.update t.owner fd none }

/-- Only numbers below the limit are given out. -/
def Bounded (t : FdTable α) : Prop := ∀ fd, t.owner fd ≠ none → fd < t.limit

theorem lowest_some (h : t.lowest = some fd) : t.owner fd = none ∧ fd < t.limit := by
  have hfree := List.find?_some h
  have hmem := List.mem_of_find?_eq_some h
  exact ⟨Option.isNone_iff_eq_none.mp hfree, List.mem_range.mp hmem⟩

theorem lowest_ne_none (hfree : t.owner fd = none) (hlt : fd < t.limit) : t.lowest ≠ none := by
  intro hnone
  have hall := List.find?_eq_none.mp hnone fd (List.mem_range.mpr hlt)
  simp [hfree] at hall

@[simp] theorem give_self (a : α) : (t.give fd a).owner fd = some a := by
  simp [give]

theorem give_ne {g : Nat} (a : α) (h : g ≠ fd) : (t.give fd a).owner g = t.owner g := by
  simp [give, h]

@[simp] theorem close_self : (t.close fd).owner fd = none := by
  simp [close]

theorem close_ne {g : Nat} (h : g ≠ fd) : (t.close fd).owner g = t.owner g := by
  simp [close, h]

theorem Bounded.give (h : t.Bounded) (a : α) (hlt : fd < t.limit) : (t.give fd a).Bounded := by
  intro g hg
  by_cases hgf : g = fd
  · exact hgf ▸ hlt
  · rw [give_ne a hgf] at hg
    exact h g hg

theorem Bounded.close (h : t.Bounded) (fd : Nat) : (t.close fd).Bounded := by
  intro g hg
  by_cases hgf : g = fd
  · rw [hgf, close_self] at hg
    exact absurd rfl hg
  · rw [close_ne hgf] at hg
    exact h g hg

/-- A descriptor that is closed can be given out again. -/
theorem lowest_close (hlt : fd < t.limit) : (t.close fd).lowest ≠ none :=
  lowest_ne_none close_self hlt

theorem lowest_close_ne_none (h : t.lowest ≠ none) (fd : Nat) : (t.close fd).lowest ≠ none := by
  obtain ⟨g, hg⟩ := Option.ne_none_iff_exists'.mp h
  obtain ⟨hfree, hlt⟩ := lowest_some hg
  have hfree' : (t.close fd).owner g = none := by
    by_cases hgf : g = fd
    · rw [hgf, close_self]
    · rw [close_ne hgf, hfree]
  exact lowest_ne_none hfree' hlt

end FdTable
end DoubleTurnouts
