/-
  DoubleTurnouts.Lib.Slots

  A table of slots that is to hold one entry for each key of a registry.

  `OnePerKey` says what such a table is for, without a word about where an
  entry is.  `Fits` says where it is: the entry of a live key is in the slot
  the key is assigned, and nothing else is in the table.  Writing or clearing
  a slot keeps `Fits` when no other live key has that slot (`Fits.set`,
  `Fits.clear`, `Fits.rewrite`), and breaks `OnePerKey` otherwise
  (`Fits.not_onePerKey_set`, `Fits.not_onePerKey_clear`).
-/
import Mathlib.Logic.Function.Basic

namespace DoubleTurnouts
namespace Slots

variable {ι κ β : Type}

/-- The table has exactly one entry for each live key, with the value of that key, and no
    others. -/
def OnePerKey (table : ι → Option (κ × β)) (live : κ → Option β) : Prop :=
  (∀ i k v, table i = some (k, v) → live k = some v) ∧
    ∀ k v, live k = some v → ∃! i, table i = some (k, v)

/-- The entry of a live key is in its slot. -/
structure Fits (table : ι → Option (κ × β)) (live : κ → Option β) (slot : κ → Option ι) :
    Prop where
  entry : ∀ i k v, table i = some (k, v) ↔ live k = some v ∧ slot k = some i
  assigned : ∀ k v, live k = some v → ∃ i, slot k = some i

variable {table : ι → Option (κ × β)} {live : κ → Option β} {slot slot' : κ → Option ι}

theorem Fits.onePerKey (h : Fits table live slot) : OnePerKey table live := by
  refine ⟨fun i k v hi => ((h.entry i k v).mp hi).1, ?_⟩
  intro k v hk
  obtain ⟨i, hi⟩ := h.assigned k v hk
  refine ⟨i, (h.entry i k v).mpr ⟨hk, hi⟩, ?_⟩
  intro i' hi'
  have hslot := ((h.entry i' k v).mp hi').2
  rw [hi] at hslot
  exact (Option.some.inj hslot).symm

/-- A slot may be written for a key when the live keys that have it are that key, and that key
    has no other. -/
def Free (live : κ → Option β) (slot : κ → Option ι) (k : κ) (j : ι) : Prop :=
  ∀ k' v', live k' = some v' → (slot k' = some j ↔ k' = k)

/-- A slot may be cleared for a key when no other live key has it. -/
def Own (live : κ → Option β) (slot : κ → Option ι) (k : κ) (j : ι) : Prop :=
  ∀ k' v', live k' = some v' → slot k' = some j → k' = k

/-- The slot of a key that no other live key has holds the value of that key. -/
theorem Fits.lookup (h : Fits table live slot) {k : κ} {j : ι} (hk : slot k = some j)
    (halone : ∀ k', k' ≠ k → slot k' = some j → live k' = none) :
    table j = (live k).map fun v => (k, v) := by
  cases htable : table j with
  | none =>
      cases hlive : live k with
      | none => rfl
      | some v =>
          rw [(h.entry j k v).mpr ⟨hlive, hk⟩] at htable
          cases htable
  | some entry =>
      -- whatever stands in the slot belongs to a live key that has it
      obtain ⟨hlive, hslot⟩ := (h.entry j entry.1 entry.2).mp htable
      have hkey : entry.1 = k := by
        by_contra hne
        rw [halone _ hne hslot] at hlive
        cases hlive
      rw [← hkey, hlive]
      rfl

variable [DecidableEq ι]

/-- A key that stays live has no entry left when its slot is given to another key or
    cleared. -/
theorem Fits.lost (h : Fits table live slot) {k : κ} {j : ι} {v : β}
    (hslot : slot k = some j) {entry : Option (κ × β)} (hentry : ∀ v', entry ≠ some (k, v'))
    (i : ι) :
    Function.update table j entry i ≠ some (k, v) := by
  intro hi
  by_cases hij : i = j
  · subst hij
    rw [Function.update_self] at hi
    exact hentry v hi
  · rw [Function.update_of_ne hij] at hi
    have hi' := ((h.entry i k v).mp hi).2
    rw [hslot] at hi'
    exact hij (Option.some.inj hi').symm

variable [DecidableEq κ]

/-- Writing a free slot. -/
theorem Fits.set (h : Fits table live slot) {k : κ} {j : ι} (v : β)
    (hfree : Free live slot k j) (hk : slot' k = some j)
    (hother : ∀ k', k' ≠ k → slot' k' = slot k') :
    Fits (Function.update table j (some (k, v))) (Function.update live k (some v)) slot' := by
  constructor
  · intro i k' v'
    by_cases hi : i = j
    · -- the slot that is written has the new entry, and no other live key
      subst hi
      rw [Function.update_self]
      by_cases hkey : k' = k
      · subst hkey
        simp [hk]
      · rw [Function.update_of_ne hkey, hother k' hkey]
        constructor
        · intro heq
          cases heq
          exact absurd rfl hkey
        · rintro ⟨hlive, hslot⟩
          exact absurd ((hfree k' v' hlive).mp hslot) hkey
    · rw [Function.update_of_ne hi, h.entry]
      by_cases hkey : k' = k
      · -- the key has no second entry
        subst hkey
        constructor
        · rintro ⟨hlive, hslot⟩
          have hj := (hfree k' v' hlive).mpr rfl
          rw [hslot] at hj
          exact absurd (Option.some.inj hj) hi
        · rintro ⟨-, hslot⟩
          rw [hk] at hslot
          exact absurd (Option.some.inj hslot).symm hi
      · rw [Function.update_of_ne hkey, hother k' hkey]
  · intro k' v' hlive
    by_cases hkey : k' = k
    · exact ⟨j, hkey ▸ hk⟩
    · rw [Function.update_of_ne hkey] at hlive
      rw [hother k' hkey]
      exact h.assigned k' v' hlive

/-- Clearing the slot of a key. -/
theorem Fits.clear (h : Fits table live slot) {k : κ} {j : ι} (hown : Own live slot k j)
    (hk : ∀ v, live k = some v → slot k = some j) (hother : ∀ k', k' ≠ k → slot' k' = slot k') :
    Fits (Function.update table j none) (Function.update live k none) slot' := by
  constructor
  · intro i k' v'
    by_cases hkey : k' = k
    · -- the key is gone, and its only slot is the one that is cleared
      subst hkey
      rw [Function.update_self]
      constructor
      · intro hi
        by_cases hij : i = j
        · subst hij
          rw [Function.update_self] at hi
          cases hi
        · rw [Function.update_of_ne hij] at hi
          obtain ⟨hlive, hslot⟩ := (h.entry i k' v').mp hi
          rw [hk v' hlive] at hslot
          exact absurd (Option.some.inj hslot).symm hij
      · rintro ⟨hlive, -⟩
        cases hlive
    · rw [Function.update_of_ne hkey, hother k' hkey]
      by_cases hij : i = j
      · subst hij
        rw [Function.update_self]
        constructor
        · intro hi
          cases hi
        · rintro ⟨hlive, hslot⟩
          exact absurd (hown k' v' hlive hslot) hkey
      · rw [Function.update_of_ne hij, h.entry]
  · intro k' v' hlive
    by_cases hkey : k' = k
    · rw [hkey, Function.update_self] at hlive
      cases hlive
    · rw [Function.update_of_ne hkey] at hlive
      rw [hother k' hkey]
      exact h.assigned k' v' hlive

/-- A key whose slot no other live key has may be given another value, or none. -/
theorem Fits.rewrite (h : Fits table live slot) {k : κ} {j : ι} (hk : slot k = some j)
    (halone : ∀ k', k' ≠ k → slot k' = some j → live k' = none) (v : Option β) :
    Fits (Function.update table j (v.map fun v => (k, v))) (Function.update live k v) slot := by
  cases v with
  | some v =>
      refine h.set v ?_ hk fun _ _ => rfl
      intro k' v' hlive
      constructor
      · intro hslot
        by_contra hne
        rw [halone k' hne hslot] at hlive
        cases hlive
      · rintro rfl
        exact hk
  | none =>
      refine h.clear ?_ (fun _ _ => hk) fun _ _ => rfl
      intro k' v' hlive hslot
      by_contra hne
      rw [halone k' hne hslot] at hlive
      cases hlive

/-- Writing a slot that is not free leaves a live key without its entry, or a key with two. -/
theorem Fits.not_onePerKey_set (h : Fits table live slot) {k : κ} {j : ι} (v : β)
    (hfree : ¬ Free live slot k j) :
    ¬ OnePerKey (Function.update table j (some (k, v))) (Function.update live k (some v)) := by
  rintro ⟨hvalue, hone⟩
  simp only [Free, not_forall] at hfree
  obtain ⟨k', v', hlive, hclash⟩ := hfree
  by_cases hkey : k' = k
  · -- the key has an entry in another slot already
    subst hkey
    obtain ⟨i, hi⟩ := h.assigned k' v' hlive
    have hij : i ≠ j := fun hij => hclash (by simp [hi, hij])
    have hold : Function.update table j (some (k', v)) i = some (k', v') := by
      rw [Function.update_of_ne hij]
      exact (h.entry i k' v').mpr ⟨hlive, hi⟩
    have hsame := hvalue i k' v' hold
    rw [Function.update_self] at hsame
    cases hsame
    exact hij ((hone k' v (Function.update_self ..)).unique hold (Function.update_self ..))
  · have hslot : slot k' = some j := by
      by_contra hslot
      exact hclash (by simp [hslot, hkey])
    obtain ⟨i, hi, -⟩ := hone k' v' (by rwa [Function.update_of_ne hkey])
    exact h.lost hslot (by simp [Ne.symm hkey]) i hi

/-- Clearing another key's slot leaves that key without its entry. -/
theorem Fits.not_onePerKey_clear (h : Fits table live slot) {k : κ} {j : ι}
    (hown : ¬ Own live slot k j) :
    ¬ OnePerKey (Function.update table j none) (Function.update live k none) := by
  rintro ⟨-, hone⟩
  simp only [Own, not_forall] at hown
  obtain ⟨k', v', hlive, hslot, hkey⟩ := hown
  obtain ⟨i, hi, -⟩ := hone k' v' (by rwa [Function.update_of_ne hkey])
  exact h.lost hslot (by simp) i hi

end Slots
end DoubleTurnouts
