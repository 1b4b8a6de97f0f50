/-
  DoubleTurnouts.Lib.Bytes

  `std::string` as a list of bytes, and the two library calls every parser
  of this development is built on: a literal (`str`) and the position of the
  first occurrence of a pattern (`find`, as `std::string::find`).

  Searching is reasoned about through `after`, the text that follows the
  first occurrence.  A stretch of text that does not contain the pattern's
  first byte can be skipped (`after_skip`), so facts about where a quoted key
  occurs never need arithmetic on positions.
-/
import Mathlib.Data.List.Basic
import Mathlib.Data.List.AList

namespace DoubleTurnouts

/-- The contents of a `std::string`. -/
abbrev Bytes := List UInt8

/-- A C character constant. -/
def ch (c : Char) : UInt8 := c.toUInt8

/-- An ASCII string literal. -/
def str (s : String) : Bytes := s.toList.map ch

/-- A statement about every byte of a text is decided along the text, not over all bytes. -/
instance Bytes.decidableForallMem (p : UInt8 → Prop) [DecidablePred p] (s : Bytes) :
    Decidable (∀ c ∈ s, p c) :=
  List.decidableBAll p s

/-- `std::unordered_map` with the iteration order left open. -/
abbrev Map (κ β : Type) := AList (fun _ : κ => β)

/-- `unordered_map::size`. -/
def Map.size {κ β : Type} (m : Map κ β) : Nat := m.keys.length

/-- A new key makes the map one larger. -/
theorem Map.size_insert_of_lookup_eq_none {κ β : Type} [DecidableEq κ] {m : Map κ β} {k : κ}
    (v : β) (h : m.lookup k = none) : Map.size (m.insert k v) = Map.size m + 1 := by
  have hkeys : k ∉ m.keys := by
    rw [← AList.mem_keys]
    exact AList.lookup_eq_none.mp h
  rw [Map.size, AList.keys_insert, List.erase_of_not_mem hkeys, List.length_cons, Map.size]

/-- Maps with the same keys are equally large. -/
theorem Map.size_eq_of_keys {κ β γ : Type} [DecidableEq κ] {m : Map κ β} {m' : Map κ γ}
    (h : ∀ k, (m.lookup k).isSome = (m'.lookup k).isSome) : Map.size m = Map.size m' := by
  have hmem : ∀ k, k ∈ m.keys ↔ k ∈ m'.keys := by
    intro k
    rw [← AList.mem_keys, ← AList.mem_keys, ← AList.lookup_isSome, ← AList.lookup_isSome, h]
  exact ((List.perm_ext_iff_of_nodup m.nodupKeys m'.nodupKeys).mpr hmem).length_eq

/-- Erasing makes no map larger. -/
theorem Map.size_erase_le {κ β : Type} [DecidableEq κ] (m : Map κ β) (k : κ) :
    Map.size (m.erase k) ≤ Map.size m := by
  rw [Map.size, AList.keys_erase, Map.size]
  exact List.length_erase_le

/-- Erasing an entry makes the map smaller. -/
theorem Map.size_erase_lt {κ β : Type} [DecidableEq κ] {m : Map κ β} {k : κ}
    (h : (m.lookup k).isSome) : Map.size (m.erase k) < Map.size m := by
  have hkey : k ∈ m.keys := by
    rw [← AList.mem_keys, ← AList.lookup_isSome]
    exact h
  rw [Map.size, AList.keys_erase, Map.size, List.length_erase_of_mem hkey]
  exact Nat.sub_lt (List.length_pos_of_mem hkey) Nat.one_pos

/-- A new entry that is erased again leaves no trace. -/
theorem Map.erase_insert_of_lookup_eq_none {κ β : Type} [DecidableEq κ] {m : Map κ β} {k : κ}
    (v : β) (h : m.lookup k = none) : (m.insert k v).erase k = m := by
  have hkey : k ∉ m := AList.lookup_eq_none.mp h
  apply AList.ext
  show List.kerase k (m.insert k v).entries = m.entries
  rw [AList.entries_insert_of_notMem hkey]
  exact List.kerase_cons_eq rfl

/-- Every value of the map has a property. -/
def Map.All {κ β : Type} [DecidableEq κ] (P : β → Prop) (m : Map κ β) : Prop :=
  ∀ k v, m.lookup k = some v → P v

namespace Map.All

variable {κ β : Type} [DecidableEq κ] {P : β → Prop} {m : Map κ β}

theorem empty : Map.All P (∅ : Map κ β) := by
  intro k v h
  cases h

theorem insert (h : Map.All P m) (k : κ) {v : β} (hv : P v) : Map.All P (m.insert k v) := by
  intro k' v' hk'
  rcases eq_or_ne k' k with rfl | hne
  · rw [AList.lookup_insert] at hk'
    cases hk'
    exact hv
  · rw [AList.lookup_insert_ne hne] at hk'
    exact h k' v' hk'

theorem erase (h : Map.All P m) (k : κ) : Map.All P (m.erase k) := by
  intro k' v' hk'
  rcases eq_or_ne k' k with rfl | hne
  · rw [AList.lookup_erase] at hk'
    cases hk'
  · rw [AList.lookup_erase_ne hne] at hk'
    exact h k' v' hk'

end Map.All

namespace Text

variable {α : Type} [DecidableEq α]

/-! ## First occurrence of a pattern -/

/-- Position of the first occurrence of `pat`, or `none` (`npos`). -/
def find (pat : List α) : List α → Option Nat
  | [] => if pat.isPrefixOf [] then some 0 else none
  | c :: s => if pat.isPrefixOf (c :: s) then some 0 else (find pat s).map (· + 1)

/-- The text after the first occurrence of `pat`. -/
def after (pat : List α) : List α → Option (List α)
  | [] => if pat.isPrefixOf [] then some [] else none
  | c :: s => if pat.isPrefixOf (c :: s) then some ((c :: s).drop pat.length) else after pat s

/-- `after` is what `substr` cuts at the end of the occurrence `find` reports. -/
theorem after_eq_find (pat s : List α) :
    after pat s = (find pat s).map fun i => s.drop (i + pat.length) := by
  induction s with
  | nil => simp [after, find]
  | cons c s ih =>
      simp only [after, find]
      split
      · simp
      · rw [ih, Option.map_map]
        congr 1
        funext i
        simp [show i + 1 + pat.length = (i + pat.length) + 1 by omega]

/-- The pattern itself, at the very start of the text. -/
theorem after_self_append (pat s : List α) : after pat (pat ++ s) = some s := by
  cases hps : pat ++ s with
  | nil =>
      obtain ⟨rfl, rfl⟩ := List.append_eq_nil_iff.mp hps
      simp [after]
  | cons c t =>
      have hpre : pat.isPrefixOf (c :: t) = true := by
        rw [← hps, List.isPrefixOf_iff_prefix]
        exact List.prefix_append pat s
      rw [after, if_pos hpre, ← hps, List.drop_left]

/-- A byte at which the pattern does not start is skipped. -/
theorem after_cons_of_not_starts {pat : List α} {c : α} {s : List α}
    (h : ¬ pat <+: c :: s) : after pat (c :: s) = after pat s := by
  rw [after, if_neg (by simpa using h)]

/-- A stretch without the pattern's first byte is skipped as a whole. -/
theorem after_skip {q : α} {pat : List α} (seg s : List α) (h : q ∉ seg) :
    after (q :: pat) (seg ++ s) = after (q :: pat) s := by
  induction seg with
  | nil => rfl
  | cons c seg ih =>
      simp only [List.mem_cons, not_or] at h
      -- an occurrence here would begin with q
      have hne : ¬ (q :: pat) <+: c :: (seg ++ s) := by
        rw [List.cons_prefix_cons]
        exact fun hp => h.1 hp.1
      rw [List.cons_append, after_cons_of_not_starts hne, ih h.2]

/-- A text without the pattern's first byte has no occurrence. -/
theorem after_eq_none_of_not_mem {q : α} {pat : List α} (s : List α) (h : q ∉ s) :
    after (q :: pat) s = none := by
  have hskip : after (q :: pat) (s ++ []) = after (q :: pat) [] := after_skip s [] h
  simpa [after] using hskip

/-- No occurrence of the pattern starts in the text, whatever follows it. -/
def clear (pat : List α) : List α → Bool
  | [] => true
  | c :: s => !pat.isPrefixOf (c :: s) && !(c :: s).isPrefixOf pat && clear pat s

theorem after_clear {pat s : List α} (h : clear pat s = true) (t : List α) :
    after pat (s ++ t) = after pat t := by
  induction s with
  | nil => rfl
  | cons c s ih =>
      simp only [clear, Bool.and_eq_true, Bool.not_eq_true', Bool.eq_false_iff, ne_eq,
        List.isPrefixOf_iff_prefix] at h
      have hne : ¬ pat <+: c :: (s ++ t) := by
        intro hp
        -- an occurrence lies in the text, or runs over its end
        rcases List.prefix_or_prefix_of_prefix hp (List.prefix_append (c :: s) t) with h1 | h1
        · exact h.1.1 h1
        · exact h.1.2 h1
      rw [List.cons_append, after_cons_of_not_starts hne, ih h.2]

/-- An occurrence is still the first one when the text goes on. -/
theorem after_append {pat s r : List α} (h : after pat s = some r)
    (x : List α) : after pat (s ++ x) = some (r ++ x) := by
  have hboth : pat.length ≤ s.length ∧ after pat (s ++ x) = some (r ++ x) := by
    induction s with
    | nil =>
        rw [after] at h
        split at h
        · rename_i hpat
          obtain rfl : pat = [] := by simpa using hpat
          cases h
          cases x <;> simp [after]
        · cases h
    | cons c s ih =>
        rw [after] at h
        split at h
        · rename_i hpre
          have hpre : pat <+: c :: s := List.isPrefixOf_iff_prefix.mp hpre
          cases h
          refine ⟨hpre.length_le, ?_⟩
          have hpre' : pat <+: c :: (s ++ x) := hpre.trans (List.prefix_append (c :: s) x)
          rw [List.cons_append, after, if_pos (List.isPrefixOf_iff_prefix.mpr hpre'),
            ← List.cons_append, List.drop_append_of_le_length hpre.length_le]
        · rename_i hpre
          obtain ⟨hlen, hafter⟩ := ih h
          refine ⟨Nat.le_trans hlen (by simp), ?_⟩
          -- an occurrence here would lie in the text already
          have hnot : ¬ pat <+: c :: (s ++ x) := fun hp =>
            hpre (List.isPrefixOf_iff_prefix.mpr
              (List.prefix_of_prefix_length_le hp (List.prefix_append (c :: s) x)
                (Nat.le_trans hlen (by simp))))
          rw [List.cons_append, after_cons_of_not_starts hnot, hafter]
  exact hboth.2

/-- The position `find` reports is the least one at which the pattern starts. -/
theorem find_eq_some_iff {pat s : List α} {i : Nat} :
    find pat s = some i ↔
      i ≤ s.length ∧ pat <+: s.drop i ∧ ∀ j < i, ¬ pat <+: s.drop j := by
  induction s generalizing i with
  | nil =>
      by_cases hp : pat.isPrefixOf ([] : List α)
      · have hp' : pat = [] := by simpa using hp
        subst hp'
        simp only [find, List.isPrefixOf_nil_left, if_true, Option.some.injEq, List.length_nil,
          Nat.le_zero, List.drop_nil, List.nil_prefix, not_true_eq_false, imp_false, true_and]
        constructor
        · rintro rfl
          exact ⟨rfl, by simp⟩
        · rintro ⟨rfl, -⟩
          rfl
      · have hp' : pat ≠ [] := by simpa using hp
        simp [find, hp']
  | cons c s ih =>
      by_cases hp : pat <+: c :: s
      · rw [find, if_pos (by simpa using hp)]
        simp only [Option.some.injEq]
        constructor
        · rintro rfl
          exact ⟨Nat.zero_le _, hp, by simp⟩
        · rintro ⟨-, -, hmin⟩
          by_contra hi
          exact hmin 0 (by omega) hp
      · rw [find, if_neg (by simpa using hp)]
        cases i with
        -- position 0 is excluded, so everything is one place further on than in the tail
        | zero => simp [hp]
        | succ i =>
            simp only [Option.map_eq_some_iff, Nat.add_right_cancel_iff, exists_eq_right, ih,
              List.length_cons, Nat.add_le_add_iff_right, List.drop_succ_cons]
            constructor
            · rintro ⟨hle, hpre, hmin⟩
              refine ⟨hle, hpre, ?_⟩
              intro j hj
              cases j with
              | zero => exact hp
              | succ j => exact hmin j (by omega)
            · rintro ⟨hle, hpre, hmin⟩
              exact ⟨hle, hpre, fun j hj => hmin (j + 1) (by omega)⟩

theorem isSome_find_iff {pat s : List α} :
    (find pat s).isSome ↔ pat <:+: s := by
  induction s with
  | nil => by_cases hpat : pat = [] <;> simp [find, hpat]
  | cons c s ih =>
      rw [find, List.infix_cons_iff, ← ih]
      by_cases hpre : pat <+: c :: s <;> simp [hpre]

/-- The first occurrence of a byte, when the text is split there. -/
theorem find_singleton_append {c : α} (pre post : List α) (h : c ∉ pre) :
    find [c] (pre ++ c :: post) = some pre.length := by
  induction pre with
  | nil => simp [find]
  | cons d pre ih =>
      simp only [List.mem_cons, not_or] at h
      rw [List.cons_append, find, if_neg (by simpa using h.1), ih h.2]
      rfl

omit [DecidableEq α] in
/-- A text is split in one way only at the last occurrence of a byte. -/
theorem append_cons_inj_of_not_mem_right {c : α} {a b a' b' : List α}
    (hb : c ∉ b) (hb' : c ∉ b') (h : a ++ c :: b = a' ++ c :: b') : a = a' ∧ b = b' := by
  -- the longer of the two left parts would put a `c` into the other right part
  have aux : ∀ {b d t : List α}, c ∉ b → c :: b = t ++ c :: d → t = [] := by
    intro b d t hb ht
    cases t with
    | nil => rfl
    | cons e t =>
        simp only [List.cons_append, List.cons.injEq] at ht
        exact absurd (by rw [ht.2]; simp) hb
  rcases List.append_eq_append_iff.mp h with ⟨t, rfl, ht⟩ | ⟨t, rfl, ht⟩
  · obtain rfl := aux hb ht
    simpa using ht
  · obtain rfl := aux hb' ht
    simpa using ht.symm

end Text

end DoubleTurnouts
