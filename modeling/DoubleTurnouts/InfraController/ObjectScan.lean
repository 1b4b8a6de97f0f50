/-
  DoubleTurnouts.InfraController.ObjectScan

  State 10 of `sample_json_str_get`: an object is copied up to the brace that
  closes it, with the braces inside its strings counted like any other.  What
  the scan does with a text is decided by its balance of braces: as long as
  that stays positive the text is copied, the first brace that takes it to
  zero ends the object, and an object that is never closed is dropped.
-/
import Mathlib.Tactic
import DoubleTurnouts.InfraController.StackFlowUtil

namespace DoubleTurnouts

open Text Decimal

/-! ## Counting braces -/

/-- Opening less closing braces. -/
def balance (s : Bytes) : Int := s.count (ch '{') - s.count (ch '}')

@[simp] theorem balance_nil : balance [] = 0 := rfl

theorem balance_append (s t : Bytes) : balance (s ++ t) = balance s + balance t := by
  simp only [balance, List.count_append]
  omega

theorem balance_of_no_brace {s : Bytes} (h : ch '{' ∉ s ∧ ch '}' ∉ s) : balance s = 0 := by
  simp [balance, List.count_eq_zero_of_not_mem h.1, List.count_eq_zero_of_not_mem h.2]

/-- One byte more changes the balance by at most one. -/
theorem balance_singleton (c : UInt8) :
    balance [c] = if c = ch '{' then 1 else if c = ch '}' then -1 else 0 := by
  have hne : ch '{' ≠ ch '}' := by decide
  by_cases hopen : c = ch '{'
  · simp [balance, hopen, hne]
  · by_cases hclose : c = ch '}'
    · simp [balance, hclose, hne.symm]
    · simp [balance, hopen, hclose]

/-- Counting from `f` the balance stays positive all along the text. -/
def StaysOpen (f : Int) (s : Bytes) : Prop := ∀ p, p <+: s → 0 < f + balance p

theorem staysOpen_cons {f : Int} {c : UInt8} {s : Bytes} (hf : 0 < f) :
    StaysOpen f (c :: s) ↔ 0 < f + balance [c] ∧ StaysOpen (f + balance [c]) s := by
  have hcons : ∀ p, balance (c :: p) = balance [c] + balance p := fun p => balance_append [c] p
  constructor
  · intro h
    refine ⟨h [c] (by simp [List.cons_prefix_cons]), ?_⟩
    intro p hp
    have := h (c :: p) (List.cons_prefix_cons.mpr ⟨rfl, hp⟩)
    rw [hcons] at this
    omega
  · rintro ⟨-, h⟩ p hp
    cases p with
    | nil => simpa using hf
    | cons d p =>
        obtain ⟨rfl, hp'⟩ := List.cons_prefix_cons.mp hp
        have := h p hp'
        rw [hcons]
        omega

theorem staysOpen_nil {f : Int} (hf : 0 < f) : StaysOpen f [] := by
  intro p hp
  obtain rfl := List.prefix_nil.mp hp
  simpa using hf

theorem staysOpen_append {f : Int} {s t : Bytes} (hf : 0 < f) :
    StaysOpen f (s ++ t) ↔ StaysOpen f s ∧ StaysOpen (f + balance s) t := by
  induction s generalizing f with
  | nil => simp [staysOpen_nil hf]
  | cons c s ih =>
      rw [List.cons_append, staysOpen_cons hf, staysOpen_cons hf, and_assoc]
      apply and_congr_right
      intro hpos
      rw [ih hpos, show balance (c :: s) = balance [c] + balance s from balance_append [c] s,
        add_assoc]

/-- A text without braces. -/
theorem staysOpen_of_no_brace {f : Int} {s : Bytes} (hf : 0 < f)
    (h : ch '{' ∉ s ∧ ch '}' ∉ s) : StaysOpen f s := by
  intro p hp
  have hp' : ch '{' ∉ p ∧ ch '}' ∉ p :=
    ⟨fun hmem => h.1 (hp.subset hmem), fun hmem => h.2 (hp.subset hmem)⟩
  rw [balance_of_no_brace hp']
  omega

/-- Otherwise there is a first closing brace that closes everything. -/
theorem exists_close {f : Int} {s : Bytes} (hf : 0 < f) (h : ¬ StaysOpen f s) :
    ∃ p t, s = p ++ ch '}' :: t ∧ StaysOpen f p ∧ f + balance p = 1 := by
  induction s generalizing f with
  | nil => exact absurd (staysOpen_nil hf) h
  | cons c s ih =>
      rw [staysOpen_cons hf] at h
      -- the first byte leaves the object open, or closes it
      by_cases hpos : 0 < f + balance [c]
      · obtain ⟨p, t, rfl, hopen, hbal⟩ := ih hpos fun hs => h ⟨hpos, hs⟩
        refine ⟨c :: p, t, rfl, (staysOpen_cons hf).mpr ⟨hpos, hopen⟩, ?_⟩
        rw [show balance (c :: p) = balance [c] + balance p from balance_append [c] p]
        omega
      · -- only a closing brace takes the count to zero
        rw [balance_singleton] at hpos
        split_ifs at hpos with hc1 hc2
        · omega
        · refine ⟨[], s, by rw [hc2]; rfl, staysOpen_nil hf, ?_⟩
          simp only [balance_nil]
          omega
        · omega

/-! ## Copying an object -/

namespace Scan

/-- State 10 in the middle of an object, `f` braces deep. -/
def inObject (f : Int) (last_c : UInt8) (key_val : Bytes) : Scan where
  status := .s10
  last_c := last_c
  obj_flage := f
  key_val := key_val

theorem step_inObject (f : Int) (last_c c : UInt8) (key_val : Bytes) :
    (inObject f last_c key_val).step c =
      { inObject (f + balance [c]) c (key_val ++ [c]) with
        status := if f + balance [c] = 0 then .sEnd else .s10 } := by
  have hcount : (if c = ch '}' then (if c = ch '{' then f + 1 else f) - 1
      else if c = ch '{' then f + 1 else f) = f + balance [c] := by
    have hne : ch '{' ≠ ch '}' := by decide
    rw [balance_singleton]
    by_cases hopen : c = ch '{'
    · simp [hopen, hne]
    · by_cases hclose : c = ch '}' <;> simp [hopen, hclose, hne.symm]
      omega
  simp [step, step10, inObject, hcount]

/-- Text along which the object stays open is copied. -/
theorem run_staysOpen {f : Int} (hf : 0 < f) {s : Bytes} (h : StaysOpen f s) (last_c : UInt8)
    (key_val : Bytes) : ∃ last, (inObject f last_c key_val).run s =
      inObject (f + balance s) last (key_val ++ s) := by
  induction s generalizing f last_c key_val with
  | nil => exact ⟨last_c, by simp⟩
  | cons c s ih =>
      obtain ⟨hpos, hs⟩ := (staysOpen_cons hf).mp h
      have hstep : (inObject f last_c key_val).step c =
          inObject (f + balance [c]) c (key_val ++ [c]) := by
        -- as long as the count is positive the automaton stays in state 10
        rw [step_inObject, if_neg (by omega)]
        rfl
      obtain ⟨last, hrun⟩ := ih hpos hs c (key_val ++ [c])
      refine ⟨last, ?_⟩
      rw [run_cons, hstep, hrun,
        show balance (c :: s) = balance [c] + balance s from balance_append [c] s]
      simp [add_assoc]

/-- The brace that closes everything ends the object. -/
theorem result_close {f : Int} (hf : 0 < f) {s : Bytes} (h : StaysOpen f s)
    (hbal : f + balance s = 1) (last_c : UInt8) (key_val rest : Bytes) :
    ((inObject f last_c key_val).run (s ++ ch '}' :: rest)).result =
      key_val ++ s ++ [ch '}'] := by
  obtain ⟨last, hrun⟩ := run_staysOpen hf h last_c key_val
  have hclose : (1 : Int) + balance [ch '}'] = 0 := by decide
  rw [run_append, hrun, hbal, run_cons, step_inObject, hclose, result_run_of_sEnd rfl]
  simp [result, inObject]

/-- An object that is never closed is dropped. -/
theorem result_open {f : Int} (hf : 0 < f) {s : Bytes} (h : StaysOpen f s) (last_c : UInt8)
    (key_val : Bytes) : ((inObject f last_c key_val).run s).result = [] := by
  obtain ⟨last, hrun⟩ := run_staysOpen hf h last_c key_val
  -- the flag is still the depth, and the reader drops what it has
  have hpos := h s (List.prefix_refl s)
  rw [hrun, result, if_pos]
  simp only [inObject]
  omega

end Scan

end DoubleTurnouts
