/-
  DoubleTurnouts.Lib.Utf8

  Well-formed UTF-8 as an automaton on bytes: what the next byte may be, and
  how many continuation bytes are still missing.  Overlong forms, surrogates
  and code points above U+10FFFF are excluded by the range of the second
  byte.  `decode` is the automaton with the payload bits collected: it accepts
  the well-formed texts and gives their code points.
-/
import Mathlib.Tactic
import DoubleTurnouts.Lib.Bytes

namespace DoubleTurnouts
namespace Utf8

/-- `more lo hi k`: the next byte lies between `lo` and `hi`, then `k` more follow. -/
inductive State
  | start
  | more (lo hi : UInt8) (k : Nat)
  | reject
  deriving DecidableEq, Repr

/-- The first byte of a character. -/
def lead (c : UInt8) : State :=
  if c < 0x80 then .start
  else if 0xC2 ≤ c ∧ c ≤ 0xDF then .more 0x80 0xBF 0
  else if c = 0xE0 then .more 0xA0 0xBF 1
  else if c = 0xED then .more 0x80 0x9F 1
  else if 0xE1 ≤ c ∧ c ≤ 0xEF then .more 0x80 0xBF 1
  else if c = 0xF0 then .more 0x90 0xBF 2
  else if 0xF1 ≤ c ∧ c ≤ 0xF3 then .more 0x80 0xBF 2
  else if c = 0xF4 then .more 0x80 0x8F 2
  else .reject

def step : State → UInt8 → State
  | .start, c => lead c
  | .more lo hi 0, c => if lo ≤ c ∧ c ≤ hi then .start else .reject
  | .more lo hi (k + 1), c => if lo ≤ c ∧ c ≤ hi then .more 0x80 0xBF k else .reject
  | .reject, _ => .reject

/-- The text is a sequence of whole characters. -/
def Valid (s : Bytes) : Prop := s.foldl step .start = .start

instance (s : Bytes) : Decidable (Valid s) :=
  inferInstanceAs (Decidable (s.foldl step .start = .start))

theorem Valid.append {s t : Bytes} (hs : Valid s) (ht : Valid t) : Valid (s ++ t) := by
  rw [Valid, List.foldl_append, hs]
  exact ht

theorem step_ascii {c : UInt8} (hc : c < 0x80) : step .start c = .start := by
  rw [step, lead, if_pos hc]

/-- ASCII text is well formed. -/
theorem valid_of_ascii {s : Bytes} (h : ∀ c ∈ s, c < 0x80) : Valid s := by
  induction s with
  | nil => rfl
  | cons c s ih =>
      have hc : step .start c = .start := step_ascii (h c (by simp))
      rw [Valid, List.foldl_cons, hc]
      exact ih fun d hd => h d (by simp [hd])

/-! ## Cutting a text at an ASCII byte -/

/-- Inside a character no byte below 0x80 can follow. -/
def State.Inner : State → Prop
  | .more lo _ _ => 0x80 ≤ lo
  | _ => True

theorem inner_step (u : State) (c : UInt8) : (step u c).Inner := by
  match u with
  | .start =>
      simp only [step, lead]
      split_ifs <;> simp [State.Inner]
  | .more lo hi 0 =>
      simp only [step]
      split_ifs <;> trivial
  | .more lo hi (k + 1) =>
      simp only [step]
      split_ifs
      · exact (by decide : (0x80 : UInt8) ≤ 0x80)
      · trivial
  | .reject => trivial

theorem inner_foldl {u : State} (h : u.Inner) (s : Bytes) : (s.foldl step u).Inner := by
  induction s generalizing u with
  | nil => exact h
  | cons c s ih => exact ih (inner_step u c)

theorem foldl_reject (s : Bytes) : s.foldl step .reject = .reject := by
  induction s with
  | nil => rfl
  | cons c s ih => exact ih

/-- An ASCII byte of a well-formed text stands between characters. -/
theorem start_of_ascii {u : State} (hu : u.Inner) {c : UInt8} (hc : c < 0x80) {s : Bytes}
    (h : (c :: s).foldl step u = .start) : u = .start := by
  -- in the middle of a character the byte would be rejected, and so would the whole text
  have hreject : step u c = .reject → False := by
    intro hstep
    rw [List.foldl_cons, hstep, foldl_reject] at h
    cases h
  match u with
  | .start => rfl
  | .more lo hi k =>
      have hlo : ¬ lo ≤ c := by
        have hlo : (0x80 : UInt8) ≤ lo := hu
        rw [UInt8.lt_iff_toNat_lt] at hc
        rw [UInt8.le_iff_toNat_le] at hlo ⊢
        omega
      cases k <;> exact (hreject (by simp [step, hlo])).elim
  | .reject => exact (hreject rfl).elim

theorem Valid.of_append_cons {s t : Bytes} {c : UInt8} (hc : c < 0x80)
    (h : Valid (s ++ c :: t)) : Valid s ∧ Valid t := by
  rw [Valid, List.foldl_append] at h
  have hs : Valid s := start_of_ascii (inner_foldl (u := .start) trivial s) hc h
  -- the automaton is back at the start before and after the byte
  rw [hs, List.foldl_cons, step_ascii hc] at h
  exact ⟨hs, h⟩

/-! ## Decoding -/

/-- The bits of the code point in a first byte. -/
def payload (c : UInt8) : Nat :=
  if c < 0x80 then c.toNat
  else if c < 0xE0 then c.toNat % 32
  else if c < 0xF0 then c.toNat % 16
  else c.toNat % 8

/-- The automaton with the bits of the character it is in, and the code points before it. -/
structure Decoder where
  state : State
  value : Nat
  chars : List Nat
  deriving DecidableEq, Repr

namespace Decoder

def init : Decoder := ⟨.start, 0, []⟩

def step (d : Decoder) (c : UInt8) : Decoder :=
  let value := if d.state = .start then payload c else d.value * 64 + c.toNat % 64
  match Utf8.step d.state c with
  | .start => ⟨.start, 0, d.chars ++ [value]⟩
  | state => ⟨state, value, d.chars⟩

end Decoder

/-- The code points of a text; `none` if it is not well formed. -/
def decode (s : Bytes) : Option (List Nat) :=
  let d := s.foldl Decoder.step .init
  if d.state = .start then some d.chars else none

namespace Decoder

/-- The decoder with other characters before it. -/
def after (chars : List Nat) (d : Decoder) : Decoder := { d with chars := chars ++ d.chars }

theorem step_state (d : Decoder) (c : UInt8) : (d.step c).state = Utf8.step d.state c := by
  unfold step
  cases Utf8.step d.state c <;> rfl

theorem foldl_state (d : Decoder) (s : Bytes) :
    (s.foldl step d).state = s.foldl Utf8.step d.state := by
  induction s generalizing d with
  | nil => rfl
  | cons c s ih => rw [List.foldl_cons, ih, step_state, List.foldl_cons]

theorem step_after (chars : List Nat) (d : Decoder) (c : UInt8) :
    (d.after chars).step c = (d.step c).after chars := by
  unfold step after
  cases Utf8.step d.state c <;> simp

theorem foldl_after (chars : List Nat) (d : Decoder) (s : Bytes) :
    s.foldl step (d.after chars) = (s.foldl step d).after chars := by
  induction s generalizing d with
  | nil => rfl
  | cons c s ih => rw [List.foldl_cons, step_after, ih, List.foldl_cons]

/-- Between characters nothing is left of the last one. -/
theorem step_value {d : Decoder} {c : UInt8} (h : (d.step c).state = .start) :
    (d.step c).value = 0 := by
  unfold step at h ⊢
  cases hs : Utf8.step d.state c <;> simp_all

theorem foldl_value {d : Decoder} (hd : d.state = .start → d.value = 0) {s : Bytes}
    (h : (s.foldl step d).state = .start) : (s.foldl step d).value = 0 := by
  induction s generalizing d with
  | nil => exact hd h
  | cons c s ih => exact ih step_value h

end Decoder

/-- The decoder accepts the well-formed texts. -/
theorem decode_isSome_iff (s : Bytes) : (decode s).isSome ↔ Valid s := by
  have hstate : (s.foldl Decoder.step .init).state = s.foldl step .start :=
    Decoder.foldl_state .init s
  rw [Valid, ← hstate, decode]
  split <;> rename_i h <;> simp [h]

/-- What follows a well-formed text is decoded by itself. -/
theorem decode_append {s : Bytes} {cs : List Nat} (hs : decode s = some cs) (t : Bytes) :
    decode (s ++ t) = (decode t).map (cs ++ ·) := by
  simp only [decode, Option.ite_none_right_eq_some, Option.some.injEq] at hs
  obtain ⟨hstate, hchars⟩ := hs
  have hend : s.foldl Decoder.step .init = Decoder.init.after cs := by
    have hvalue := Decoder.foldl_value (d := .init) (fun _ => rfl) hstate
    rw [Decoder.after, ← hchars]
    cases hd : s.foldl Decoder.step .init with
    | mk state value chars =>
        rw [hd] at hstate hvalue
        simp_all [Decoder.init]
  simp only [decode, List.foldl_append, hend, Decoder.foldl_after]
  split <;> simp_all [Decoder.after]

/-! ### The four lengths of a character -/

/-- A first byte of a character of two, three or four bytes, with its payload. -/
def lead2 (v : Nat) : UInt8 := UInt8.ofNat (0xC0 + v)
def lead3 (v : Nat) : UInt8 := UInt8.ofNat (0xE0 + v)
def lead4 (v : Nat) : UInt8 := UInt8.ofNat (0xF0 + v)

/-- A continuation byte. -/
def tail (v : Nat) : UInt8 := UInt8.ofNat (0x80 + v)

theorem tail_spec : ∀ v < 64,
    (tail v).toNat = 0x80 + v ∧ (tail v).toNat % 64 = v := by
  decide

theorem payload_lead2 : ∀ v < 32, payload (lead2 v) = v := by decide

theorem payload_lead3 : ∀ v < 16, payload (lead3 v) = v := by decide

theorem payload_lead4 : ∀ v < 8, payload (lead4 v) = v := by decide

/-- A character of two bytes is not overlong from 0x80 on. -/
theorem lead_lead2 : ∀ v < 32, 2 ≤ v → lead (lead2 v) = .more 0x80 0xBF 0 := by decide

/-- What the second byte of three may be, according to the first. -/
theorem lead_lead3 : ∀ v < 16, lead (lead3 v) =
    if v = 0 then .more 0xA0 0xBF 1 else if v = 13 then .more 0x80 0x9F 1
    else .more 0x80 0xBF 1 := by
  decide

/-- What the second byte of four may be, according to the first. -/
theorem lead_lead4 : ∀ v < 5, lead (lead4 v) =
    if v = 0 then .more 0x90 0xBF 2 else if v = 4 then .more 0x80 0x8F 2
    else .more 0x80 0xBF 2 := by
  decide

theorem tail_range {lo hi : UInt8} {v : Nat} (hv : v < 64) (hlo : lo.toNat ≤ 0x80 + v)
    (hhi : 0x80 + v ≤ hi.toNat) : lo ≤ tail v ∧ tail v ≤ hi := by
  rw [UInt8.le_iff_toNat_le, UInt8.le_iff_toNat_le, (tail_spec v hv).1]
  exact ⟨hlo, hhi⟩

theorem tail_any {v : Nat} (hv : v < 64) : 0x80 ≤ tail v ∧ tail v ≤ 0xBF :=
  tail_range hv (Nat.le_add_right _ _) (by
    have hmax : (0xBF : UInt8).toNat = 0xBF := by decide
    omega)

namespace Decoder

theorem step_lead {c lo hi : UInt8} {k : Nat} (h : lead c = .more lo hi k) :
    init.step c = ⟨.more lo hi k, payload c, []⟩ := by
  simp [step, init, Utf8.step, h]

theorem step_tail_last {c lo hi : UInt8} (h : lo ≤ c ∧ c ≤ hi) (value : Nat) (chars : List Nat) :
    step ⟨.more lo hi 0, value, chars⟩ c
      = ⟨.start, 0, chars ++ [value * 64 + c.toNat % 64]⟩ := by
  simp [step, Utf8.step, h]

theorem step_tail_succ {c lo hi : UInt8} (h : lo ≤ c ∧ c ≤ hi) (k value : Nat)
    (chars : List Nat) :
    step ⟨.more lo hi (k + 1), value, chars⟩ c
      = ⟨.more 0x80 0xBF k, value * 64 + c.toNat % 64, chars⟩ := by
  simp [step, Utf8.step, h]

end Decoder

theorem decode_one : ∀ v < 128, decode [UInt8.ofNat v] = some [v] := by decide +kernel

theorem decode_two {a b : Nat} (ha : a < 32) (hb : b < 64) (hlong : 2 ≤ a) :
    decode [lead2 a, tail b] = some [a * 64 + b] := by
  have hlead := Decoder.step_lead (lead_lead2 a ha hlong)
  simp only [decode, List.foldl_cons, List.foldl_nil, hlead, payload_lead2 a ha,
    Decoder.step_tail_last (tail_any hb), (tail_spec b hb).2, if_true, List.nil_append]

/-- Three bytes: from 0x800 on, without the surrogates. -/
theorem decode_three {a b c : Nat} (ha : a < 16) (hb : b < 64) (hc : c < 64)
    (hlong : a = 0 → 32 ≤ b) (hsurrogate : a = 13 → b < 32) :
    decode [lead3 a, tail b, tail c] = some [(a * 64 + b) * 64 + c] := by
  have hbounds : (0xA0 : UInt8).toNat = 0xA0 ∧ (0x9F : UInt8).toNat = 0x9F ∧
      (0x80 : UInt8).toNat = 0x80 ∧ (0xBF : UInt8).toNat = 0xBF := by decide
  -- the first byte fixes a range, and the second byte is in it
  obtain ⟨lo, hi, hlead, hrange⟩ :
      ∃ lo hi, lead (lead3 a) = .more lo hi 1 ∧ lo ≤ tail b ∧ tail b ≤ hi := by
    rw [lead_lead3 a ha]
    split_ifs with h0 h13
    · exact ⟨_, _, rfl, tail_range hb (by have := hlong h0; omega) (by omega)⟩
    · exact ⟨_, _, rfl, tail_range hb (by omega) (by have := hsurrogate h13; omega)⟩
    · exact ⟨_, _, rfl, tail_any hb⟩
  simp only [decode, List.foldl_cons, List.foldl_nil, Decoder.step_lead hlead, payload_lead3 a ha,
    Decoder.step_tail_succ hrange, Decoder.step_tail_last (tail_any hc), (tail_spec b hb).2,
    (tail_spec c hc).2, if_true, List.nil_append]

/-- Four bytes: from 0x10000 to 0x10FFFF. -/
theorem decode_four {a b c d : Nat} (ha : a < 5) (hb : b < 64) (hc : c < 64) (hd : d < 64)
    (hlong : a = 0 → 16 ≤ b) (hmax : a = 4 → b < 16) :
    decode [lead4 a, tail b, tail c, tail d] = some [((a * 64 + b) * 64 + c) * 64 + d] := by
  have hbounds : (0x90 : UInt8).toNat = 0x90 ∧ (0x8F : UInt8).toNat = 0x8F ∧
      (0x80 : UInt8).toNat = 0x80 ∧ (0xBF : UInt8).toNat = 0xBF := by decide
  obtain ⟨lo, hi, hlead, hrange⟩ :
      ∃ lo hi, lead (lead4 a) = .more lo hi 2 ∧ lo ≤ tail b ∧ tail b ≤ hi := by
    rw [lead_lead4 a ha]
    split_ifs with h0 h4
    · exact ⟨_, _, rfl, tail_range hb (by have := hlong h0; omega) (by omega)⟩
    · exact ⟨_, _, rfl, tail_range hb (by omega) (by have := hmax h4; omega)⟩
    · exact ⟨_, _, rfl, tail_any hb⟩
  simp only [decode, List.foldl_cons, List.foldl_nil, Decoder.step_lead hlead,
    payload_lead4 a (by omega), Decoder.step_tail_succ hrange,
    Decoder.step_tail_succ (tail_any hc), Decoder.step_tail_last (tail_any hd),
    (tail_spec b hb).2, (tail_spec c hc).2, (tail_spec d hd).2, if_true, List.nil_append]

end Utf8
end DoubleTurnouts
