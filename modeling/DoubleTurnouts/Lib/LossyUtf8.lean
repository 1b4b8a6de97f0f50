/-
  DoubleTurnouts.Lib.LossyUtf8

  Decoding UTF-8 with errors ignored: a byte that cannot follow is dropped
  with the character it cut off, and is then read again as a first byte; a
  character that is not complete at the end is dropped.

  On a well-formed text nothing is dropped (`decode_eq_decodeIgnore`).  On any
  text there is at most one character for each byte that is no continuation
  byte (`length_decodeIgnore_le`), so the characters that a reader of pieces
  has lost can be counted (`length_decodeIgnore_lt_of_prefix`).
-/
import Mathlib.Tactic
import DoubleTurnouts.Lib.Bytes
import DoubleTurnouts.Lib.Utf8

namespace DoubleTurnouts
namespace Utf8

namespace Decoder

/-- One byte, with errors ignored. -/
def stepIgnore (d : Decoder) (c : UInt8) : Decoder :=
  match Utf8.step d.state c with
  | .reject =>
      -- the character before it is dropped, the byte may start another one
      match Utf8.step .start c with
      | .reject => ⟨.start, 0, d.chars⟩
      | _ => step ⟨.start, 0, d.chars⟩ c
  | _ => d.step c

end Decoder

/-- The code points of a text with errors ignored. -/
def decodeIgnore (s : Bytes) : List Nat := (s.foldl Decoder.stepIgnore .init).chars

/-- A byte that can only continue a character. -/
def isTail (c : UInt8) : Bool := 0x80 ≤ c && c ≤ 0xBF

/-- The number of bytes that can start a character. -/
def firsts (s : Bytes) : Nat := s.countP fun c => !isTail c

@[simp] theorem firsts_nil : firsts [] = 0 := rfl

theorem firsts_cons (c : UInt8) (s : Bytes) :
    firsts (c :: s) = firsts s + if isTail c then 0 else 1 := by
  cases h : isTail c <;> simp [firsts, h]

theorem firsts_append (s t : Bytes) : firsts (s ++ t) = firsts s + firsts t :=
  List.countP_append

/-! ## Texts without errors -/

namespace Decoder

theorem stepIgnore_eq {d : Decoder} {c : UInt8} (h : Utf8.step d.state c ≠ .reject) :
    d.stepIgnore c = d.step c := by
  unfold stepIgnore
  split
  · contradiction
  · rfl

/-- As long as nothing is rejected, errors do not matter. -/
theorem foldl_stepIgnore {d : Decoder} {s : Bytes}
    (h : s.foldl Utf8.step d.state ≠ .reject) : s.foldl stepIgnore d = s.foldl step d := by
  induction s generalizing d with
  | nil => rfl
  | cons c s ih =>
      have hc : Utf8.step d.state c ≠ .reject := by
        intro hreject
        exact h (by rw [List.foldl_cons, hreject, foldl_reject])
      rw [List.foldl_cons, stepIgnore_eq hc, List.foldl_cons]
      apply ih
      rw [step_state]
      exact h

theorem stepIgnore_after (chars : List Nat) (d : Decoder) (c : UInt8) :
    (d.after chars).stepIgnore c = (d.stepIgnore c).after chars := by
  have hagain : step ⟨.start, 0, chars ++ d.chars⟩ c = (step ⟨.start, 0, d.chars⟩ c).after chars :=
    step_after chars ⟨.start, 0, d.chars⟩ c
  unfold stepIgnore
  have hstate : (d.after chars).state = d.state := rfl
  rw [hstate]
  split
  · split
    · rfl
    · exact hagain
  · exact step_after chars d c

theorem foldl_stepIgnore_after (chars : List Nat) (d : Decoder) (s : Bytes) :
    s.foldl stepIgnore (d.after chars) = (s.foldl stepIgnore d).after chars := by
  induction s generalizing d with
  | nil => rfl
  | cons c s ih => rw [List.foldl_cons, stepIgnore_after, ih, List.foldl_cons]

end Decoder

theorem foldl_stepIgnore_of_valid {s : Bytes} (h : Valid s) :
    s.foldl Decoder.stepIgnore .init = Decoder.init.after (decodeIgnore s) := by
  have hne : s.foldl step Decoder.init.state ≠ .reject := by
    have hend : s.foldl step Decoder.init.state = .start := h
    rw [hend]
    exact State.noConfusion
  have hstate : (s.foldl Decoder.stepIgnore .init).state = .start := by
    rw [Decoder.foldl_stepIgnore hne, Decoder.foldl_state]
    exact h
  have hvalue : (s.foldl Decoder.stepIgnore .init).value = 0 := by
    rw [Decoder.foldl_stepIgnore hne] at hstate ⊢
    exact Decoder.foldl_value (fun _ => rfl) hstate
  cases hd : s.foldl Decoder.stepIgnore .init with
  | mk state value chars =>
      rw [hd] at hstate hvalue
      simp_all [decodeIgnore, Decoder.init, Decoder.after]

/-- A well-formed text loses nothing. -/
theorem decode_eq_decodeIgnore {s : Bytes} (h : Valid s) : decode s = some (decodeIgnore s) := by
  have hne : s.foldl step Decoder.init.state ≠ .reject := by
    have hend : s.foldl step Decoder.init.state = .start := h
    rw [hend]
    exact State.noConfusion
  have hstate : (s.foldl Decoder.step .init).state = .start :=
    (Decoder.foldl_state .init s).trans h
  rw [decode, if_pos hstate, decodeIgnore, Decoder.foldl_stepIgnore hne]

/-- What follows a well-formed text is decoded by itself. -/
theorem decodeIgnore_append {s : Bytes} (h : Valid s) (t : Bytes) :
    decodeIgnore (s ++ t) = decodeIgnore s ++ decodeIgnore t := by
  rw [decodeIgnore, List.foldl_append, foldl_stepIgnore_of_valid h,
    Decoder.foldl_stepIgnore_after]
  rfl

theorem valid_flatten {parts : List Bytes} (h : ∀ part ∈ parts, Valid part) :
    Valid parts.flatten := by
  induction parts with
  | nil => rfl
  | cons part parts ih =>
      exact (h part (by simp)).append (ih fun p hp => h p (by simp [hp]))

theorem decodeIgnore_flatten {parts : List Bytes} (h : ∀ part ∈ parts, Valid part) :
    decodeIgnore parts.flatten = (parts.map decodeIgnore).flatten := by
  induction parts with
  | nil => rfl
  | cons part parts ih =>
      rw [List.flatten_cons, decodeIgnore_append (h part (by simp)),
        ih fun p hp => h p (by simp [hp])]
      rfl

/-! ## Counting characters -/

/-- What can follow inside a character is a continuation byte. -/
def State.Tails : State → Prop
  | .more lo hi _ => 0x80 ≤ lo ∧ hi ≤ 0xBF
  | _ => True

theorem tails_lead (c : UInt8) : (lead c).Tails := by
  unfold lead
  split_ifs <;> simp [State.Tails]

theorem tails_step {u : State} (h : u.Tails) (c : UInt8) : (step u c).Tails := by
  match u with
  | .start => exact tails_lead c
  | .more lo hi 0 =>
      simp only [step]
      split_ifs <;> trivial
  | .more lo hi (k + 1) =>
      simp only [step]
      split_ifs
      · exact ⟨UInt8.le_refl _, UInt8.le_refl _⟩
      · trivial
  | .reject => trivial

/-- A byte that goes on inside a character is a continuation byte. -/
theorem isTail_of_step {lo hi : UInt8} {k : Nat} (h : (State.more lo hi k).Tails) {c : UInt8}
    (hc : step (.more lo hi k) c ≠ .reject) : isTail c = true := by
  have hrange : lo ≤ c ∧ c ≤ hi := by
    by_contra hnot
    cases k <;> exact hc (by simp [step, hnot])
  simp only [isTail, Bool.and_eq_true, decide_eq_true_eq]
  exact ⟨UInt8.le_trans h.1 hrange.1, UInt8.le_trans hrange.2 h.2⟩

/-- No character starts with a continuation byte. -/
theorem lead_of_isTail {c : UInt8} (h : isTail c = true) : lead c = .reject := by
  simp only [isTail, Bool.and_eq_true, decide_eq_true_eq, UInt8.le_iff_toNat_le] at h
  have hlow : (0x80 : UInt8).toNat = 0x80 := rfl
  have hhigh : (0xBF : UInt8).toNat = 0xBF := rfl
  have hgap : ∀ d : UInt8, 0xBF < d.toNat → ¬ d ≤ c := by
    intro d hd hle
    rw [UInt8.le_iff_toNat_le] at hle
    omega
  have hne : ∀ d : UInt8, 0xBF < d.toNat → c ≠ d := by
    rintro d hd rfl
    omega
  have hascii : ¬ c < 0x80 := by
    rw [UInt8.lt_iff_toNat_lt]
    omega
  unfold lead
  rw [if_neg hascii, if_neg fun hx => hgap 0xC2 (by decide) hx.1, if_neg (hne 0xE0 (by decide)),
    if_neg (hne 0xED (by decide)), if_neg fun hx => hgap 0xE1 (by decide) hx.1,
    if_neg (hne 0xF0 (by decide)), if_neg fun hx => hgap 0xF1 (by decide) hx.1,
    if_neg (hne 0xF4 (by decide))]

namespace Decoder

/-- The characters, with the one that is begun. -/
def count (d : Decoder) : Nat := d.chars.length + if d.state = .start then 0 else 1

/-- Every byte that is not rejected counts as it should. -/
theorem count_step {d : Decoder} (h : d.state.Tails) {c : UInt8}
    (hc : Utf8.step d.state c ≠ .reject) :
    (d.step c).count = d.count + if isTail c then 0 else 1 := by
  have hcount : (d.step c).count = d.chars.length + 1 := by
    unfold count step
    cases hs : Utf8.step d.state c <;> simp
  rw [hcount, count]
  cases hd : d.state with
  | start =>
      rw [hd] at hc
      cases htail : isTail c with
      | false => simp
      | true => exact absurd (lead_of_isTail htail) hc
  | more lo hi k =>
      rw [hd] at h hc
      simp [isTail_of_step h hc]
  | reject => rw [hd] at hc; exact absurd rfl hc

theorem tails_stepIgnore {d : Decoder} (h : d.state.Tails) (c : UInt8) :
    (d.stepIgnore c).state.Tails := by
  unfold stepIgnore
  split
  · split
    · trivial
    · rw [step_state]
      exact tails_lead c
  · rw [step_state]
    exact tails_step h c

theorem count_stepIgnore_le {d : Decoder} (h : d.state.Tails) (c : UInt8) :
    (d.stepIgnore c).count ≤ d.count + if isTail c then 0 else 1 := by
  have hless : count ⟨.start, 0, d.chars⟩ ≤ d.count := by simp [count]
  unfold stepIgnore
  split
  · split
    · exact hless.trans (Nat.le_add_right _ _)
    · rename_i hne
      have hcount := count_step (d := ⟨.start, 0, d.chars⟩) trivial (c := c) hne
      omega
  · rename_i hne
    exact (count_step h hne).le

theorem count_foldl_le {d : Decoder} (h : d.state.Tails) (s : Bytes) :
    (s.foldl stepIgnore d).count ≤ d.count + firsts s := by
  induction s generalizing d with
  | nil => simp
  | cons c s ih =>
      have hstep := count_stepIgnore_le h c
      have hrest := ih (tails_stepIgnore h c)
      rw [List.foldl_cons, firsts_cons]
      omega

theorem count_foldl {d : Decoder} (h : d.state.Tails) {s : Bytes}
    (hs : s.foldl Utf8.step d.state ≠ .reject) :
    (s.foldl stepIgnore d).count = d.count + firsts s := by
  induction s generalizing d with
  | nil => simp
  | cons c s ih =>
      have hc : Utf8.step d.state c ≠ .reject := by
        intro hreject
        exact hs (by rw [List.foldl_cons, hreject, foldl_reject])
      have hstep := count_step h hc
      have hrest := ih (d := d.step c) (by rw [step_state]; exact tails_step h c)
        (by rw [step_state]; exact hs)
      rw [List.foldl_cons, stepIgnore_eq hc, firsts_cons]
      omega

end Decoder

/-- At most one character for each byte that can start one. -/
theorem length_decodeIgnore_le (s : Bytes) : (decodeIgnore s).length ≤ firsts s := by
  have hcount := Decoder.count_foldl_le (d := .init) trivial s
  have hinit : Decoder.init.count = 0 := rfl
  rw [hinit, Nat.zero_add, Decoder.count] at hcount
  rw [decodeIgnore]
  omega

/-- What is begun at the end of a text without errors is all that is missing. -/
theorem length_decodeIgnore_add {s : Bytes} (h : s.foldl step .start ≠ .reject) :
    (decodeIgnore s).length + (if Valid s then 0 else 1) = firsts s := by
  have hcount := Decoder.count_foldl (d := .init) trivial h
  have hinit : Decoder.init.count = 0 := rfl
  have hstate : (s.foldl Decoder.stepIgnore .init).state = s.foldl step .start := by
    rw [Decoder.foldl_stepIgnore h, Decoder.foldl_state]
    rfl
  rw [hinit, Nat.zero_add, Decoder.count, hstate] at hcount
  exact hcount

theorem length_decodeIgnore_of_valid {s : Bytes} (h : Valid s) :
    (decodeIgnore s).length = firsts s := by
  have hne : s.foldl step .start ≠ .reject := by
    have hend : s.foldl step .start = .start := h
    rw [hend]
    exact State.noConfusion
  have hlength := length_decodeIgnore_add hne
  rw [if_pos h] at hlength
  exact hlength

/-- The piece of a well-formed text that is cut inside a character has lost one. -/
theorem length_decodeIgnore_lt_of_prefix {s t : Bytes} (h : Valid (s ++ t)) (hs : ¬ Valid s) :
    (decodeIgnore s).length < firsts s := by
  have hne : s.foldl step .start ≠ .reject := by
    intro hreject
    have hend : (s ++ t).foldl step .start = .start := h
    rw [List.foldl_append, hreject, foldl_reject] at hend
    cases hend
  have hlength := length_decodeIgnore_add hne
  rw [if_neg hs] at hlength
  omega

theorem valid_right {s t : Bytes} (hs : Valid s) (h : Valid (s ++ t)) : Valid t := by
  have hend : (s ++ t).foldl step .start = .start := h
  rw [List.foldl_append, show s.foldl step .start = .start from hs] at hend
  exact hend

theorem decodeIgnore_ne_nil {s : Bytes} (h : Valid s) (hne : s ≠ []) : decodeIgnore s ≠ [] := by
  cases s with
  | nil => contradiction
  | cons c s =>
      have htail : isTail c = false := by
        cases htail : isTail c with
        | false => rfl
        | true =>
            have hend : (c :: s).foldl step .start = .start := h
            rw [List.foldl_cons, step, lead_of_isTail htail, foldl_reject] at hend
            cases hend
      have hlength := length_decodeIgnore_of_valid h
      rw [firsts_cons, htail] at hlength
      intro hnil
      simp [hnil] at hlength

/-- If as many characters came out as the bytes allow, no piece was cut inside a character. -/
theorem valid_of_length {parts : List Bytes} (h : Valid parts.flatten)
    (hlength : firsts parts.flatten ≤ (parts.map fun part => (decodeIgnore part).length).sum) :
    ∀ part ∈ parts, Valid part := by
  have hle : ∀ parts : List Bytes,
      (parts.map fun part => (decodeIgnore part).length).sum ≤ firsts parts.flatten := by
    intro parts
    induction parts with
    | nil => rfl
    | cons part parts ih =>
        have hpart := length_decodeIgnore_le part
        rw [List.map_cons, List.sum_cons, List.flatten_cons, firsts_append]
        omega
  induction parts with
  | nil => simp
  | cons part parts ih =>
      rw [List.flatten_cons] at h
      rw [List.map_cons, List.sum_cons, List.flatten_cons, firsts_append] at hlength
      have hparts := hle parts
      have hpart : Valid part := by
        by_contra hnot
        -- no later piece makes up for the character that is lost here
        have hlost := length_decodeIgnore_lt_of_prefix h hnot
        omega
      have hmost := length_decodeIgnore_le part
      intro p hp
      rcases List.mem_cons.mp hp with rfl | hp
      · exact hpart
      · exact ih (valid_right hpart h) (by omega) p hp

/-! ## ASCII characters -/

namespace Decoder

/-- The character that is begun will not be ASCII. -/
def Wide (d : Decoder) : Prop :=
  match d.state with
  | .more _ _ 0 => 2 ≤ d.value
  | .more lo _ (_ + 1) => 2 ≤ d.value * 64 + (lo.toNat - 0x80)
  | _ => True

theorem wide_lead (c : UInt8) (chars : List Nat) : Wide ⟨lead c, payload c, chars⟩ := by
  by_cases hascii : c < 0x80
  · simp [lead, hascii, Wide]
  have hne : ∀ d : UInt8, c ≠ d → c.toNat ≠ d.toNat := fun d h heq => h (UInt8.toNat_inj.mp heq)
  have hlt := c.toNat_lt
  unfold lead payload
  simp only [UInt8.lt_iff_toNat_lt, UInt8.le_iff_toNat_le] at hascii ⊢
  rw [if_neg hascii]
  split_ifs <;> simp_all [Wide] <;> omega

/-- A byte gives an ASCII character only if it is that character. -/
theorem mem_chars_step {d : Decoder} (htails : d.state.Tails) (hd : d.Wide) {c : UInt8}
    (hc : Utf8.step d.state c ≠ .reject) :
    (d.step c).Wide ∧ ∀ v ∈ (d.step c).chars, v ∈ d.chars ∨ 0x80 ≤ v ∨ v = c.toNat := by
  obtain ⟨state, value, chars⟩ := d
  cases state with
  | start =>
      have hwide := wide_lead c chars
      unfold step
      simp only [Utf8.step] at hc ⊢
      cases hlead : lead c with
      | start =>
          have hascii : c < 0x80 := by
            by_contra hnot
            unfold lead at hlead
            rw [if_neg hnot] at hlead
            split_ifs at hlead
          refine ⟨trivial, fun v hv => ?_⟩
          rcases List.mem_append.mp hv with hv | hv
          · exact .inl hv
          · rw [List.mem_singleton.mp hv, payload, if_pos hascii]
            exact .inr (.inr rfl)
      | more lo hi k =>
          rw [hlead] at hwide
          exact ⟨hwide, fun v hv => .inl hv⟩
      | reject => exact absurd hlead hc
  | more lo hi k =>
      have hrange : lo ≤ c ∧ c ≤ hi := by
        by_contra hnot
        cases k <;> exact hc (by simp [Utf8.step, hnot])
      obtain ⟨hlo, hhi⟩ := htails
      simp only [UInt8.le_iff_toNat_le] at hrange hlo hhi
      have hmin : (0x80 : UInt8).toNat = 0x80 := rfl
      have hmax : (0xBF : UInt8).toNat = 0xBF := rfl
      cases k with
      | zero =>
          have hvalue : 2 ≤ value := hd
          simp only [step, Utf8.step, UInt8.le_iff_toNat_le, if_pos hrange]
          refine ⟨trivial, fun v hv => ?_⟩
          rcases List.mem_append.mp hv with hv | hv
          · exact .inl hv
          · rw [List.mem_singleton.mp hv, if_neg State.noConfusion]
            exact .inr (.inl (by omega))
      | succ k =>
          have hvalue : 2 ≤ value * 64 + (lo.toNat - 0x80) := hd
          simp only [step, Utf8.step, UInt8.le_iff_toNat_le, if_pos hrange]
          refine ⟨?_, fun v hv => .inl hv⟩
          rw [if_neg State.noConfusion]
          cases k <;> simp only [Wide] <;> omega
  | reject => exact absurd rfl hc

theorem mem_chars_stepIgnore {d : Decoder} (htails : d.state.Tails) (hd : d.Wide) (c : UInt8) :
    (d.stepIgnore c).Wide ∧
      ∀ v ∈ (d.stepIgnore c).chars, v ∈ d.chars ∨ 0x80 ≤ v ∨ v = c.toNat := by
  unfold stepIgnore
  split
  · split
    · exact ⟨trivial, fun v hv => .inl hv⟩
    · rename_i hne
      exact mem_chars_step (d := ⟨.start, 0, d.chars⟩) trivial trivial hne
  · rename_i hne
    exact mem_chars_step htails hd hne

theorem mem_chars_foldl {d : Decoder} (htails : d.state.Tails) (hd : d.Wide) {s : Bytes} {v : Nat}
    (hv : v ∈ (s.foldl stepIgnore d).chars) : v ∈ d.chars ∨ 0x80 ≤ v ∨ ∃ c ∈ s, v = c.toNat := by
  induction s generalizing d with
  | nil => exact .inl hv
  | cons c s ih =>
      obtain ⟨hwide, hmem⟩ := mem_chars_stepIgnore htails hd c
      rcases ih (tails_stepIgnore htails c) hwide hv with hold | hbig | ⟨b, hb, heq⟩
      · rcases hmem v hold with hold | hbig | heq
        · exact .inl hold
        · exact .inr (.inl hbig)
        · exact .inr (.inr ⟨c, by simp, heq⟩)
      · exact .inr (.inl hbig)
      · exact .inr (.inr ⟨b, by simp [hb], heq⟩)

end Decoder

/-- An ASCII character that is read was sent. -/
theorem mem_of_mem_decodeIgnore {s : Bytes} {c : UInt8} (hc : c < 0x80)
    (h : c.toNat ∈ decodeIgnore s) : c ∈ s := by
  rcases Decoder.mem_chars_foldl (d := .init) trivial trivial h with hold | hbig | ⟨b, hb, heq⟩
  · cases hold
  · rw [UInt8.lt_iff_toNat_lt] at hc
    exact absurd hc (Nat.not_lt.mpr hbig)
  · rw [UInt8.toNat_inj.mp heq]
    exact hb

theorem decodeIgnore_singleton {c : UInt8} (hc : c < 0x80) : decodeIgnore [c] = [c.toNat] := by
  simp [decodeIgnore, Decoder.stepIgnore, Decoder.step, Decoder.init, step_ascii hc, payload, hc]

end Utf8
end DoubleTurnouts
