/-
  DoubleTurnouts.Lib.JsonText

  A JSON text cut at its string literals.  Between two literals there is
  white space, punctuation and scalars, and what follows a literal is a
  colon, a comma or a closing bracket.  That much of the grammar is enough to
  say where a key can be found in the text, which members an object has at
  its top level, and what their strings mean.
-/
import Mathlib.Tactic
import DoubleTurnouts.Lib.Bytes
import DoubleTurnouts.Lib.Decimal

namespace DoubleTurnouts
namespace JsonText

open Decimal

/-! ## String literals -/

/-- The text between the quotes of a literal: every quote and every backslash is escaped. -/
def isBody : Bytes → Bool
  | [] => true
  | [c] => c ≠ ch '"' && c ≠ ch '\\'
  | c :: d :: s => if c = ch '\\' then isBody s else c ≠ ch '"' && isBody (d :: s)

/-- The character a two-character escape stands for. -/
def shortEscape (d : UInt8) : Option UInt8 :=
  if d = ch '"' ∨ d = ch '\\' ∨ d = ch '/' then some d
  else if d = ch 'b' then some 0x08
  else if d = ch 'f' then some 0x0C
  else if d = ch 'n' then some 0x0A
  else if d = ch 'r' then some 0x0D
  else if d = ch 't' then some 0x09
  else none

/-- Four hexadecimal digits. -/
def hex4 : Bytes → Option (Nat × Bytes)
  | a :: b :: c :: d :: s => do
      let a ← hexVal a
      let b ← hexVal b
      let c ← hexVal c
      let d ← hexVal d
      return (((a * 16 + b) * 16 + c) * 16 + d, s)
  | _ => none

/-- UTF-8 of a code point. -/
def encode (cp : Nat) : Bytes :=
  if cp < 0x80 then [UInt8.ofNat cp]
  else if cp < 0x800 then [UInt8.ofNat (0xC0 + cp / 64), UInt8.ofNat (0x80 + cp % 64)]
  else if cp < 0x10000 then
    [UInt8.ofNat (0xE0 + cp / 4096), UInt8.ofNat (0x80 + cp / 64 % 64),
     UInt8.ofNat (0x80 + cp % 64)]
  else
    [UInt8.ofNat (0xF0 + cp / 262144), UInt8.ofNat (0x80 + cp / 4096 % 64),
     UInt8.ofNat (0x80 + cp / 64 % 64), UInt8.ofNat (0x80 + cp % 64)]

/-- What follows `\u`: a code point, in two escapes if it needs surrogates. -/
def unicodeEscape (s : Bytes) : Option (Bytes × Bytes) := do
  let (hi, s) ← hex4 s
  if 0xD800 ≤ hi ∧ hi < 0xDC00 then
    match s with
    | b :: u :: s =>
        let (lo, s) ← hex4 s
        -- the second half has to follow at once
        if b = ch '\\' ∧ u = ch 'u' ∧ 0xDC00 ≤ lo ∧ lo < 0xE000 then
          return (encode (0x10000 + (hi - 0xD800) * 1024 + (lo - 0xDC00)), s)
        else none
    | _ => none
  -- a low surrogate without a high one before it
  else if 0xDC00 ≤ hi ∧ hi < 0xE000 then none
  else return (encode hi, s)

/-- The string a body stands for; the number bounds the recursion. -/
def unescapeFuel : Nat → Bytes → Option Bytes
  | _, [] => some []
  | 0, _ => none
  | fuel + 1, c :: s =>
      if c ≠ ch '\\' then (unescapeFuel fuel s).map (c :: ·)
      else
        match s with
        | [] => none
        | d :: s =>
            if d = ch 'u' then do
              let (text, s) ← unicodeEscape s
              return text ++ (← unescapeFuel fuel s)
            else do
              let text ← shortEscape d
              return text :: (← unescapeFuel fuel s)

def unescape (body : Bytes) : Option Bytes := unescapeFuel body.length body

theorem length_of_hex4 {s rest : Bytes} {n : Nat} (h : hex4 s = some (n, rest)) :
    s.length = rest.length + 4 := by
  match s with
  | [] | [_] | [_, _] | [_, _, _] => cases h
  | a :: b :: c :: d :: s =>
      simp only [hex4] at h
      obtain ⟨_, -, h⟩ := Option.bind_eq_some_iff.mp h
      obtain ⟨_, -, h⟩ := Option.bind_eq_some_iff.mp h
      obtain ⟨_, -, h⟩ := Option.bind_eq_some_iff.mp h
      obtain ⟨_, -, h⟩ := Option.bind_eq_some_iff.mp h
      cases h
      rfl

theorem length_encode_le (cp : Nat) : (encode cp).length ≤ 4 := by
  unfold encode
  split_ifs <;> simp

theorem length_of_unicodeEscape {s text rest : Bytes} (h : unicodeEscape s = some (text, rest)) :
    text.length + rest.length ≤ s.length := by
  unfold unicodeEscape at h
  obtain ⟨⟨hi, s1⟩, hhex, h⟩ := Option.bind_eq_some_iff.mp h
  have hlen := length_of_hex4 hhex
  simp only at h
  split at h
  · match s1 with
    | [] | [_] => cases h
    | b :: u :: s2 =>
        obtain ⟨⟨lo, s3⟩, hhex2, h⟩ := Option.bind_eq_some_iff.mp h
        have hlen2 := length_of_hex4 hhex2
        simp only at h
        split at h
        · obtain ⟨rfl, rfl⟩ := Prod.mk.inj (Option.some.inj h)
          have := length_encode_le (0x10000 + (hi - 0xD800) * 1024 + (lo - 0xDC00))
          simp only [List.length_cons] at hlen
          omega
        · cases h
  · split at h
    · cases h
    · obtain ⟨rfl, rfl⟩ := Prod.mk.inj (Option.some.inj h)
      have := length_encode_le hi
      omega

/-- Undoing escapes makes a text shorter, and a text without them is its own meaning. -/
theorem unescapeFuel_spec {fuel : Nat} {body s : Bytes} (h : unescapeFuel fuel body = some s) :
    s.length ≤ body.length ∧ (ch '\\' ∈ body → s.length < body.length) ∧
      (ch '\\' ∉ body → s = body) := by
  induction fuel generalizing body s with
  | zero =>
      cases body with
      | nil =>
          cases h
          simp
      | cons c body => cases h
  | succ fuel ih =>
      cases body with
      | nil =>
          cases h
          simp
      | cons c body =>
          simp only [unescapeFuel] at h
          by_cases hc : c = ch '\\'
          · -- an escape takes at least two bytes and gives fewer
            have hshort : s.length < (c :: body).length := by
              cases body with
              | nil => simp [hc] at h
              | cons d body =>
                  simp only [hc, ne_eq, not_true_eq_false, if_false] at h
                  split at h
                  · obtain ⟨⟨text, rest⟩, hescape, h⟩ := Option.bind_eq_some_iff.mp h
                    obtain ⟨t, ht, h⟩ := Option.bind_eq_some_iff.mp h
                    obtain rfl := Option.some.inj h
                    have hlen := length_of_unicodeEscape hescape
                    have hle : t.length ≤ rest.length := (ih ht).1
                    simp only [List.length_append, List.length_cons]
                    omega
                  · obtain ⟨text, -, h⟩ := Option.bind_eq_some_iff.mp h
                    obtain ⟨t, ht, h⟩ := Option.bind_eq_some_iff.mp h
                    obtain rfl := Option.some.inj h
                    have hle := (ih ht).1
                    simp only [List.length_cons]
                    omega
            refine ⟨hshort.le, fun _ => hshort, fun hnone => ?_⟩
            exact absurd (by simp [hc]) hnone
          · rw [if_pos hc] at h
            obtain ⟨t, ht, rfl⟩ := Option.map_eq_some_iff.mp h
            -- a plain byte stands for itself, so all three facts are about the rest
            obtain ⟨hle, hlt, heq⟩ := ih ht
            refine ⟨by simpa using hle, ?_, ?_⟩
            · intro hmem
              have := hlt ((List.mem_cons.mp hmem).resolve_left (Ne.symm hc))
              simpa using this
            · intro hnone
              rw [heq fun hmem => hnone (List.mem_cons_of_mem c hmem)]

theorem unescape_eq_of_no_escape {body s : Bytes} (h : unescape body = some s)
    (hbody : ch '\\' ∉ body) : s = body := (unescapeFuel_spec h).2.2 hbody

theorem length_unescape_lt {body s : Bytes} (h : unescape body = some s)
    (hbody : ch '\\' ∈ body) : s.length < body.length := (unescapeFuel_spec h).2.1 hbody

theorem encode_ne_nil (cp : Nat) : encode cp ≠ [] := by
  unfold encode
  split_ifs <;> simp

theorem ne_nil_of_unicodeEscape {s text rest : Bytes}
    (h : unicodeEscape s = some (text, rest)) : text ≠ [] := by
  unfold unicodeEscape at h
  obtain ⟨⟨hi, s1⟩, -, h⟩ := Option.bind_eq_some_iff.mp h
  simp only at h
  split at h
  · match s1 with
    | [] | [_] => cases h
    | b :: u :: s2 =>
        obtain ⟨⟨lo, s3⟩, -, h⟩ := Option.bind_eq_some_iff.mp h
        simp only at h
        split at h
        · obtain ⟨rfl, rfl⟩ := Prod.mk.inj (Option.some.inj h)
          exact encode_ne_nil _
        · cases h
  · split at h
    · cases h
    · obtain ⟨rfl, rfl⟩ := Prod.mk.inj (Option.some.inj h)
      exact encode_ne_nil _

/-- Only the empty body stands for the empty string. -/
theorem eq_nil_of_unescape {body : Bytes} (h : unescape body = some []) : body = [] := by
  unfold unescape at h
  cases body with
  | nil => rfl
  | cons c body =>
      rw [List.length_cons] at h
      simp only [unescapeFuel] at h
      split at h
      · obtain ⟨t, -, ht⟩ := Option.map_eq_some_iff.mp h
        cases ht
      · split at h
        · cases h
        · rename_i d rest
          split at h
          · obtain ⟨⟨text, rest'⟩, hescape, h⟩ := Option.bind_eq_some_iff.mp h
            obtain ⟨t, -, h⟩ := Option.bind_eq_some_iff.mp h
            -- every escape gives at least one byte
            have hnil := (List.append_eq_nil_iff.mp (Option.some.inj h)).1
            exact absurd hnil (ne_nil_of_unicodeEscape hescape)
          · obtain ⟨text, -, h⟩ := Option.bind_eq_some_iff.mp h
            obtain ⟨t, -, h⟩ := Option.bind_eq_some_iff.mp h
            cases Option.some.inj h

/-! ## Texts -/

/-- White space as JSON has it. -/
def isWs (c : UInt8) : Bool := c = ch ' ' || c = ch '\n' || c = ch '\r' || c = ch '\t'

/-- What may follow a literal, white space apart. -/
def isStop (c : UInt8) : Bool := c = ch ':' || c = ch ',' || c = ch '}' || c = ch ']'

/-- The text after a literal, up to the next one. -/
def isGap (gap : Bytes) : Bool := ch '"' ∉ gap && ((gap.dropWhile isWs).head?.any isStop)

/-- So its first byte is white space or one of the four. -/
theorem exists_of_isGap {gap : Bytes} (h : isGap gap = true) :
    ch '"' ∉ gap ∧ ∃ c rest, gap = c :: rest ∧ (isWs c = true ∨ isStop c = true) := by
  simp only [isGap, Bool.and_eq_true, decide_eq_true_eq] at h
  refine ⟨h.1, ?_⟩
  cases gap with
  | nil => simp at h
  | cons c rest =>
      refine ⟨c, rest, rfl, ?_⟩
      by_cases hws : isWs c = true
      · exact .inl hws
      · right
        simpa [List.dropWhile_cons, hws] using h.2

/-- A text cut at its literals: each one with the gap that follows it. -/
structure Document where
  head : Bytes
  parts : List (Bytes × Bytes)
  head_quote : ch '"' ∉ head
  body : ∀ p ∈ parts, isBody p.1 = true
  gap : ∀ p ∈ parts, isGap p.2 = true

/-- The text of some literals with their gaps. -/
def render (parts : List (Bytes × Bytes)) : Bytes :=
  parts.flatMap fun p => ch '"' :: (p.1 ++ ch '"' :: p.2)

def Document.text (d : Document) : Bytes := d.head ++ render d.parts

/-- Opening less closing brackets outside of literals. -/
def depth (s : Bytes) : Int :=
  (s.countP fun c => c = ch '{' || c = ch '[') - (s.countP fun c => c = ch '}' || c = ch ']')

/-- A string member of the outermost object: `key` is the text between the quotes. -/
structure Member (d : Document) (key : Bytes) where
  before : List (Bytes × Bytes)
  ws1 : Bytes
  ws2 : Bytes
  body : Bytes
  gap : Bytes
  rest : List (Bytes × Bytes)
  parts_eq : d.parts = before ++ (key, ws1 ++ ch ':' :: ws2) :: (body, gap) :: rest
  ws1_ws : ws1.all isWs = true
  ws2_ws : ws2.all isWs = true
  top : depth (d.head ++ before.flatMap Prod.snd) = 1

/-- Behind the literals `before` the outermost object has a member under `key`. -/
def Document.HasKey (d : Document) (key : Bytes) (before : List (Bytes × Bytes)) : Prop :=
  depth (d.head ++ before.flatMap Prod.snd) = 1 ∧ ∃ ws value rest, ws.all isWs = true ∧
    d.parts = before ++ (key, ws ++ ch ':' :: value) :: rest

namespace Member

variable {d : Document} {key key₀ : Bytes}

/-- No member before this one has its key. -/
def First (m : Member d key) : Prop :=
  ∀ before, d.HasKey key before → m.before.length ≤ before.length

/-- The first member with its key behind `m₀`, or else the first one of all. -/
def Next (m : Member d key) (m₀ : Member d key₀) : Prop :=
  (m₀.before.length < m.before.length ∧ ∀ before, d.HasKey key before →
      m₀.before.length < before.length → m.before.length ≤ before.length) ∨
    (∀ before, d.HasKey key before → before.length ≤ m₀.before.length) ∧ m.First

theorem hasKey (m : Member d key) : d.HasKey key m.before :=
  ⟨m.top, m.ws1, m.ws2, _, m.ws1_ws, m.parts_eq⟩

theorem First.length_eq {m m' : Member d key} (h : m.First) (h' : m'.First) :
    m.before.length = m'.before.length :=
  Nat.le_antisymm (h _ m'.hasKey) (h' _ m.hasKey)

theorem Next.length_eq {m m' : Member d key} {m₀ m₀' : Member d key₀}
    (h₀ : m₀.before.length = m₀'.before.length) (h : m.Next m₀) (h' : m'.Next m₀') :
    m.before.length = m'.before.length := by
  rcases h with ⟨hlt, hleast⟩ | ⟨hnone, hfirst⟩
  · rcases h' with ⟨hlt', hleast'⟩ | ⟨hnone', -⟩
    · exact Nat.le_antisymm (hleast _ m'.hasKey (by omega)) (hleast' _ m.hasKey (by omega))
    · have := hnone' _ m.hasKey
      omega
  · rcases h' with ⟨hlt', -⟩ | ⟨-, hfirst'⟩
    · have := hnone _ m'.hasKey
      omega
    · exact hfirst.length_eq hfirst'

/-- A member is determined by where it stands. -/
theorem body_eq_of_length {m m' : Member d key} (h : m.before.length = m'.before.length) :
    m.body = m'.body := by
  have hparts := m.parts_eq.symm.trans m'.parts_eq
  have htail := (List.append_inj hparts h).2
  simp only [List.cons.injEq, Prod.mk.injEq] at htail
  exact htail.2.1.1

end Member

end JsonText
end DoubleTurnouts
