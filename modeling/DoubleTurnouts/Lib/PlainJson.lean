/-
  DoubleTurnouts.Lib.PlainJson

  The grammar of JSON texts with nothing but spaces between their tokens and
  nothing but plain bytes in their strings: no quote, no backslash, no brace.
  A text is derived together with the list of its string literals, keys and
  values at every depth, in the order in which they stand.

  `TopLevel` singles out one member of an object and lists the literals before
  its key.
-/
import Mathlib.Tactic
import DoubleTurnouts.Lib.Bytes
import DoubleTurnouts.Lib.Decimal

namespace DoubleTurnouts
namespace PlainJson

open Decimal

/-! ## Tokens -/

def spaces (n : Nat) : Bytes := List.replicate n (ch ' ')

/-- The text between the quotes of a string. -/
def IsPlain (s : Bytes) : Prop := ∀ c ∈ s, c ≠ ch '"' ∧ c ≠ ch '\\' ∧ c ≠ ch '{' ∧ c ≠ ch '}'

instance (s : Bytes) : Decidable (IsPlain s) := inferInstanceAs (Decidable (∀ _ ∈ s, _))

/-- A string with its quotes. -/
def quoted (s : Bytes) : Bytes := ch '"' :: (s ++ [ch '"'])

def IsDigits (s : Bytes) : Prop := s ≠ [] ∧ s.all isDigit = true

/-- A number: a sign, digits, a fraction and an exponent, all but the digits optional. -/
structure IsNumber (t : Bytes) : Prop where
  parts : ∃ sign int frac exp, t = sign ++ (int ++ (frac ++ exp)) ∧
    (sign = [] ∨ sign = str "-") ∧ IsDigits int ∧
    (frac = [] ∨ ∃ ds, IsDigits ds ∧ frac = ch '.' :: ds) ∧
    (exp = [] ∨ ∃ e es ds, (e = ch 'e' ∨ e = ch 'E') ∧
      (es = [] ∨ es = str "+" ∨ es = str "-") ∧ IsDigits ds ∧ exp = e :: (es ++ ds))

def IsScalar (t : Bytes) : Prop :=
  t = str "true" ∨ t = str "false" ∨ t = str "null" ∨ IsNumber t

/-! ## Values -/

/-- What a text is: a value, the values between two brackets, or the members between two
    braces. -/
inductive Kind
  | value
  | items
  | members

/-- A member up to its value: `a`, `b` and `c` spaces before the key and around the colon. -/
def keyText (a : Nat) (key : Bytes) (b c : Nat) : Bytes :=
  spaces a ++ (quoted key ++ (spaces b ++ (str ":" ++ spaces c)))

/-- A member, with `d` spaces after its value. -/
def memberText (a : Nat) (key : Bytes) (b c : Nat) (t : Bytes) (d : Nat) : Bytes :=
  keyText a key b c ++ (t ++ spaces d)

/-- `Derives kind t ls`: the text `t` is of the kind, and `ls` are its string literals. -/
inductive Derives : Kind → Bytes → List Bytes → Prop
  | string {s : Bytes} (hs : IsPlain s) : Derives .value (quoted s) [s]
  | scalar {t : Bytes} (ht : IsScalar t) : Derives .value t []
  | emptyArray (n : Nat) : Derives .value (str "[" ++ (spaces n ++ str "]")) []
  | array {t : Bytes} {ls : List Bytes} (h : Derives .items t ls) :
      Derives .value (str "[" ++ (t ++ str "]")) ls
  | emptyObject (n : Nat) : Derives .value (str "\x7b" ++ (spaces n ++ str "\x7d")) []
  | object {t : Bytes} {ls : List Bytes} (h : Derives .members t ls) :
      Derives .value (str "\x7b" ++ (t ++ str "\x7d")) ls
  | item {t : Bytes} {ls : List Bytes} (a d : Nat) (h : Derives .value t ls) :
      Derives .items (spaces a ++ (t ++ spaces d)) ls
  | moreItems {t t' : Bytes} {ls ls' : List Bytes} (a d : Nat) (h : Derives .value t ls)
      (h' : Derives .items t' ls') :
      Derives .items ((spaces a ++ (t ++ spaces d)) ++ (str "," ++ t')) (ls ++ ls')
  | member {key t : Bytes} {ls : List Bytes} (a b c d : Nat) (hkey : IsPlain key)
      (h : Derives .value t ls) : Derives .members (memberText a key b c t d) (key :: ls)
  | moreMembers {key t t' : Bytes} {ls ls' : List Bytes} (a b c d : Nat) (hkey : IsPlain key)
      (h : Derives .value t ls) (h' : Derives .members t' ls') :
      Derives .members (memberText a key b c t d ++ (str "," ++ t')) (key :: (ls ++ ls'))

/-- `TopLevel k v pre post before`: the members `pre ++ (v ++ post)` have one with the key `k`
    whose value is this `v`, and `before` are the literals that stand before the key. -/
inductive TopLevel (k v : Bytes) : Bytes → Bytes → List Bytes → Prop
  | last {ls : List Bytes} (a b c d : Nat) (h : Derives .value v ls) :
      TopLevel k v (keyText a k b c) (spaces d) []
  | here {t' : Bytes} {ls ls' : List Bytes} (a b c d : Nat) (h : Derives .value v ls)
      (h' : Derives .members t' ls') :
      TopLevel k v (keyText a k b c) (spaces d ++ (str "," ++ t')) []
  | later {key t pre post : Bytes} {ls before : List Bytes} (a b c d : Nat) (hkey : IsPlain key)
      (h : Derives .value t ls) (h' : TopLevel k v pre post before) :
      TopLevel k v (memberText a key b c t d ++ (str "," ++ pre)) post (key :: (ls ++ before))

/-- The text of an object, with spaces around it. -/
def objectText (m : Nat) (t : Bytes) (n : Nat) : Bytes :=
  spaces m ++ (str "\x7b" ++ (t ++ (str "\x7d" ++ spaces n)))

/-! ## Bytes of tokens -/

theorem mem_spaces {n : Nat} {c : UInt8} (h : c ∈ spaces n) : c = ch ' ' :=
  List.eq_of_mem_replicate h

/-- The bytes of scalars. -/
def isScalarByte (c : UInt8) : Bool :=
  isDigit c || (ch 'a' ≤ c && c ≤ ch 'z') || c = ch 'E' || c = ch '+' || c = ch '-' || c = ch '.'

theorem IsDigits.bytes {s : Bytes} (h : IsDigits s) : ∀ c ∈ s, isScalarByte c = true := by
  intro c hc
  simp [isScalarByte, List.all_eq_true.mp h.2 c hc]

theorem IsNumber.bytes {t : Bytes} (h : IsNumber t) : ∀ c ∈ t, isScalarByte c = true := by
  have hplus : ∀ c ∈ str "+", isScalarByte c = true := by decide
  have hminus : ∀ c ∈ str "-", isScalarByte c = true := by decide
  obtain ⟨sign, int, frac, exp, rfl, hsign, hint, hfrac, hexp⟩ := h.parts
  intro c hc
  simp only [List.mem_append] at hc
  -- by the part the byte stands in
  rcases hc with hc | hc | hc | hc
  · rcases hsign with rfl | rfl
    · cases hc
    · exact hminus c hc
  · exact hint.bytes c hc
  · rcases hfrac with rfl | ⟨ds, hds, rfl⟩
    · cases hc
    · rcases List.mem_cons.mp hc with rfl | hc
      · decide
      · exact hds.bytes c hc
  · rcases hexp with rfl | ⟨e, es, ds, he, hes, hds, rfl⟩
    · cases hc
    · rcases List.mem_cons.mp hc with rfl | hc
      · rcases he with rfl | rfl <;> decide
      · rcases List.mem_append.mp hc with hc | hc
        · rcases hes with rfl | rfl | rfl
          · cases hc
          · exact hplus c hc
          · exact hminus c hc
        · exact hds.bytes c hc

theorem IsScalar.bytes {t : Bytes} (h : IsScalar t) : ∀ c ∈ t, isScalarByte c = true := by
  rcases h with rfl | rfl | rfl | h
  · decide
  · decide
  · decide
  · exact h.bytes

end PlainJson
end DoubleTurnouts
