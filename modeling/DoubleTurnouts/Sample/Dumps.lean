/-
  DoubleTurnouts.Sample.Dumps

  How the sample client writes a request: `json.dumps(.., ensure_ascii=False)`
  encoded as UTF-8.  Only ASCII characters are ever escaped, so escaping works
  byte by byte.

  The second half is about searching such a text for a quoted key.  Inside a
  literal every quote stands behind a backslash, so a key is found there only
  if the string is that key, or ends in a quote and that key: then the closing
  quote of the literal completes the pattern.
-/
import Mathlib.Tactic
import DoubleTurnouts.InfraController.OutBody
import DoubleTurnouts.InfraController.StackFlowUtil

namespace DoubleTurnouts

open Text Decimal

/-! ## Writing -/

/-- The four hexadecimal digits of a control character. -/
def hexEscape (c : UInt8) : Bytes :=
  str "\\u00" ++ (Nat.toDigits 16 (256 + c.toNat)).tail.map ch

/-- One byte of a string literal. -/
def escape (c : UInt8) : Bytes :=
  if c = quote then str "\\\""
  else if c = backslash then str "\\\\"
  else if c = ch '\n' then str "\\n"
  else if c = ch '\r' then str "\\r"
  else if c = ch '\t' then str "\\t"
  else if c = 0x08 then str "\\b"
  else if c = 0x0C then str "\\f"
  else if c < 0x20 then hexEscape c
  else [c]

/-- The text between the quotes. -/
def escaped (s : Bytes) : Bytes := s.flatMap escape

def literal (s : Bytes) : Bytes := quote :: (escaped s ++ [quote])

mutual

/-- `json.dumps` with its default separators. -/
def dumps : Json → Bytes
  | .null => str "null"
  | .bool b => if b then str "true" else str "false"
  | .int n => to_string n
  | .float l => l
  | .string s => literal s
  | .array items => str "[" ++ (dumpsItems items ++ str "]")
  | .object members => str "\x7b" ++ (dumpsMembers members ++ str "\x7d")

def dumpsItems : List Json → Bytes
  | [] => []
  | [j] => dumps j
  | j :: js => dumps j ++ (str ", " ++ dumpsItems js)

def dumpsMembers : List (Bytes × Json) → Bytes
  | [] => []
  | [(key, j)] => literal key ++ (str ": " ++ dumps j)
  | (key, j) :: js => literal key ++ (str ": " ++ (dumps j ++ (str ", " ++ dumpsMembers js)))

end

/-! ## Bytes that are not escaped -/

def Plain (c : UInt8) : Prop := c ≠ quote ∧ c ≠ backslash ∧ 0x20 ≤ c

instance (c : UInt8) : Decidable (Plain c) := inferInstanceAs (Decidable (_ ∧ _))

theorem escape_of_plain {c : UInt8} (h : Plain c) : escape c = [c] := by
  obtain ⟨hquote, hback, hlow⟩ := h
  have hne : ∀ {d : UInt8}, d < 0x20 → c ≠ d := by
    rintro d hd rfl
    exact absurd hd (UInt8.not_lt.mpr hlow)
  simp only [escape, hquote, hback, if_false, hne (show ch '\n' < 0x20 by decide),
    hne (show ch '\r' < 0x20 by decide), hne (show ch '\t' < 0x20 by decide),
    hne (show (0x08 : UInt8) < 0x20 by decide), hne (show (0x0C : UInt8) < 0x20 by decide),
    UInt8.not_lt.mpr hlow]

/-- The escape of any other byte: a backslash and more, with no brace, and with a quote only
    for a quote. -/
structure EscapeShape (c : UInt8) : Prop where
  head : ∃ d e, escape c = backslash :: d :: e
  quote : quote ∈ escape c → c = quote
  brace : ch '{' ∉ escape c ∧ ch '}' ∉ escape c

theorem escapeShape {c : UInt8} (h : ¬ Plain c) : EscapeShape c := by
  have htable : ∀ n < 256, ¬ Plain (UInt8.ofNat n) →
      (escape (UInt8.ofNat n)).head? = some backslash ∧ 2 ≤ (escape (UInt8.ofNat n)).length ∧
        (quote ∈ escape (UInt8.ofNat n) → UInt8.ofNat n = quote) ∧
        ch '{' ∉ escape (UInt8.ofNat n) ∧ ch '}' ∉ escape (UInt8.ofNat n) := by
    decide +kernel
  obtain ⟨hhead, hlen, hquote, hbrace⟩ := by
    simpa using htable c.toNat c.toNat_lt (by simpa using h)
  refine ⟨?_, hquote, hbrace⟩
  match hescape : escape c with
  | [] => simp [hescape] at hhead
  | [b] => simp [hescape] at hlen
  | b :: d :: e =>
      rw [hescape] at hhead
      cases hhead
      exact ⟨d, e, rfl⟩

@[simp] theorem escaped_nil : escaped [] = [] := rfl

@[simp] theorem escaped_cons (c : UInt8) (s : Bytes) :
    escaped (c :: s) = escape c ++ escaped s := rfl

theorem escaped_append (s t : Bytes) : escaped (s ++ t) = escaped s ++ escaped t := by
  simp [escaped]

theorem escaped_of_plain {s : Bytes} (h : ∀ c ∈ s, Plain c) : escaped s = s := by
  induction s with
  | nil => rfl
  | cons c s ih =>
      rw [escaped_cons, escape_of_plain (h c (by simp)), ih fun d hd => h d (by simp [hd])]
      rfl

/-- A byte that is not a quote has an escape without quotes. -/
theorem quote_not_mem_escape {c : UInt8} (h : c ≠ quote) : quote ∉ escape c := by
  by_cases hplain : Plain c
  · rw [escape_of_plain hplain]
    simpa using h.symm
  · exact fun hmem => h ((escapeShape hplain).quote hmem)

theorem escape_quote : escape quote = [backslash, quote] := by decide

/-- No escape starts with a quote, and only that of a plain byte with a plain byte. -/
theorem escape_head (c : UInt8) : ∃ d e, escape c = d :: e ∧ d ≠ quote ∧
    ((Plain c ∧ d = c ∧ e = []) ∨ (¬ Plain c ∧ d = backslash ∧ e ≠ [])) := by
  by_cases hplain : Plain c
  · exact ⟨c, [], escape_of_plain hplain, hplain.1, .inl ⟨hplain, rfl, rfl⟩⟩
  · obtain ⟨d, e, hescape⟩ := (escapeShape hplain).head
    exact ⟨backslash, d :: e, hescape, by decide, .inr ⟨hplain, rfl, by simp⟩⟩

theorem length_le_escaped (s : Bytes) : s.length ≤ (escaped s).length := by
  induction s with
  | nil => exact le_refl 0
  | cons c s ih =>
      obtain ⟨d, e, hescape, -⟩ := escape_head c
      simp only [escaped_cons, hescape, List.length_cons, List.length_append]
      omega

/-- Escaping anything makes the text longer. -/
theorem length_lt_escaped {s : Bytes} (h : ∃ c ∈ s, ¬ Plain c) :
    s.length < (escaped s).length := by
  obtain ⟨c, hc, hplain⟩ := h
  obtain ⟨u, v, rfl⟩ := List.append_of_mem hc
  obtain ⟨d, e, hescape⟩ := (escapeShape hplain).head
  have hu := length_le_escaped u
  have hv := length_le_escaped v
  simp only [escaped_append, escaped_cons, hescape, List.length_append, List.length_cons]
  omega

/-- A string stays as it is exactly if nothing in it is escaped. -/
theorem escaped_eq_self_iff (s : Bytes) : escaped s = s ↔ ∀ c ∈ s, Plain c := by
  refine ⟨?_, escaped_of_plain⟩
  intro hs c hc
  by_contra hplain
  have hlonger := length_lt_escaped ⟨c, hc, hplain⟩
  rw [hs] at hlonger
  exact lt_irrefl _ hlonger

/-- The escaped text ends in a backslash exactly if the string does. -/
theorem getLast?_escaped (s : Bytes) :
    (escaped s).getLast? = some backslash ↔ s.getLast? = some backslash := by
  have htable : ∀ n < 256, ((escape (UInt8.ofNat n)).getLast? = some backslash ↔
      UInt8.ofNat n = backslash) ∧ escape (UInt8.ofNat n) ≠ [] := by
    decide +kernel
  rcases List.eq_nil_or_concat s with rfl | ⟨t, c, rfl⟩
  · rfl
  · have hc := htable c.toNat c.toNat_lt
    simp only [UInt8.ofNat_toNat] at hc
    have htail : escaped [c] = escape c := List.append_nil _
    rw [List.concat_eq_append, escaped_append, htail, List.getLast?_append_of_ne_nil _ hc.2,
      hc.1, List.getLast?_concat, Option.some.injEq]

/-- Every quote of an escaped text stands behind a backslash. -/
theorem noClose_escaped (s : Bytes) (prev : UInt8) : Scan.noClose prev (escaped s) = true := by
  induction s generalizing prev with
  | nil => rfl
  | cons c s ih =>
      rcases eq_or_ne c quote with rfl | hc
      · rw [escaped_cons, escape_quote]
        simp [Scan.noClose, ih, show backslash ≠ quote by decide]
      · rw [escaped_cons]
        exact Scan.noClose_append_of_not_mem (quote_not_mem_escape hc) ih prev

/-! ## Searching for a key -/

/-- The string is the key, or ends in a quote and the key. -/
def EndsIn (k s : Bytes) : Prop := s = k ∨ quote :: k <:+ s

instance (k s : Bytes) : Decidable (EndsIn k s) := inferInstanceAs (Decidable (_ ∨ _))

section Search

variable {k : Bytes} (hk : ∀ c ∈ k, Plain c)

include hk

/-- Right behind a quote: the key and a quote follow exactly if the literal is the key. -/
theorem key_prefix_escaped {s rest : Bytes} :
    k ++ [quote] <+: escaped s ++ quote :: rest ↔ s = k := by
  induction k generalizing s with
  | nil =>
      cases s with
      | nil => simp
      | cons c s =>
          obtain ⟨d, e, hescape, hd, -⟩ := escape_head c
          simp [hescape, List.cons_prefix_cons, hd.symm]
  | cons b k ih =>
      obtain ⟨hb, -⟩ := List.forall_mem_cons.mp hk
      have hk' := (List.forall_mem_cons.mp hk).2
      cases s with
      | nil => simp [List.cons_prefix_cons, hb.1]
      | cons c s =>
          obtain ⟨d, e, hescape, -, ⟨-, rfl, rfl⟩ | ⟨hplain, rfl, -⟩⟩ := escape_head c
          · simp only [escaped_cons, hescape, List.cons_append, List.nil_append,
              List.cons_prefix_cons, ih hk', List.cons.injEq]
            exact and_congr_left fun _ => eq_comm
          · have hne : c ≠ b := fun h => hplain (h ▸ hb)
            simp [hescape, List.cons_prefix_cons, hb.2.1, hne]

theorem find_key_prefix_literal {s rest : Bytes} :
    find_key k <+: quote :: (escaped s ++ quote :: rest) ↔ s = k := by
  rw [find_key, List.cons_prefix_cons, key_prefix_escaped hk]
  simp

theorem after_key_literal (rest : Bytes) :
    after (find_key k) (quote :: (escaped k ++ quote :: rest)) = some rest := by
  have hmatch : quote :: (escaped k ++ quote :: rest) = find_key k ++ rest := by
    rw [escaped_of_plain hk]
    simp [find_key]
  rw [hmatch, after_self_append]

/-- From inside a literal the search stops at its end or goes on from there. -/
theorem after_escaped (s rest : Bytes) :
    after (find_key k) (escaped s ++ quote :: rest) =
      if quote :: k <:+ s then some rest else after (find_key k) (quote :: rest) := by
  induction s with
  | nil => simp
  | cons c s ih =>
      rcases eq_or_ne c quote with rfl | hc
      · have htext : escaped (quote :: s) ++ quote :: rest =
            [backslash] ++ quote :: (escaped s ++ quote :: rest) := by
          rw [escaped_cons, escape_quote]
          rfl
        have hback : quote ∉ [backslash] := by decide
        rw [htext, find_key, after_skip _ _ hback, ← find_key]
        by_cases hs : s = k
        · -- this quote, the key and the closing quote
          rw [hs, after_key_literal hk, if_pos (List.suffix_refl _)]
        · have hsuffix : quote :: k <:+ quote :: s ↔ quote :: k <:+ s := by
            rw [List.suffix_cons_iff]
            simp [Ne.symm hs]
          rw [after_cons_of_not_starts (mt (find_key_prefix_literal hk).mp hs), ih]
          simp only [hsuffix]
      · have hsuffix : quote :: k <:+ c :: s ↔ quote :: k <:+ s := by
          rw [List.suffix_cons_iff]
          simp [hc.symm]
        rw [escaped_cons, List.append_assoc, find_key, after_skip _ _ (quote_not_mem_escape hc),
          ← find_key, ih]
        simp only [hsuffix]

/-- The same for a whole literal. -/
theorem after_literal (s rest : Bytes) :
    after (find_key k) (literal s ++ rest) =
      if EndsIn k s then some rest else after (find_key k) (quote :: rest) := by
  have htext : literal s ++ rest = quote :: (escaped s ++ quote :: rest) := by simp [literal]
  by_cases hs : s = k
  · rw [htext, hs, after_key_literal hk, if_pos (.inl rfl)]
  · rw [htext, after_cons_of_not_starts (mt (find_key_prefix_literal hk).mp hs),
      after_escaped hk]
    simp [EndsIn, hs]

/-- Without its closing quote a literal completes no key. -/
theorem not_key_prefix_open {s rest : Bytes} (hrest : quote ∉ rest) :
    ¬ k ++ [quote] <+: escaped s ++ rest := by
  induction k generalizing s with
  | nil =>
      intro hp
      cases s with
      | nil => exact hrest (hp.subset (by simp))
      | cons c s =>
          obtain ⟨d, e, hescape, hd, -⟩ := escape_head c
          rw [escaped_cons, hescape] at hp
          exact hd (List.cons_prefix_cons.mp hp).1.symm
  | cons b k ih =>
      obtain ⟨hb, hk'⟩ := List.forall_mem_cons.mp hk
      intro hp
      cases s with
      | nil => exact hrest (hp.subset (by simp))
      | cons c s =>
          obtain ⟨d, e, hescape, -, ⟨-, rfl, rfl⟩ | ⟨-, rfl, -⟩⟩ := escape_head c
          · rw [escaped_cons, hescape] at hp
            exact ih hk' (List.cons_prefix_cons.mp hp).2
          · rw [escaped_cons, hescape] at hp
            exact hb.2.1 (List.cons_prefix_cons.mp hp).1

theorem after_open (s : Bytes) {rest : Bytes} (hrest : quote ∉ rest) :
    after (find_key k) (quote :: (escaped s ++ rest)) = none := by
  have hquote : ∀ s, after (find_key k) (quote :: (escaped s ++ rest)) =
      after (find_key k) (escaped s ++ rest) := by
    intro s
    apply after_cons_of_not_starts
    rw [find_key, List.cons_prefix_cons]
    exact fun h => not_key_prefix_open hk hrest h.2
  rw [hquote]
  induction s with
  | nil => exact after_eq_none_of_not_mem _ hrest
  | cons c s ih =>
      rcases eq_or_ne c quote with rfl | hc
      · have htext : escaped (quote :: s) ++ rest =
            [backslash] ++ quote :: (escaped s ++ rest) := by
          rw [escaped_cons, escape_quote]
          rfl
        have hback : quote ∉ [backslash] := by decide
        rw [htext, find_key, after_skip _ _ hback, ← find_key, hquote, ih]
      · rw [escaped_cons, List.append_assoc, find_key, after_skip _ _ (quote_not_mem_escape hc),
          ← find_key, ih]

end Search

end DoubleTurnouts
