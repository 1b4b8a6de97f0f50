/-
  DoubleTurnouts.System.PlainRead

  `sample_json_str_get` on plain JSON texts, with its position and its brace
  counter in ints.  Quotes stand only around literals there, so the first
  occurrence of a quoted key is a literal, and the braces of a value balance,
  so the automaton stops where the value ends.  If no literal before a
  top-level key looks like it, its value is read as it stands as long as the
  key's position is below 2^31 and the value nests less than 2^32 braces
  (`sample_json_str_get_plain_iff`).
-/
import Mathlib.Tactic
import DoubleTurnouts.Lib.PlainJson
import DoubleTurnouts.InfraController.ObjectScan
import DoubleTurnouts.System.Parsers

namespace DoubleTurnouts

open Text Decimal JsonText PlainJson

/-! ## Searching -/

/-- The text does not begin with a byte of a key. -/
def Stops (rest : Bytes) : Prop := ∀ c ∈ rest.head?, Channel.isWord c = false

theorem stops_cons {c : UInt8} {rest : Bytes} (h : Channel.isWord c = false) :
    Stops (c :: rest) := by
  intro d hd
  obtain rfl := Option.some.inj hd
  exact h

theorem Stops.spaces {rest : Bytes} (h : Stops rest) (n : Nat) : Stops (spaces n ++ rest) := by
  cases n with
  | zero => exact h
  | succ n => exact stops_cons (by decide)

theorem quote_not_mem_spaces (n : Nat) : quote ∉ spaces n := by
  intro h
  exact absurd (mem_spaces h) (by decide)

/-- A stretch without quotes is passed over. -/
theorem after_no_quote (k : Bytes) {seg : Bytes} (h : quote ∉ seg) (rest : Bytes) :
    after (find_key k) (seg ++ rest) = after (find_key k) rest := after_skip _ _ h

/-- The search for `k` passes over `t`, if no key can begin where it ends. -/
def Passes (k t : Bytes) : Prop :=
  ∀ rest, Stops rest → after (find_key k) (t ++ rest) = after (find_key k) rest

theorem passes_of_no_quote (k : Bytes) {t : Bytes} (h : quote ∉ t) : Passes k t :=
  fun rest _ => after_no_quote k h rest

section Search

variable {k : Bytes} (hk : IsWordKey k)

include hk

/-- A literal that is not the key. -/
theorem passes_quoted {s : Bytes} (hs : IsPlain s) (hne : k ≠ s) : Passes k (quoted s) := by
  intro rest hrest
  have hquote : quote ∉ s := fun h => (hs _ h).1 rfl
  have hback : backslash ∉ s := fun h => (hs _ h).2.1 rfl
  have hopen : ¬ find_key k <+: quote :: (s ++ quote :: rest) := by
    rw [find_key_starts_literal hk.isKey.plain (isBody_of_not_mem hquote hback)]
    exact hne.symm
  -- at the closing quote a key would have to begin with the next byte
  have hclose : ¬ find_key k <+: quote :: rest := by
    cases hkey : k with
    | nil => exact absurd hkey hk.1
    | cons c k' =>
        cases rest with
        | nil => simp [find_key]
        | cons d rest =>
            have hc : Channel.isWord c = true := List.all_eq_true.mp hk.2 c (by simp [hkey])
            have hd : Channel.isWord d = false := hrest d rfl
            have hcd : c ≠ d := by
              rintro rfl
              rw [hc] at hd
              cases hd
            simp [find_key, List.cons_prefix_cons, hcd]
  rw [show quoted s ++ rest = quote :: (s ++ quote :: rest) by simp [quoted],
    after_cons_of_not_starts hopen, after_no_quote k hquote, after_cons_of_not_starts hclose]

omit hk in
theorem passes_spaced {t : Bytes} (h : Passes k t) (a d : Nat) :
    Passes k (spaces a ++ (t ++ spaces d)) := by
  intro rest hrest
  rw [List.append_assoc, after_no_quote k (quote_not_mem_spaces a), List.append_assoc,
    h _ (hrest.spaces d), after_no_quote k (quote_not_mem_spaces d)]

omit hk in
/-- A text between two brackets or braces. -/
theorem passes_enclosed {t : Bytes} (h : Passes k t) {x y : UInt8} (hx : x ≠ quote)
    (hy : y ≠ quote) (hword : Channel.isWord y = false) : Passes k ([x] ++ (t ++ [y])) := by
  intro rest hrest
  have hx' : quote ∉ [x] := by simpa using hx.symm
  have hy' : quote ∉ [y] := by simpa using hy.symm
  have hstops : Stops ([y] ++ rest) := stops_cons hword
  rw [List.append_assoc, after_no_quote k hx', List.append_assoc, h _ hstops, after_no_quote k hy']

theorem passes_member {key t : Bytes} (hkey : IsPlain key) (hne : k ≠ key) (h : Passes k t)
    (a b c d : Nat) : Passes k (memberText a key b c t d) := by
  intro rest hrest
  have hcolon : quote ∉ str ":" := by decide
  have hstops : Stops (spaces b ++ (str ":" ++ (spaces c ++ (t ++ (spaces d ++ rest))))) :=
    Stops.spaces (stops_cons (by decide)) b
  simp only [memberText, keyText, List.append_assoc]
  rw [after_no_quote k (quote_not_mem_spaces a), passes_quoted hk hkey hne _ hstops,
    after_no_quote k (quote_not_mem_spaces b), after_no_quote k hcolon,
    after_no_quote k (quote_not_mem_spaces c), h _ (hrest.spaces d),
    after_no_quote k (quote_not_mem_spaces d)]

omit hk in
theorem passes_comma {t t' : Bytes} (h : Passes k t) (h' : Passes k t') :
    Passes k (t ++ (str "," ++ t')) := by
  intro rest hrest
  have hcomma : quote ∉ str "," := by decide
  have hstops : Stops (str "," ++ (t' ++ rest)) := stops_cons (by decide)
  rw [List.append_assoc, List.append_assoc, h _ hstops, after_no_quote k hcomma, h' rest hrest]

/-- A derived text without the key among its literals. -/
theorem passes_derives {kind : Kind} {t : Bytes} {ls : List Bytes} (h : Derives kind t ls)
    (hls : k ∉ ls) : Passes k t := by
  induction h with
  | string hs => exact passes_quoted hk hs (by simpa using hls)
  | scalar ht =>
      refine passes_of_no_quote k fun hmem => ?_
      exact absurd (ht.bytes _ hmem) (by decide)
  | emptyArray n =>
      exact passes_enclosed (passes_of_no_quote k (quote_not_mem_spaces n)) (by decide) (by decide)
        (by decide)
  | array _ ih => exact passes_enclosed (ih hls) (by decide) (by decide) (by decide)
  | emptyObject n =>
      exact passes_enclosed (passes_of_no_quote k (quote_not_mem_spaces n)) (by decide) (by decide)
        (by decide)
  | object _ ih => exact passes_enclosed (ih hls) (by decide) (by decide) (by decide)
  | item a d _ ih => exact passes_spaced (ih hls) a d
  | moreItems a d _ _ ih ih' =>
      rw [List.mem_append, not_or] at hls
      exact passes_comma (passes_spaced (ih hls.1) a d) (ih' hls.2)
  | member a b c d hkey _ ih =>
      rw [List.mem_cons, not_or] at hls
      exact passes_member hk hkey hls.1 (ih hls.2) a b c d
  | moreMembers a b c d hkey _ _ ih ih' =>
      rw [List.mem_cons, List.mem_append, not_or, not_or] at hls
      exact passes_comma (passes_member hk hkey hls.1 (ih hls.2.1) a b c d) (ih' hls.2.2)

/-- The search finds the top-level key. -/
theorem after_topLevel {v pre post : Bytes} {before : List Bytes}
    (h : TopLevel k v pre post before) (hbefore : k ∉ before) :
    ∃ b c, ∀ rest, after (find_key k) (pre ++ rest) =
      some (spaces b ++ (str ":" ++ (spaces c ++ rest))) := by
  have hown : ∀ a b c rest, after (find_key k) (keyText a k b c ++ rest) =
      some (spaces b ++ (str ":" ++ (spaces c ++ rest))) := by
    intro a b c rest
    simp only [keyText, List.append_assoc]
    rw [after_no_quote k (quote_not_mem_spaces a)]
    exact after_self_append _ _
  -- on the members in front of the key, each of which is passed
  induction h with
  | last a b c d _ => exact ⟨b, c, hown a b c⟩
  | here a b c d _ _ => exact ⟨b, c, hown a b c⟩
  | @later key t pre post ls before a b c d hkey h _ ih =>
      rw [List.mem_cons, List.mem_append, not_or, not_or] at hbefore
      have hcomma : quote ∉ str "," := by decide
      have hpasses := passes_member hk hkey hbefore.1 (passes_derives hk h hbefore.2.1) a b c d
      obtain ⟨b', c', hafter⟩ := ih hbefore.2.2
      refine ⟨b', c', fun rest => ?_⟩
      have hstops : Stops (str "," ++ (pre ++ rest)) := stops_cons (by decide)
      rw [List.append_assoc, List.append_assoc, hpasses _ hstops, after_no_quote k hcomma]
      exact hafter rest

end Search

/-! ## Braces -/

/-- As many closing braces as opening ones, and never more. -/
structure Balanced (t : Bytes) : Prop where
  balance : balance t = 0
  staysOpen : ∀ f, 0 < f → StaysOpen f t

theorem balanced_of_no_brace {t : Bytes} (h : ch '{' ∉ t ∧ ch '}' ∉ t) : Balanced t :=
  ⟨balance_of_no_brace h, fun _ hf => staysOpen_of_no_brace hf h⟩

theorem Balanced.append {t t' : Bytes} (h : Balanced t) (h' : Balanced t') :
    Balanced (t ++ t') := by
  refine ⟨by rw [balance_append, h.balance, h'.balance, add_zero], fun f hf => ?_⟩
  rw [staysOpen_append hf, h.balance, add_zero]
  exact ⟨h.staysOpen f hf, h'.staysOpen f hf⟩

theorem Balanced.braces {t : Bytes} (h : Balanced t) :
    Balanced (str "\x7b" ++ (t ++ str "\x7d")) := by
  have hopen : DoubleTurnouts.balance (str "\x7b") = 1 := by decide
  have hclose : DoubleTurnouts.balance (str "\x7d") = -1 := by decide
  refine ⟨by rw [balance_append, balance_append, hopen, h.balance, hclose]; rfl, fun f hf => ?_⟩
  -- between the braces the flag is one higher, so that it is positive up to the closing one
  have hf1 : 0 < f + 1 := by omega
  rw [staysOpen_append hf, hopen, staysOpen_append hf1, h.balance, add_zero]
  refine ⟨?_, h.staysOpen _ hf1, ?_⟩
  · rw [show str "\x7b" = ch '{' :: [] from rfl, staysOpen_cons hf]
    exact ⟨by rw [show DoubleTurnouts.balance [ch '{'] = 1 from hopen]; omega, staysOpen_nil (by
      rw [show DoubleTurnouts.balance [ch '{'] = 1 from hopen]; omega)⟩
  · rw [show str "\x7d" = ch '}' :: [] from rfl, staysOpen_cons hf1,
      show DoubleTurnouts.balance [ch '}'] = -1 from hclose]
    exact ⟨by omega, staysOpen_nil (by omega)⟩

theorem balanced_spaces (n : Nat) : Balanced (spaces n) := by
  apply balanced_of_no_brace
  exact ⟨fun h => absurd (mem_spaces h) (by decide), fun h => absurd (mem_spaces h) (by decide)⟩

theorem balanced_quoted {s : Bytes} (hs : IsPlain s) : Balanced (quoted s) := by
  apply balanced_of_no_brace
  constructor
  · intro h
    simp only [quoted, List.mem_cons, List.mem_append, List.not_mem_nil, or_false] at h
    rcases h with h | h | h
    · exact absurd h (by decide)
    · exact (hs _ h).2.2.1 rfl
    · exact absurd h (by decide)
  · intro h
    simp only [quoted, List.mem_cons, List.mem_append, List.not_mem_nil, or_false] at h
    rcases h with h | h | h
    · exact absurd h (by decide)
    · exact (hs _ h).2.2.2 rfl
    · exact absurd h (by decide)

theorem balanced_derives {kind : Kind} {t : Bytes} {ls : List Bytes} (h : Derives kind t ls) :
    Balanced t := by
  have hpunct : ∀ c ∈ [str "[", str "]", str ",", str ":"], Balanced c := by
    intro c hc
    apply balanced_of_no_brace
    simp only [List.mem_cons, List.not_mem_nil, or_false] at hc
    rcases hc with rfl | rfl | rfl | rfl <;> decide
  have hmember : ∀ {key t : Bytes} (a b c d : Nat), IsPlain key → Balanced t →
      Balanced (memberText a key b c t d) := by
    intro key t a b c d hkey ht
    have hkeyText : Balanced (keyText a key b c) :=
      (balanced_spaces a).append ((balanced_quoted hkey).append ((balanced_spaces b).append
        ((hpunct _ (by simp)).append (balanced_spaces c))))
    exact hkeyText.append (ht.append (balanced_spaces d))
  induction h with
  | string hs => exact balanced_quoted hs
  | scalar ht =>
      apply balanced_of_no_brace
      exact ⟨fun h => absurd (ht.bytes _ h) (by decide), fun h => absurd (ht.bytes _ h) (by decide)⟩
  | emptyArray n =>
      exact (hpunct _ (by simp)).append ((balanced_spaces n).append (hpunct _ (by simp)))
  | array _ ih => exact (hpunct _ (by simp)).append (ih.append (hpunct _ (by simp)))
  | emptyObject n => exact (balanced_spaces n).braces
  | object _ ih => exact ih.braces
  | item a d _ ih => exact (balanced_spaces a).append (ih.append (balanced_spaces d))
  | moreItems a d _ _ ih ih' =>
      exact ((balanced_spaces a).append (ih.append (balanced_spaces d))).append
        ((hpunct _ (by simp)).append ih')
  | member a b c d hkey _ ih => exact hmember a b c d hkey ih
  | moreMembers a b c d hkey _ _ ih ih' =>
      exact (hmember a b c d hkey ih).append ((hpunct _ (by simp)).append ih')

/-- Nowhere in the text are 2^32 braces open. -/
def Shallow (v : Bytes) : Prop := ∀ p, p <+: v → balance p < 2 ^ 32

/-- Braces open and close one at a time, so no depth is left out on the way to a higher one. -/
theorem exists_balance_eq {s : Bytes} {n : Int} (hn : 0 ≤ n) (h : n ≤ balance s) :
    ∃ p, p <+: s ∧ balance p = n := by
  induction s using List.reverseRecOn with
  | nil =>
      rw [balance_nil] at h
      exact ⟨[], List.nil_prefix, by rw [balance_nil]; omega⟩
  | append_singleton s c ih =>
      by_cases hle : n ≤ balance s
      · obtain ⟨p, hp, hbal⟩ := ih hle
        exact ⟨p, hp.trans (List.prefix_append s [c]), hbal⟩
      · refine ⟨s ++ [c], List.prefix_refl _, ?_⟩
        rw [balance_append, balance_singleton] at h ⊢
        split_ifs at h ⊢ <;> omega

/-- Inside balanced braces the int comes to zero exactly if 2^32 of them are open. -/
theorem unclosed_iff_shallow {t : Bytes} (ht : Balanced t) :
    Unclosed wrap32 t ↔ Shallow (ch '{' :: (t ++ [ch '}'])) := by
  have hcons : ∀ p, balance (ch '{' :: p) = 1 + balance p := fun p => balance_append [ch '{'] p
  constructor
  · intro hunclosed p hp
    cases p with
    | nil => decide
    | cons c p =>
        obtain ⟨rfl, hinner⟩ := List.cons_prefix_cons.mp hp
        rw [hcons]
        rcases List.prefix_concat_iff.mp hinner with rfl | hp
        · rw [balance_append, ht.balance]
          decide
        · by_contra hdeep
          -- on the way there the int has been zero
          have hup : 2 ^ 32 - 1 ≤ balance p := by omega
          obtain ⟨q, hq, hbal⟩ := exists_balance_eq (by decide) hup
          apply hunclosed q (hq.trans hp)
          rw [hbal]
          decide
  · intro hshallow p hp hzero
    have hpos := ht.staysOpen 1 Int.one_pos p hp
    have hlt := hshallow (ch '{' :: p)
      (List.cons_prefix_cons.mpr ⟨rfl, hp.trans (List.prefix_append t _)⟩)
    rw [hcons] at hlt
    have hdvd := Int.dvd_of_bmod_eq_zero (a := 4294967296) hzero
    omega

theorem shallow_of_no_brace {v : Bytes} (h : ch '{' ∉ v ∧ ch '}' ∉ v) : Shallow v := by
  intro p hp
  rw [balance_of_no_brace ⟨fun hmem => h.1 (hp.subset hmem), fun hmem => h.2 (hp.subset hmem)⟩]
  decide

theorem shallow_of_length {v : Bytes} (h : v.length < 2 ^ 32) : Shallow v := by
  intro p hp
  have hcount : p.count (ch '{') ≤ p.length := List.count_le_length
  have hle := hp.length_le
  rw [balance]
  omega

/-! ## Reading a value -/

/-- What should be read of a value: the contents of a string, the text of a scalar or of an
    object. -/
inductive Reads : Bytes → Bytes → Prop
  | string {s : Bytes} (hs : IsPlain s) : Reads (quoted s) s
  | scalar {t : Bytes} (ht : IsScalar t) : Reads t t
  | emptyObject (n : Nat) :
      Reads (str "\x7b" ++ (spaces n ++ str "\x7d")) (str "\x7b" ++ (spaces n ++ str "\x7d"))
  | object {t : Bytes} {ls : List Bytes} (h : Derives .members t ls) :
      Reads (str "\x7b" ++ (t ++ str "\x7d")) (str "\x7b" ++ (t ++ str "\x7d"))

/-- What follows a value shows where it ends.  A string and an object end by themselves. -/
def Delimits (rest v : Bytes) : Prop :=
  IsScalar v → ∃ d c x, rest = spaces d ++ c :: x ∧ (c = ch ',' ∨ c = ch '}')

section Value

variable (b c : Nat)

theorem quiet_spaces (n : Nat) : Quiet (spaces n) := by
  intro d hd
  rw [mem_spaces hd]
  decide

theorem quiet_append {s t : Bytes} (hs : Quiet s) (ht : Quiet t) : Quiet (s ++ t) :=
  List.forall_mem_append.mpr ⟨hs, ht⟩

theorem quiet_colon : Quiet (spaces b ++ (str ":" ++ spaces c)) :=
  quiet_append (quiet_spaces b) (quiet_cons.mpr ⟨by decide, quiet_spaces c⟩)

theorem filter_spaces (n : Nat) : (spaces n).filter (fun x => x ≠ ch ':' ∧ x ≠ ch ' ') = [] := by
  rw [List.filter_eq_nil_iff]
  intro x hx
  simp [mem_spaces hx]

/-- Of the text between a key and its value nothing is kept. -/
theorem copied_colon (t : Bytes) : copied ((spaces b ++ (str ":" ++ spaces c)) ++ t) =
    t.filter fun x => x ≠ ch ':' ∧ x ≠ ch ' ' := by
  have hdrop : (spaces b).dropWhile (· ≠ ch ':') = [] := by
    induction b with
    | zero => rfl
    | succ b ih =>
        rw [spaces, List.replicate_succ, List.dropWhile_cons_of_pos (by decide)]
        exact ih
  have hspaces := filter_spaces c
  have hcolon : (str ":" ++ (spaces c ++ t)).dropWhile (· ≠ ch ':') =
      ch ':' :: (spaces c ++ t) := rfl
  rw [copied, List.append_assoc, List.dropWhile_append, hdrop, List.isEmpty_nil, if_pos rfl,
    List.append_assoc, hcolon, List.filter_cons_of_neg (by simp), List.filter_append, hspaces,
    List.nil_append]

theorem copied_gap : copied (spaces b ++ (str ":" ++ spaces c)) = [] := by
  simpa using copied_colon b c []

theorem quiet_scalar {t : Bytes} (ht : IsScalar t) : Quiet t ∧
    t.filter (fun x => x ≠ ch ':' ∧ x ≠ ch ' ') = t := by
  -- no byte of a scalar is one of those state 0 acts on
  have hother : ∀ n < 256, isScalarByte (UInt8.ofNat n) = true →
      (UInt8.ofNat n ≠ quote ∧ UInt8.ofNat n ≠ ch '{' ∧ UInt8.ofNat n ≠ ch ',' ∧
        UInt8.ofNat n ≠ ch '}') ∧ UInt8.ofNat n ≠ ch ':' ∧ UInt8.ofNat n ≠ ch ' ' := by
    decide +kernel
  have hbyte : ∀ x ∈ t, (x ≠ quote ∧ x ≠ ch '{' ∧ x ≠ ch ',' ∧ x ≠ ch '}') ∧
      x ≠ ch ':' ∧ x ≠ ch ' ' := by
    intro x hx
    simpa using hother x.toNat x.toNat_lt (by simpa using ht.bytes x hx)
  exact ⟨fun x hx => (hbyte x hx).1, List.filter_eq_self.mpr fun x hx => by
    simpa using (hbyte x hx).2⟩

/-- An object that has fewer than 2^32 braces open is read, a deeper one is cut off. -/
theorem yields_braces_iff {t : Bytes} (ht : Balanced t) (rest : Bytes) :
    Yields wrap32 ((spaces b ++ (str ":" ++ spaces c)) ++ ch '{' :: (t ++ ch '}' :: rest))
      (ch '{' :: (t ++ [ch '}'])) ↔ Shallow (ch '{' :: (t ++ [ch '}'])) := by
  have hnil := copied_gap b c
  have hquiet := quiet_colon b c
  rw [← unclosed_iff_shallow ht]
  constructor
  · intro hread
    rcases unclosed_or_exists stores_wrap32 t with hopen | ⟨obj, d, rest', rfl, hobj, hd⟩
    · exact hopen
    · -- what is read ends inside the object
      have hcut : Yields wrap32
          ((spaces b ++ (str ":" ++ spaces c)) ++ ch '{' :: (obj ++ d :: (rest' ++ ch '}' :: rest)))
          (copied (spaces b ++ (str ":" ++ spaces c)) ++ ch '{' :: (obj ++ [d])) :=
        .object hquiet hobj hd
      have heq := (hcut.result stores_wrap32).symm.trans (Yields.result stores_wrap32
        (by simpa using hread))
      have hlen := congrArg List.length heq
      simp only [hnil, List.nil_append, List.length_cons, List.length_append, List.length_nil]
        at hlen
      omega
  · intro hopen
    have hclose : wrap32 (1 + balance (t ++ [ch '}'])) = 0 := by
      rw [balance_append, ht.balance]
      decide
    have hread := @Yields.object wrap32 _ _ rest _ hquiet hopen hclose
    simpa only [hnil, List.nil_append] using hread

/-- A value that what follows delimits is read exactly if it is shallow. -/
theorem yields_value_iff {v content : Bytes} (h : Reads v content) {rest : Bytes}
    (hrest : Delimits rest v) :
    Yields wrap32 ((spaces b ++ (str ":" ++ spaces c)) ++ (v ++ rest)) content ↔ Shallow v := by
  have hquiet := quiet_colon b c
  cases h with
  | string hs =>
      have hquote : quote ∉ content := fun h => (hs _ h).1 rfl
      have hlast : content.getLast? ≠ some backslash :=
        fun h => (hs _ (List.mem_of_getLast? h)).2.1 rfl
      have hnil := copied_gap b c
      have hread := @Yields.string wrap32 _ _ rest hquiet
        (Scan.noClose_of_not_mem hquote quote) hlast
      rw [hnil, List.nil_append] at hread
      have hbrace : ch '{' ∉ quoted content ∧ ch '}' ∉ quoted content := by
        have hopen : ch '{' ∉ content := fun h => (hs _ h).2.2.1 rfl
        have hclose : ch '}' ∉ content := fun h => (hs _ h).2.2.2 rfl
        simp [quoted, hopen, hclose, show ch '{' ≠ ch '"' by decide, show ch '}' ≠ ch '"' by decide]
      refine iff_of_true ?_ (shallow_of_no_brace hbrace)
      simpa [quoted] using hread
  | scalar ht =>
      obtain ⟨d, x, y, rfl, hx⟩ := hrest ht
      obtain ⟨hquietv, hkeep⟩ := quiet_scalar ht
      have hread := @Yields.scalar wrap32 _ y _
        (quiet_append hquiet (quiet_append hquietv (quiet_spaces d))) hx
      rw [copied_colon, List.filter_append, hkeep, filter_spaces, List.append_nil] at hread
      refine iff_of_true (by simpa using hread) (shallow_of_no_brace ⟨fun h => ?_, fun h => ?_⟩)
      · exact absurd (ht.bytes _ h) (by decide)
      · exact absurd (ht.bytes _ h) (by decide)
  | emptyObject n => simpa [str] using yields_braces_iff b c (balanced_spaces n) rest
  | object h => simpa [str] using yields_braces_iff b c (balanced_derives h) rest

end Value

/-! ## Correctness on plain texts -/

/-- The members that follow, or the closing brace, delimit the value. -/
theorem delimits_topLevel {k v pre post : Bytes} {before : List Bytes}
    (h : TopLevel k v pre post before) (n : Nat) :
    Delimits (post ++ (str "\x7d" ++ spaces n)) v := by
  intro hv
  induction h with
  | last a b c d _ => exact ⟨d, ch '}', spaces n, rfl, .inr rfl⟩
  | @here t' ls ls' a b c d _ _ =>
      exact ⟨d, ch ',', t' ++ (str "\x7d" ++ spaces n), by simp [str], .inl rfl⟩
  | later a b c d _ _ _ ih => exact ih

/-- The text up to the value and what is put behind it. -/
def withRest (m : Nat) (pre v rest : Bytes) : Bytes :=
  spaces m ++ (str "\x7b" ++ (pre ++ (v ++ rest)))

/-- The value of the key is read from the object, and whatever else follows it. -/
def PlainRead (k : Bytes) (m : Nat) (pre v post : Bytes) (n : Nat) (content : Bytes) : Prop :=
  Sized.sample_json_str_get (objectText m (pre ++ (v ++ post)) n) k = .ok content ∧
    ∀ rest, Delimits rest v → Sized.sample_json_str_get (withRest m pre v rest) k = .ok content

/-- The place a position is cast to lies in the text, and what stands there spells the same
    whatever follows the value. -/
def SpeltElsewhere (k : Bytes) (m : Nat) (pre v : Bytes) (pos : Nat) (content : Bytes) : Prop :=
  (wrap32 pos = -1 ∧ content = []) ∨ wrap32 pos ≠ -1 ∧
    0 ≤ wrap32 pos + (find_key k).length ∧ ∀ rest, Delimits rest v →
      Yields wrap32 ((withRest m pre v rest).drop (wrap32 pos + (find_key k).length).toNat) content

/-- The key stands at one position, whatever follows the value. -/
theorem exists_position {k v pre post : Bytes} {before : List Bytes} (hk : IsWordKey k)
    (h : TopLevel k v pre post before) (hbefore : k ∉ before) (m : Nat) :
    ∃ pos b c, ∀ rest, find (find_key k) (withRest m pre v rest) = some pos ∧
      (withRest m pre v rest).drop (pos + (find_key k).length) =
        (spaces b ++ (str ":" ++ spaces c)) ++ (v ++ rest) := by
  have hbrace : quote ∉ str "\x7b" := by decide
  obtain ⟨b, c, hafter⟩ := after_topLevel hk h hbefore
  -- the position follows from the lengths of the text and of what stands behind the key
  have hfind : ∀ rest, ∃ pos, find (find_key k) (withRest m pre v rest) = some pos ∧
      (withRest m pre v rest).drop (pos + (find_key k).length) =
        (spaces b ++ (str ":" ++ spaces c)) ++ (v ++ rest) ∧
      pos + (find_key k).length + (b + 1 + c) = m + 1 + pre.length := by
    intro rest
    have hrest := hafter (v ++ rest)
    rw [← after_no_quote k hbrace, ← after_no_quote k (quote_not_mem_spaces m), ← withRest,
      after_eq_find, Option.map_eq_some_iff] at hrest
    obtain ⟨pos, hpos, hdrop⟩ := hrest
    have hfits := Sized.find_key_fits hpos
    have hlen := congrArg List.length hdrop
    refine ⟨pos, hpos, by simpa using hdrop, ?_⟩
    have hopen : (str "\x7b").length = 1 := rfl
    have hcolon : (str ":").length = 1 := rfl
    simp only [withRest, spaces, List.length_drop, List.length_append, List.length_replicate, hopen,
      hcolon] at hlen hfits
    omega
  obtain ⟨pos, -, -, hsum⟩ := hfind []
  refine ⟨pos, b, c, fun rest => ?_⟩
  obtain ⟨pos', hpos', hdrop', hsum'⟩ := hfind rest
  obtain rfl : pos' = pos := by omega
  exact ⟨hpos', hdrop'⟩

/-- A top-level member of a plain object, none of the literals before whose key equals the key,
    is read as it stands exactly if the key's position is below 2^31 and the value is shallow;
    from 2^31 on, only if another place of the text spells the same. -/
theorem sample_json_str_get_plain_iff {k v pre post content : Bytes} {before : List Bytes}
    (hk : IsWordKey k) (h : TopLevel k v pre post before) (hbefore : k ∉ before)
    (hread : Reads v content) (m n : Nat) :
    ∃ pos, find (find_key k) (objectText m (pre ++ (v ++ post)) n) = some pos ∧
      (PlainRead k m pre v post n content ↔ (pos < 2 ^ 31 ∧ Shallow v) ∨
        (2 ^ 31 ≤ pos ∧ SpeltElsewhere k m pre v pos content)) := by
  obtain ⟨pos, b, c, hpos⟩ := exists_position hk h hbefore m
  have htext : objectText m (pre ++ (v ++ post)) n =
      withRest m pre v (post ++ (str "\x7d" ++ spaces n)) := by
    simp [objectText, withRest]
  have hdelimits := delimits_topLevel h n
  have hall : PlainRead k m pre v post n content ↔ ∀ rest, Delimits rest v →
      Sized.sample_json_str_get (withRest m pre v rest) k = .ok content := by
    rw [PlainRead, htext]
    exact and_iff_right_of_imp fun hall => hall _ hdelimits
  refine ⟨pos, by rw [htext]; exact (hpos _).1, ?_⟩
  rw [hall]
  by_cases hlt : pos < 2 ^ 31
  · rw [and_iff_right hlt, or_iff_left fun h => absurd h.1 (not_le.mpr hlt)]
    have hone : ∀ rest, Delimits rest v → (Sized.sample_json_str_get (withRest m pre v rest) k =
        .ok content ↔ Shallow v) := by
      intro rest hrest
      rw [Sized.sample_json_str_get_eq_ok_iff_of_lt (hpos rest).1 hlt, (hpos rest).2,
        yields_value_iff b c hread hrest]
    exact ⟨fun h => (hone _ hdelimits).mp (h _ hdelimits), fun h rest hrest =>
      (hone rest hrest).mpr h⟩
  · rw [and_iff_right (not_lt.mp hlt), or_iff_right fun h => absurd h.1 hlt]
    have hone : ∀ rest, Sized.sample_json_str_get (withRest m pre v rest) k = .ok content ↔ _ :=
      fun rest => Sized.sample_json_str_get_eq_ok_iff (hpos rest).1
    simp only [hone, SpeltElsewhere]
    constructor
    · intro h
      rcases h _ hdelimits with hnpos | ⟨hne, hplace, -⟩
      · exact .inl hnpos
      · exact .inr ⟨hne, hplace, fun rest hrest => by
          rcases h rest hrest with hnpos | hthere
          · exact absurd hnpos.1 hne
          · exact hthere.2.2⟩
    · rintro (hnpos | ⟨hne, hplace, hthere⟩) rest hrest
      · exact .inl hnpos
      · exact .inr ⟨hne, hplace, hthere rest hrest⟩

theorem isScalar_digits {t : Bytes} (h : IsDigits t) : IsScalar t :=
  .inr (.inr (.inr ⟨[], t, [], [], by simp, .inl rfl, h, .inl rfl, .inl rfl⟩))

/-- The members of a nested object, with an array and one more object inside. -/
def modelMembers : Bytes :=
  memberText 0 (str "model") 0 1 (quoted (str "qwen")) 0 ++ (str "," ++
    (memberText 1 (str "stop") 0 1 (str "[" ++ ((spaces 0 ++ (str "1" ++ spaces 0)) ++
      (str "," ++ (spaces 1 ++ (str "23" ++ spaces 0))) ++ str "]")) 0 ++
        (str "," ++ memberText 1 (str "opt") 0 1 (str "\x7b" ++ (spaces 0 ++ str "\x7d")) 1)))

theorem derives_modelMembers :
    ∃ ls, Derives .members modelMembers ls :=
  ⟨_, .moreMembers 0 0 1 0 (by decide) (.string (by decide))
    (.moreMembers 1 0 1 0 (by decide)
      (.array (.moreItems 0 0 (.scalar (isScalar_digits ⟨by decide, by decide⟩))
        (.item 1 0 (.scalar (isScalar_digits ⟨by decide, by decide⟩)))))
      (.member 1 0 1 1 (by decide) (.emptyObject 0)))⟩

/-- A nested object in a short text is read as it stands. -/
theorem sample_json_str_get_plain_iff_model :
    Sized.sample_json_str_get
      (str "\x7b\"action\": \"setup\", \"data\": " ++
        str "\x7b\"model\": \"qwen\", \"stop\": [1, 23], \"opt\": \x7b\x7d \x7d" ++
        str ", \"seed\": 7\x7d ")
      (str "data") =
        .ok (str "\x7b\"model\": \"qwen\", \"stop\": [1, 23], \"opt\": \x7b\x7d \x7d") := by
  obtain ⟨ls, hmodel⟩ := derives_modelMembers
  have hseed : Derives .members (memberText 1 (str "seed") 0 1 (str "7") 0) [str "seed"] :=
    .member 1 0 1 0 (by decide) (.scalar (isScalar_digits ⟨by decide, by decide⟩))
  have htop : TopLevel (str "data") (str "\x7b" ++ (modelMembers ++ str "\x7d"))
      (memberText 0 (str "action") 0 1 (quoted (str "setup")) 0 ++
        (str "," ++ keyText 1 (str "data") 0 1))
      (spaces 0 ++ (str "," ++ memberText 1 (str "seed") 0 1 (str "7") 0)) _ :=
    .later 0 0 1 0 (by decide) (.string (by decide)) (.here 1 0 1 0 (.object hmodel) hseed)
  obtain ⟨pos, hpos, hiff⟩ := sample_json_str_get_plain_iff ⟨by decide, by decide⟩ htop (by decide)
    (.object hmodel) 0 1
  have hlt : pos < 2 ^ 31 := by
    have hfits := Sized.find_key_fits hpos
    exact lt_of_le_of_lt (Nat.le_of_add_right_le hfits) (by decide +kernel)
  have hread := (hiff.mpr (.inl ⟨hlt, shallow_of_length (by decide +kernel)⟩)).1
  convert hread using 2
  · decide +kernel
  · decide +kernel

/-- The members of an object up to the value of `k`, behind a string of `n` letters. -/
def farMembers (n : Nat) : Bytes :=
  memberText 0 (str "a") 0 0 (quoted (List.replicate n (ch 'x'))) 0 ++
    (str "," ++ keyText 0 (str "k") 0 0)

theorem isPlain_letters (n : Nat) : IsPlain (List.replicate n (ch 'x')) := by
  intro c hc
  rw [List.eq_of_mem_replicate hc]
  decide

theorem topLevel_farMembers (n : Nat) : TopLevel (str "k") (str "1") (farMembers n) (spaces 0)
    (str "a" :: ([List.replicate n (ch 'x')] ++ [])) :=
  .later 0 0 0 0 (by decide) (.string (isPlain_letters n))
    (.last 0 0 0 0 (.scalar (isScalar_digits ⟨by decide, by decide⟩)))

theorem not_mem_farMembers {n : Nat} (hn : 1 < n) :
    str "k" ∉ str "a" :: ([List.replicate n (ch 'x')] ++ []) := by
  intro h
  simp only [List.cons_append, List.nil_append, List.mem_cons, List.not_mem_nil, or_false] at h
  rcases h with h | h
  · exact absurd h (by decide)
  · have hlen := congrArg List.length h
    rw [List.length_replicate] at hlen
    have hone : (str "k").length = 1 := rfl
    omega

/-- From 2^31 letters on the key's position is negative as an int, and `substr` throws. -/
theorem farMembers_throws {n : Nat} (hlo : 2 ^ 31 ≤ n) (hhi : n < 2 ^ 32 - 16) :
    Sized.sample_json_str_get (objectText 0 (farMembers n ++ (str "1" ++ spaces 0)) 0) (str "k") =
      .error .out_of_range := by
  have hkey : IsWordKey (str "k") := ⟨by decide, by decide⟩
  have hne : str "k" ≠ List.replicate n (ch 'x') := by
    intro h
    exact not_mem_farMembers (n := n) (by omega) (by rw [← h]; simp)
  have hafter : after (find_key (str "k"))
      (objectText 0 (farMembers n ++ (str "1" ++ spaces 0)) 0) = some (str ":1\x7d") := by
    have hother : IsPlain (str "a") ∧ str "k" ≠ str "a" := by decide
    have hpasses := passes_member hkey hother.1 hother.2
      (passes_quoted hkey (isPlain_letters n) hne) 0 0 0 0
    have hstops : Stops (str ",\"k\":1\x7d") := stops_cons (by decide)
    have hbrace : quote ∉ str "\x7b" := by decide
    have hcomma : quote ∉ str "," := by decide
    have htext : objectText 0 (farMembers n ++ (str "1" ++ spaces 0)) 0 =
        str "\x7b" ++ (memberText 0 (str "a") 0 0 (quoted (List.replicate n (ch 'x'))) 0 ++
          str ",\"k\":1\x7d") := by
      simp only [objectText, farMembers, List.append_assoc]
      rfl
    rw [htext, after_no_quote _ hbrace, hpasses _ hstops]
    decide
  rw [after_eq_find, Option.map_eq_some_iff] at hafter
  obtain ⟨pos, hpos, hdrop⟩ := hafter
  have hfits := Sized.find_key_fits hpos
  -- three bytes stand behind the key, so its position is that of the last but one quote
  have hlen := congrArg List.length hdrop
  have hkeyLen : (find_key (str "k")).length = 3 := rfl
  have htextLen : (objectText 0 (farMembers n ++ (str "1" ++ spaces 0)) 0).length = n + 14 := by
    have hone : ∀ c ∈ [str "a", str "k", str "1", str ":", str ",", str "\x7b", str "\x7d"],
        c.length = 1 := by decide
    simp only [List.forall_mem_cons] at hone
    simp only [objectText, farMembers, memberText, keyText, quoted, spaces, List.replicate_zero,
      List.nil_append, List.append_nil, List.length_append, List.length_cons, List.length_nil,
      List.length_replicate, hone]
    omega
  have hthree : (str ":1\x7d").length = 3 := rfl
  rw [List.length_drop, hkeyLen, htextLen, hthree] at hlen
  have hcast : wrap32 pos = (pos : Int) - 4294967296 := by
    have hadd : wrap32 ((pos : Int) - 4294967296) = wrap32 pos := by
      rw [wrap32, wrap32]
      exact Int.sub_bmod_right _ _
    rw [← hadd]
    exact wrap32_of_isInt32 ⟨by omega, by omega⟩
  have hstart : Sized.subs_start (objectText 0 (farMembers n ++ (str "1" ++ spaces 0)) 0)
      (str "k") = (pos : Int) - 4294967296 := by
    rw [Sized.subs_start, hpos]
    exact hcast
  simp only [Sized.sample_json_str_get, hstart, hkeyLen]
  rw [if_neg (by omega), if_pos (.inl (by omega))]

/-- A plain object of 2 GiB whose second member is not read. -/
theorem far_key_not_read :
    IsWordKey (str "k") ∧ TopLevel (str "k") (str "1") (farMembers (2 ^ 31)) (spaces 0)
        (str "a" :: ([List.replicate (2 ^ 31) (ch 'x')] ++ [])) ∧
      str "k" ∉ str "a" :: ([List.replicate (2 ^ 31) (ch 'x')] ++ []) ∧
      Reads (str "1") (str "1") ∧
      Sized.sample_json_str_get (objectText 0 (farMembers (2 ^ 31) ++ (str "1" ++ spaces 0)) 0)
        (str "k") = .error .out_of_range ∧
      ¬ PlainRead (str "k") 0 (farMembers (2 ^ 31)) (str "1") (spaces 0) 0 (str "1") := by
  have hthrows := farMembers_throws (n := 2 ^ 31) (by norm_num) (by norm_num)
  refine ⟨⟨by decide, by decide⟩, topLevel_farMembers _, not_mem_farMembers (by norm_num),
    .scalar (isScalar_digits ⟨by decide, by decide⟩), hthrows, ?_⟩
  rintro ⟨hread, -⟩
  rw [hthrows] at hread
  cases hread

end DoubleTurnouts
