/-
  DoubleTurnouts.InfraController.SizedReader

  `sample_json_str_get` with its two ints.  `subs_start` holds the position
  that `find` reports, so a key from 2^31 on is looked for at another place,
  or not at all, and `obj_flage` counts the braces of an object.  What the
  scan returns is said here in terms of the text (`Yields`): a scalar up to a
  comma or a brace, a string up to its quote, an object up to the brace at
  which the counter is zero.  Below 2^31 bytes the casts change nothing.
-/
import Mathlib.Tactic
import DoubleTurnouts.InfraController.ObjectScan

namespace DoubleTurnouts

open Text Decimal

/-! ## The scan with a stored counter -/

namespace Scan

variable (int : Int → Int)

/-- `case 10` where `int` is what storing the counter does to it. -/
def step10In (σ : Scan) (c : UInt8) : Scan :=
  let key_val := σ.key_val ++ [c]
  let obj_flage := if c = ch '{' then int (σ.obj_flage + 1) else σ.obj_flage
  let obj_flage := if c = ch '}' then int (obj_flage - 1) else obj_flage
  let status := if obj_flage = 0 then (if key_val ≠ [] then Status.sEnd else σ.status) else σ.status
  { σ with key_val := key_val, obj_flage := obj_flage, status := status }

def stepIn (σ : Scan) (c : UInt8) : Scan :=
  { (match σ.status with
      | .s0 => σ.step0 c
      | .s10 => σ.step10In int c
      | .s100 => σ.step100 c
      | .sEnd => σ) with last_c := c }

def runIn (σ : Scan) (s : Bytes) : Scan := s.foldl (stepIn int) σ

/-- An int the counter never leaves makes no difference. -/
theorem runIn_id : runIn id = run := rfl

@[simp] theorem runIn_nil (σ : Scan) : σ.runIn int [] = σ := rfl

@[simp] theorem runIn_cons (σ : Scan) (c : UInt8) (s : Bytes) :
    σ.runIn int (c :: s) = (σ.stepIn int c).runIn int s := rfl

theorem runIn_append (σ : Scan) (s t : Bytes) :
    σ.runIn int (s ++ t) = (σ.runIn int s).runIn int t := by
  simp [runIn]

theorem stepIn_of_ne {σ : Scan} (h : σ.status ≠ .s10) (c : UInt8) : σ.stepIn int c = σ.step c := by
  cases hs : σ.status with
  | s10 => exact absurd hs h
  | s0 | s100 | sEnd => simp only [stepIn, step, hs]

/-- Strings and what follows a value have no braces to count. -/
theorem runIn_of_string {σ : Scan} (h : σ.status = .s100 ∨ σ.status = .sEnd) (s : Bytes) :
    σ.runIn int s = σ.run s := by
  induction s generalizing σ with
  | nil => rfl
  | cons c s ih =>
      have hne : σ.status ≠ .s10 := by
        rcases h with h | h <;> simp [h]
      have hnext : (σ.step c).status = .s100 ∨ (σ.step c).status = .sEnd := by
        rcases h with h | h
        · simp only [step, h, step100]
          split_ifs <;> simp
        · simp [step, h]
      rw [runIn_cons, run_cons, stepIn_of_ne int hne, ih hnext]

theorem result_runIn_of_sEnd {σ : Scan} (h : σ.status = .sEnd) (s : Bytes) :
    (σ.runIn int s).result = σ.result := by
  rw [runIn_of_string int (.inr h), result_run_of_sEnd h]

end Scan

/-- What the proofs need of an int: one fits, and sums may be stored at any point. -/
structure Stores (int : Int → Int) : Prop where
  one : int 1 = 1
  add : ∀ a b, int (int a + b) = int (a + b)

theorem stores_id : Stores id := ⟨rfl, fun _ _ => rfl⟩

theorem stores_wrap32 : Stores wrap32 := by
  refine ⟨by decide, fun a b => ?_⟩
  rw [wrap32, wrap32, wrap32, Int.bmod_add_bmod]

/-! ## What a text yields -/

/-- State 0 acts on none of these bytes but the colon. -/
def Quiet (t : Bytes) : Prop := ∀ c ∈ t, c ≠ quote ∧ c ≠ ch '{' ∧ c ≠ ch ',' ∧ c ≠ ch '}'

/-- What state 0 keeps: everything behind the first colon that is no space or colon. -/
def copied (t : Bytes) : Bytes :=
  (t.dropWhile (· ≠ ch ':')).filter fun c => c ≠ ch ':' ∧ c ≠ ch ' '

/-- The counter has not come to zero anywhere in the text behind an opening brace. -/
def Unclosed (int : Int → Int) (s : Bytes) : Prop := ∀ p, p <+: s → int (1 + balance p) ≠ 0

/-- The text behind a key and what is read from it. -/
inductive Yields (int : Int → Int) : Bytes → Bytes → Prop
  | nothing {t : Bytes} (ht : Quiet t) : Yields int t []
  | scalar {t rest : Bytes} {c : UInt8} (ht : Quiet t) (hc : c = ch ',' ∨ c = ch '}') :
      Yields int (t ++ c :: rest) (copied t)
  | string {t lit rest : Bytes} (ht : Quiet t) (hlit : Scan.noClose quote lit = true)
      (hlast : lit.getLast? ≠ some backslash) :
      Yields int (t ++ quote :: (lit ++ quote :: rest)) (copied t ++ lit)
  -- a string without an end is kept only if no colon stands before it
  | openString {t lit : Bytes} (ht : Quiet t) (hlit : Scan.noClose quote lit = true) :
      Yields int (t ++ quote :: lit) (if ch ':' ∈ t then [] else lit)
  | object {t obj rest : Bytes} {c : UInt8} (ht : Quiet t) (hobj : Unclosed int obj)
      (hc : int (1 + balance (obj ++ [c])) = 0) :
      Yields int (t ++ ch '{' :: (obj ++ c :: rest)) (copied t ++ ch '{' :: (obj ++ [c]))
  | openObject {t obj : Bytes} (ht : Quiet t) (hobj : Unclosed int obj) :
      Yields int (t ++ ch '{' :: obj) []

theorem quiet_cons {c : UInt8} {t : Bytes} : Quiet (c :: t) ↔
    (c ≠ quote ∧ c ≠ ch '{' ∧ c ≠ ch ',' ∧ c ≠ ch '}') ∧ Quiet t := List.forall_mem_cons

/-- Before the colon nothing is kept. -/
theorem copied_of_not_mem {t : Bytes} (h : ch ':' ∉ t) : copied t = [] := by
  induction t with
  | nil => rfl
  | cons c t ih =>
      simp only [List.mem_cons, not_or] at h
      simpa [copied, Ne.symm h.1] using ih h.2

/-- A text is quiet up to the first byte that state 0 acts on. -/
theorem quiet_or_exists (t : Bytes) : Quiet t ∨ ∃ t' c rest, t = t' ++ c :: rest ∧ Quiet t' ∧
    (c = quote ∨ c = ch '{' ∨ c = ch ',' ∨ c = ch '}') := by
  induction t with
  | nil => exact .inl (by simp [Quiet])
  | cons c t ih =>
      by_cases hc : c = quote ∨ c = ch '{' ∨ c = ch ',' ∨ c = ch '}'
      · exact .inr ⟨[], c, t, rfl, by simp [Quiet], hc⟩
      · simp only [not_or] at hc
        rcases ih with h | ⟨t', d, rest, rfl, ht', hd⟩
        · exact .inl (quiet_cons.mpr ⟨hc, h⟩)
        · exact .inr ⟨c :: t', d, rest, rfl, quiet_cons.mpr ⟨hc, ht'⟩, hd⟩

/-- A string goes on to the end of the text, or to the first quote that closes it. -/
theorem noClose_or_exists (prev : UInt8) (s : Bytes) : Scan.noClose prev s = true ∨
    ∃ lit rest, s = lit ++ quote :: rest ∧ Scan.noClose prev lit = true ∧
      lit.getLast?.getD prev ≠ backslash := by
  induction s generalizing prev with
  | nil => exact .inl rfl
  | cons c s ih =>
      by_cases hclose : c = quote ∧ prev ≠ backslash
      · exact .inr ⟨[], s, by rw [hclose.1]; rfl, rfl, hclose.2⟩
      · have hc : (c ≠ quote || prev = backslash) = true := by
          simpa [or_iff_not_imp_left] using hclose
        rcases ih c with h | ⟨lit, rest, rfl, hlit, hlast⟩
        · exact .inl (by rw [Scan.noClose, hc, h]; rfl)
        · refine .inr ⟨c :: lit, rest, rfl, by rw [Scan.noClose, hc, hlit]; rfl, ?_⟩
          simpa [List.getLast?_cons] using hlast

namespace Scan

/-- State 0 behind the colon, with `key_val` read so far. -/
def afterColon (last_c : UInt8) (key_val : Bytes) : Scan where
  status := .s0
  last_c := last_c
  obj_flage := 1
  key_val := key_val

variable {int : Int → Int}

theorem runIn_afterColon {t : Bytes} (ht : Quiet t) (last_c : UInt8) (key_val : Bytes) :
    ∃ last, (afterColon last_c key_val).runIn int t =
      afterColon last (key_val ++ t.filter fun c => c ≠ ch ':' ∧ c ≠ ch ' ') := by
  induction t generalizing last_c key_val with
  | nil => exact ⟨last_c, by simp⟩
  | cons c t ih =>
      obtain ⟨⟨hquote, hopen, hcomma, hclose⟩, ht⟩ := quiet_cons.mp ht
      have hstep : (afterColon last_c key_val).stepIn int c =
          afterColon c (key_val ++ [c].filter fun c => c ≠ ch ':' ∧ c ≠ ch ' ') := by
        by_cases hcolon : c = ch ':'
        · simp [hcolon, stepIn, step0, afterColon, show ch ':' ≠ quote by decide,
            show ch ':' ≠ ch '{' by decide]
        · by_cases hspace : c = ch ' '
          · simp [hspace, stepIn, step0, afterColon, show ch ' ' ≠ quote by decide,
              show ch ' ' ≠ ch '{' by decide, show ch ' ' ≠ ch ':' by decide,
              show ch ' ' ≠ ch ',' by decide, show ch ' ' ≠ ch '}' by decide]
          · simp [stepIn, step0, afterColon, hquote, hopen, hcomma, hclose, hcolon, hspace]
      obtain ⟨last, hrun⟩ := ih ht c (key_val ++ [c].filter fun c => c ≠ ch ':' ∧ c ≠ ch ' ')
      refine ⟨last, ?_⟩
      rw [runIn_cons, hstep, hrun, List.append_assoc, ← List.filter_append]
      rfl

/-- A quiet text moves state 0 only by its first colon. -/
theorem runIn_quiet {t : Bytes} (ht : Quiet t) : ∃ last, init.runIn int t =
    { status := .s0, last_c := last, obj_flage := if ch ':' ∈ t then 1 else 0,
      key_val := copied t } := by
  suffices hrun : ∀ last_c, ∃ last, ({ init with last_c := last_c } : Scan).runIn int t =
      { status := .s0, last_c := last, obj_flage := if ch ':' ∈ t then 1 else 0,
        key_val := copied t } from hrun 0
  induction t with
  | nil => exact fun last_c => ⟨last_c, by simp [init, copied]⟩
  | cons c t ih =>
      intro last_c
      obtain ⟨⟨hquote, hopen, hcomma, hclose⟩, ht⟩ := quiet_cons.mp ht
      rw [runIn_cons]
      by_cases hcolon : c = ch ':'
      · obtain ⟨last, hrun⟩ := @runIn_afterColon int t ht (ch ':') []
        refine ⟨last, ?_⟩
        have hstep : ({ init with last_c := last_c } : Scan).stepIn int c =
            afterColon (ch ':') [] := by
          rw [hcolon]
          rfl
        rw [hstep, hrun]
        simp [afterColon, copied, hcolon]
      · -- before the colon nothing is kept
        have hstep : ({ init with last_c := last_c } : Scan).stepIn int c =
            { init with last_c := c } := by
          simp [stepIn, step0, init, hquote, hopen, hcomma, hclose, hcolon]
        obtain ⟨last, hrun⟩ := ih ht c
        refine ⟨last, ?_⟩
        rw [hstep, hrun]
        simp [copied, hcolon, Ne.symm hcolon]

/-- State 100 behind a quiet text and a quote. -/
def inString (t : Bytes) : Scan where
  status := .s100
  last_c := quote
  obj_flage := if ch ':' ∈ t then 1 else 0
  key_val := copied t

theorem runIn_openQuote {t : Bytes} (ht : Quiet t) (s : Bytes) :
    init.runIn int (t ++ quote :: s) = (inString t).run s := by
  obtain ⟨last, hrun⟩ := @runIn_quiet int t ht
  rw [runIn_append, hrun, runIn_cons]
  exact runIn_of_string int (.inl rfl) s

theorem stepIn_inObject (hint : Stores int) (f : Int) (last_c c : UInt8) (key_val : Bytes) :
    (inObject (int f) last_c key_val).stepIn int c =
      { inObject (int (f + balance [c])) c (key_val ++ [c]) with
        status := if int (f + balance [c]) = 0 then .sEnd else .s10 } := by
  have hne : ch '{' ≠ ch '}' := by decide
  have hcount : (if c = ch '}' then int ((if c = ch '{' then int (int f + 1) else int f) - 1)
      else if c = ch '{' then int (int f + 1) else int f) = int (f + balance [c]) := by
    rw [balance_singleton]
    by_cases hopen : c = ch '{'
    · simp [hopen, hne, hint.add]
    · by_cases hclose : c = ch '}'
      · simp [hclose, hne.symm, sub_eq_add_neg, hint.add]
      · simp [hopen, hclose]
  simp only [stepIn, step10In, inObject, hcount, ne_eq, List.append_eq_nil_iff, List.cons_ne_self,
    and_false, not_false_eq_true, if_true]

/-- Up to where the counter comes to zero the object is copied. -/
theorem runIn_unclosed (hint : Stores int) {s : Bytes} (hs : Unclosed int s) (last_c : UInt8)
    (key_val : Bytes) : ∃ last, (inObject (int 1) last_c key_val).runIn int s =
      inObject (int (1 + balance s)) last (key_val ++ s) := by
  induction s using List.reverseRecOn with
  | nil => exact ⟨last_c, by simp⟩
  | append_singleton s c ih =>
      obtain ⟨last, hrun⟩ := ih fun p hp => hs p (hp.trans (List.prefix_append s [c]))
      have hpos := hs (s ++ [c]) (List.prefix_refl _)
      rw [balance_append, ← add_assoc] at hpos
      refine ⟨c, ?_⟩
      rw [runIn_append, hrun, runIn_cons, runIn_nil, stepIn_inObject hint, if_neg hpos,
        balance_append, add_assoc, List.append_assoc]
      rfl

end Scan

/-- An object goes on to the end of the text, or to the first byte that makes the counter zero. -/
theorem unclosed_or_exists {int : Int → Int} (hint : Stores int) (s : Bytes) : Unclosed int s ∨
    ∃ obj c rest, s = obj ++ c :: rest ∧ Unclosed int obj ∧
      int (1 + balance (obj ++ [c])) = 0 := by
  induction s using List.reverseRecOn with
  | nil =>
      left
      intro p hp
      rw [List.prefix_nil.mp hp, balance_nil, add_zero, hint.one]
      exact one_ne_zero
  | append_singleton s c ih =>
      rcases ih with h | ⟨obj, d, rest, rfl, hobj, hd⟩
      · by_cases hc : int (1 + balance (s ++ [c])) = 0
        · exact .inr ⟨s, c, [], rfl, h, hc⟩
        · left
          intro p hp
          rcases List.prefix_concat_iff.mp hp with rfl | hp
          · exact hc
          · exact h p hp
      · exact .inr ⟨obj, d, rest ++ [c], by simp, hobj, hd⟩

section Yields

variable {int : Int → Int} (hint : Stores int)

include hint

/-- What the text yields is what the scan returns. -/
theorem Yields.result {t s : Bytes} (h : Yields int t s) :
    (Scan.init.runIn int t).result = s := by
  have hopen : ∀ (last : UInt8) (f : Int) (key_val : Bytes),
      Scan.stepIn int { status := .s0, last_c := last, obj_flage := f, key_val := key_val }
        (ch '{') = Scan.inObject (int 1) (ch '{') (key_val ++ [ch '{']) := by
    intro last f key_val
    simp [Scan.stepIn, Scan.step0, Scan.inObject, hint.one, show ch '{' ≠ quote by decide]
  cases h with
  | nothing ht =>
      obtain ⟨last, hrun⟩ := @Scan.runIn_quiet int t ht
      rw [hrun, Scan.result]
      by_cases hcolon : ch ':' ∈ t
      · simp [hcolon]
      · simp [hcolon, copied_of_not_mem hcolon]
  | @scalar t rest c ht hc =>
      obtain ⟨last, hrun⟩ := @Scan.runIn_quiet int t ht
      have hend : ∀ σ : Scan, σ.status = .s0 → σ.stepIn int c =
          { status := .sEnd, last_c := c, obj_flage := 0, key_val := σ.key_val } := by
        intro σ hσ
        rcases hc with rfl | rfl
        · simp [Scan.stepIn, hσ, Scan.step0, show ch ',' ≠ quote by decide,
            show ch ',' ≠ ch '{' by decide, show ch ',' ≠ ch ':' by decide]
        · simp [Scan.stepIn, hσ, Scan.step0, show ch '}' ≠ quote by decide,
            show ch '}' ≠ ch '{' by decide, show ch '}' ≠ ch ':' by decide]
      rw [Scan.runIn_append, hrun, Scan.runIn_cons, hend _ rfl, Scan.result_runIn_of_sEnd int rfl]
      rfl
  | @string t lit rest ht hlit hlast =>
      have hclose : lit.getLast?.getD quote ≠ backslash := by
        cases hget : lit.getLast? with
        | none => exact (by decide : quote ≠ backslash)
        | some c =>
            rw [hget] at hlast
            simpa using hlast
      have hcopy := @Scan.run_noClose (Scan.inString t) rfl lit hlit
      rw [Scan.runIn_openQuote ht, Scan.run_append, hcopy, Scan.run_cons,
        Scan.step_close rfl hclose, Scan.result_run_of_sEnd rfl]
      rfl
  | @openString t lit ht hlit =>
      have hcopy := @Scan.run_noClose (Scan.inString t) rfl lit hlit
      rw [Scan.runIn_openQuote ht, hcopy, Scan.result]
      by_cases hcolon : ch ':' ∈ t
      · simp [Scan.inString, hcolon]
      · simp [Scan.inString, hcolon, copied_of_not_mem hcolon]
  | @object t obj rest c ht hobj hc =>
      obtain ⟨last, hrun⟩ := @Scan.runIn_quiet int t ht
      obtain ⟨last', hobj⟩ := Scan.runIn_unclosed hint hobj (ch '{') (copied t ++ [ch '{'])
      rw [balance_append, ← add_assoc] at hc
      rw [Scan.runIn_append, hrun, Scan.runIn_cons, hopen, Scan.runIn_append, hobj,
        Scan.runIn_cons, Scan.stepIn_inObject hint, hc, if_pos rfl,
        Scan.result_runIn_of_sEnd int rfl]
      simp [Scan.result, Scan.inObject]
  | @openObject t obj ht hobj =>
      obtain ⟨last, hrun⟩ := @Scan.runIn_quiet int t ht
      obtain ⟨last', hcopy⟩ := Scan.runIn_unclosed hint hobj (ch '{') (copied t ++ [ch '{'])
      have hpos := hobj obj (List.prefix_refl _)
      rw [Scan.runIn_append, hrun, Scan.runIn_cons, hopen, hcopy, Scan.result]
      exact if_pos hpos

/-- Every text yields something. -/
theorem exists_yields (t : Bytes) : ∃ s, Yields int t s := by
  rcases quiet_or_exists t with ht | ⟨t, c, rest, rfl, ht, hc⟩
  · exact ⟨_, .nothing ht⟩
  · rcases hc with rfl | rfl | hc
    · rcases noClose_or_exists quote rest with hlit | ⟨lit, rest, rfl, hlit, hlast⟩
      · exact ⟨_, .openString ht hlit⟩
      · refine ⟨_, .string ht hlit fun h => hlast ?_⟩
        rw [h]
        rfl
    · rcases unclosed_or_exists hint rest with hobj | ⟨obj, c, rest, rfl, hobj, hc⟩
      · exact ⟨_, .openObject ht hobj⟩
      · exact ⟨_, .object ht hobj hc⟩
    · exact ⟨_, .scalar ht hc⟩

theorem result_runIn_iff {t s : Bytes} :
    (Scan.init.runIn int t).result = s ↔ Yields int t s := by
  constructor
  · rintro rfl
    obtain ⟨s, hs⟩ := exists_yields hint t
    rw [hs.result hint]
    exact hs
  · exact Yields.result hint

end Yields

/-! ## `sample_json_str_get` with its casts -/

namespace Sized

/-- `int subs_start = json_str.find(find_key)`, where `npos` becomes -1. -/
def subs_start (json_str json_key : Bytes) : Int :=
  match find (find_key json_key) json_str with
  | none => -1
  | some i => wrap32 i

/-- `sample_json_str_get`.  The sum is a `size_t`: a negative one is larger than every length. -/
def sample_json_str_get (json_str json_key : Bytes) : Except Exn Bytes :=
  let subs_start := subs_start json_str json_key
  if subs_start = -1 then .ok []
  else
    let pos := subs_start + (find_key json_key).length
    -- `substr` throws behind the end
    if pos < 0 ∨ json_str.length < pos.toNat then .error .out_of_range
    else .ok (Scan.init.runIn wrap32 (json_str.drop pos.toNat)).result

variable {json_str json_key : Bytes} {i : Nat}

theorem find_key_fits (hi : find (find_key json_key) json_str = some i) :
    i + (find_key json_key).length ≤ json_str.length := by
  obtain ⟨hle, hpre, -⟩ := find_eq_some_iff.mp hi
  have hlen := hpre.length_le
  rw [List.length_drop] at hlen
  omega

/-- What is returned is what the text yields behind the place the position is cast to. -/
theorem sample_json_str_get_eq_ok_iff (hi : find (find_key json_key) json_str = some i)
    {s : Bytes} : sample_json_str_get json_str json_key = .ok s ↔
      (wrap32 i = -1 ∧ s = []) ∨ wrap32 i ≠ -1 ∧ 0 ≤ wrap32 i + (find_key json_key).length ∧
        Yields wrap32 (json_str.drop (wrap32 i + (find_key json_key).length).toNat) s := by
  have hfits := find_key_fits hi
  -- a cast position is never larger than the position
  have hle : wrap32 i ≤ i := by
    have hrange := isInt32_wrap32 i
    unfold IsInt32 at hrange
    by_cases hlt : i < 2 ^ 31
    · rw [wrap32_of_isInt32 ⟨by omega, by omega⟩]
    · omega
  have hstart : subs_start json_str json_key = wrap32 i := by rw [subs_start, hi]
  simp only [sample_json_str_get, hstart]
  by_cases hnpos : wrap32 i = -1
  · simp [hnpos, eq_comm]
  · by_cases hneg : wrap32 i + (find_key json_key).length < 0
    · simp [hnpos, hneg, not_le.mpr hneg]
    · have hin : ¬ json_str.length < (wrap32 i + (find_key json_key).length).toNat := by omega
      simp only [if_neg hnpos, or_iff_right hneg, if_neg hin, Except.ok.injEq,
        result_runIn_iff stores_wrap32]
      simp [hnpos, not_lt.mp hneg]

/-- From a position below 2^31 that is the text behind the key. -/
theorem sample_json_str_get_eq_ok_iff_of_lt (hi : find (find_key json_key) json_str = some i)
    (h : i < 2 ^ 31) {s : Bytes} : sample_json_str_get json_str json_key = .ok s ↔
      Yields wrap32 (json_str.drop (i + (find_key json_key).length)) s := by
  have hcast : wrap32 i = i := wrap32_of_isInt32 ⟨by omega, by omega⟩
  have hplace : ((i : Int) + (find_key json_key).length).toNat =
      i + (find_key json_key).length := by omega
  rw [sample_json_str_get_eq_ok_iff hi, hcast, hplace,
    or_iff_right fun h : (i : Int) = -1 ∧ s = [] => by omega, and_iff_right (by omega),
    and_iff_right (by omega)]

end Sized

/-- In a short text the counter never leaves an int. -/
theorem wrap32_balance {p : Bytes} (h : p.length < 2 ^ 31 - 1) :
    wrap32 (1 + balance p) = 1 + balance p := by
  have hopen : p.count (ch '{') ≤ p.length := List.count_le_length
  have hclose : p.count (ch '}') ≤ p.length := List.count_le_length
  apply wrap32_of_isInt32
  unfold IsInt32 balance
  omega

theorem Yields.sized {t s : Bytes} (h : Yields id t s) (ht : t.length < 2 ^ 31) :
    Yields wrap32 t s := by
  have hunclosed : ∀ {obj : Bytes}, obj.length < 2 ^ 31 - 1 → Unclosed id obj →
      Unclosed wrap32 obj := by
    intro obj hlen hobj p hp
    have hle := hp.length_le
    rw [wrap32_balance (by omega)]
    exact hobj p hp
  cases h with
  | nothing hquiet => exact .nothing hquiet
  | scalar hquiet hc => exact .scalar hquiet hc
  | string hquiet hlit hlast => exact .string hquiet hlit hlast
  | openString hquiet hlit => exact .openString hquiet hlit
  | object hquiet hobj hc =>
      simp only [List.length_append, List.length_cons] at ht
      refine .object hquiet (hunclosed (by omega) hobj) ?_
      rw [wrap32_balance (by simp only [List.length_append, List.length_singleton]; omega)]
      exact hc
  | openObject hquiet hobj =>
      simp only [List.length_append, List.length_cons] at ht
      exact .openObject hquiet (hunclosed (by omega) hobj)

/-- Below 2^31 bytes the casts change nothing. -/
theorem Sized.sample_json_str_get_eq {json_str : Bytes} (h : json_str.length < 2 ^ 31)
    (json_key : Bytes) :
    Sized.sample_json_str_get json_str json_key =
      .ok (DoubleTurnouts.sample_json_str_get json_str json_key) := by
  cases hi : find (find_key json_key) json_str with
  | none =>
      simp only [Sized.sample_json_str_get, Sized.subs_start,
        DoubleTurnouts.sample_json_str_get, hi, if_true]
  | some i =>
      have hfits := Sized.find_key_fits hi
      have hpos : 0 < (find_key json_key).length := by simp [find_key]
      rw [Sized.sample_json_str_get_eq_ok_iff_of_lt hi (by omega),
        DoubleTurnouts.sample_json_str_get, hi]
      refine Yields.sized ?_ ?_
      · exact (result_runIn_iff stores_id).mp rfl
      · rw [List.length_drop]
        omega

/-! ## What is read from a message -/

theorem length_copied_le (t : Bytes) : (copied t).length ≤ t.length :=
  (List.length_filter_le _ _).trans (List.dropWhile_suffix _).length_le

theorem Yields.length_le {int : Int → Int} {t s : Bytes} (h : Yields int t s) :
    s.length ≤ t.length := by
  cases h with
  | nothing => exact Nat.zero_le _
  | @scalar t rest c =>
      have hcopied := length_copied_le t
      rw [List.length_append]
      omega
  | @string t lit rest =>
      have hcopied := length_copied_le t
      simp only [List.length_append, List.length_cons]
      omega
  | openString =>
      simp only [List.length_append, List.length_cons]
      split
      · exact Nat.zero_le _
      · omega
  | @object t obj rest c =>
      have hcopied := length_copied_le t
      simp only [List.length_append, List.length_cons, List.length_nil]
      omega
  | openObject => exact Nat.zero_le _

theorem length_sample_json_str_get_le (json_str json_key : Bytes) :
    (sample_json_str_get json_str json_key).length ≤ json_str.length := by
  unfold sample_json_str_get
  split
  · exact Nat.zero_le _
  · next subs_start _ =>
      have hyields := (result_runIn_iff stores_id).mp
        (Eq.refl (Scan.init.run (json_str.drop (subs_start + (find_key json_key).length))).result)
      refine hyields.length_le.trans ?_
      rw [List.length_drop]
      omega

namespace Sized

/-- `decode_stream` with the casts of its reader. -/
def decode_stream (data : Bytes) (stream_buff : Map Int Bytes) :
    Except Exn (Bool × Bytes) × Map Int Bytes :=
  decode_streamWith sample_json_str_get data stream_buff

theorem decode_stream_eq {data : Bytes} (h : data.length < 2 ^ 31) (stream_buff : Map Int Bytes) :
    decode_stream data stream_buff = DoubleTurnouts.decode_stream data stream_buff := by
  simp only [decode_stream, DoubleTurnouts.decode_stream, decode_streamWith,
    sample_json_str_get_eq h]

end Sized

/-- The casts change nothing in what a task reads from a message. -/
structure ReadsAlike (raw : Bytes) : Prop where
  member : ∀ json_key,
    Sized.sample_json_str_get raw json_key = .ok (sample_json_str_get raw json_key)
  stream : ∀ json_key stream_buff,
    Sized.decode_stream (sample_json_str_get raw json_key) stream_buff =
      decode_stream (sample_json_str_get raw json_key) stream_buff

theorem readsAlike_of_lt {raw : Bytes} (h : raw.length < 2 ^ 31) : ReadsAlike raw where
  member := Sized.sample_json_str_get_eq h
  stream := fun json_key =>
    Sized.decode_stream_eq ((length_sample_json_str_get_le raw json_key).trans_lt h)

end DoubleTurnouts
