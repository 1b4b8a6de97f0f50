/-
  DoubleTurnouts.Lib.Decimal

  The C and C++ conversions between `int` and text: `std::to_string`,
  `std::stoi`, the `%i` conversion of `sprintf` and of `sscanf`, and the
  two's complement wrap of a 32-bit `int`.

  What the rest of the development uses: printing is injective and never
  produces a dot, a quote or a zero byte; `stoi` and `sscanf` read a printed
  number back whatever non-digit text follows it.
-/
import Mathlib.Tactic
import DoubleTurnouts.Lib.Bytes

namespace DoubleTurnouts
namespace Decimal

/-! ## Machine integers -/

/-- The value an `int` holds after arithmetic that left its range. -/
def wrap32 (n : Int) : Int := n.bmod 4294967296

/-- `n` is a value of a 32-bit `int`. -/
def IsInt32 (n : Int) : Prop := -2147483648 ≤ n ∧ n ≤ 2147483647

instance (n : Int) : Decidable (IsInt32 n) := inferInstanceAs (Decidable (_ ∧ _))

theorem isInt32_wrap32 (n : Int) : IsInt32 (wrap32 n) := by
  have hlo := @Int.le_bmod n 4294967296 (by decide)
  have hhi := @Int.bmod_lt n 4294967296 (by decide)
  rw [IsInt32, wrap32]
  omega

theorem wrap32_of_isInt32 {n : Int} (h : IsInt32 n) : wrap32 n = n := by
  obtain ⟨h1, h2⟩ := h
  exact Int.bmod_eq_of_le (by norm_num; omega) (by norm_num; omega)

/-! ## Character classes -/

def isDigit (c : UInt8) : Bool := ch '0' ≤ c && c ≤ ch '9'

/-- `isspace` in the "C" locale. -/
def isSpace (c : UInt8) : Bool := c = ch ' ' || (9 ≤ c && c ≤ 13)

def digitVal (c : UInt8) : Nat := c.toNat - 48

/-! ## Printing -/

/-- Decimal digits of a natural number. -/
def natDigits (n : Nat) : Bytes := (Nat.toDigits 10 n).map ch

/-- `std::to_string(int)`. -/
def to_string : Int → Bytes
  | .ofNat n => natDigits n
  | .negSucc n => ch '-' :: natDigits (n + 1)

/-! ## Reading -/

/-- Value of a run of decimal digits. -/
def ofDigits (ds : Bytes) : Nat := ds.foldl (fun acc d => 10 * acc + digitVal d) 0

/-- An optional sign, as `strtol` and `scanf` accept it: is it a minus, and the rest. -/
def splitSign : Bytes → Bool × Bytes
  | [] => (false, [])
  | c :: s => if c = ch '-' then (true, s) else if c = ch '+' then (false, s) else (false, c :: s)

def applySign (neg : Bool) (n : Nat) : Int := if neg then -(n : Int) else n

end Decimal

/-- The exceptions and run-time faults the modelled code can end in. -/
inductive Exn
  | invalid_argument
  | out_of_range
  | length_error
  | type_error
  | runtime_error
  | out_of_bounds
  | null_dereference
  deriving DecidableEq, Repr

namespace Decimal

/-- `std::stoi` in base 10: leading white space, a sign, then the longest run of digits. -/
def stoi (s : Bytes) : Except Exn Int :=
  let (neg, t) := splitSign (s.dropWhile isSpace)
  -- what follows the digits is ignored
  let ds := t.takeWhile isDigit
  if ds = [] then .error .invalid_argument
  else
    let v := applySign neg (ofDigits ds)
    if IsInt32 v then .ok v else .error .out_of_range

/-- Value of a digit in bases up to 16. -/
def hexVal (c : UInt8) : Option Nat :=
  if isDigit c then some (digitVal c)
  else if ch 'a' ≤ c && c ≤ ch 'f' then some (c.toNat - 87)
  else if ch 'A' ≤ c && c ≤ ch 'F' then some (c.toNat - 55)
  else none

/-- Value of the longest run of digits of base `b`, and whether there is one. -/
def scanBase (b : Nat) (s : Bytes) : Option Nat :=
  let ds := (s.map hexVal).takeWhile (fun v => v.any (· < b))
  if ds = [] then none else some (ds.foldl (fun acc v => b * acc + v.getD 0) 0)

/-- The `%i` conversion of `sscanf`: like `%d`, but `0x` selects hexadecimal and a
    leading `0` octal. -/
def scan_i (s : Bytes) : Option Int :=
  let (neg, t) := splitSign (s.dropWhile isSpace)
  let v := match t with
    | a :: b :: rest =>
        if a = ch '0' ∧ (b = ch 'x' ∨ b = ch 'X') then scanBase 16 rest
        else if a = ch '0' then scanBase 8 t
        else scanBase 10 t
    | _ => scanBase 10 t
  -- what does not fit an int is cut to its low 32 bits
  v.map fun n => wrap32 (applySign neg n)

/-- `sscanf(text, fmt, &x)` for a format with one `%i` and no white space: the value
    stored in `x`, or `none` when the input does not match up to the conversion. -/
def sscanf : (text fmt : Bytes) → Option Int
  | _, [] => none
  | text, f :: fmt =>
      if f = ch '%' ∧ fmt.head? = some (ch 'i') then scan_i text
      else match text with
        | [] => none
        | c :: text => if c = f then sscanf text fmt else none

/-- `sprintf(buf, fmt, n)` for a format whose only conversion is `%i`, as those of the shipped
    configuration, read back as a C string: the output ends at the first zero byte of the format.
    Any other conversion, `%%` included, is copied, so of such formats nothing is said. -/
def sprintf : (fmt : Bytes) → Int → Bytes
  | [], _ => []
  | [f], _ => if f = 0 then [] else [f]
  | f :: g :: fmt, n =>
      if f = 0 then []
      else if f = ch '%' ∧ g = ch 'i' then to_string n ++ sprintf fmt n
      else f :: sprintf (g :: fmt) n

/-! ## Digits of a printed number -/

theorem isDigit_ch_digitChar : ∀ d < 10, isDigit (ch d.digitChar) = true := by decide

theorem digitVal_ch_digitChar : ∀ d < 10, digitVal (ch d.digitChar) = d := by decide

theorem natDigits_of_lt {n : Nat} (h : n < 10) : natDigits n = [ch n.digitChar] := by
  simp [natDigits, Nat.toDigits_of_lt_base h]

theorem natDigits_of_ge {n : Nat} (h : 10 ≤ n) :
    natDigits n = natDigits (n / 10) ++ [ch (n % 10).digitChar] := by
  simp [natDigits, Nat.toDigits_of_base_le (by decide) h]

theorem natDigits_ne_nil (n : Nat) : natDigits n ≠ [] := by
  simp [natDigits, Nat.toDigits_ne_nil]

theorem natDigits_isDigit (n : Nat) : ∀ c ∈ natDigits n, isDigit c = true := by
  induction n using Nat.strong_induction_on with
  | _ n ih =>
      by_cases hn : n < 10
      · rw [natDigits_of_lt hn]
        simpa using isDigit_ch_digitChar n hn
      · rw [natDigits_of_ge (by omega)]
        intro c hc
        rcases List.mem_append.mp hc with hc | hc
        · exact ih (n / 10) (by omega) c hc
        · rw [List.mem_singleton.mp hc]
          exact isDigit_ch_digitChar _ (Nat.mod_lt _ (by decide))

theorem ofDigits_append_singleton (ds : Bytes) (d : UInt8) :
    ofDigits (ds ++ [d]) = 10 * ofDigits ds + digitVal d := by
  simp [ofDigits]

theorem ofDigits_natDigits (n : Nat) : ofDigits (natDigits n) = n := by
  induction n using Nat.strong_induction_on with
  | _ n ih =>
      by_cases hn : n < 10
      · rw [natDigits_of_lt hn]
        simpa [ofDigits] using digitVal_ch_digitChar n hn
      · rw [natDigits_of_ge (by omega), ofDigits_append_singleton, ih (n / 10) (by omega),
          digitVal_ch_digitChar _ (Nat.mod_lt _ (by decide))]
        omega

/-- A positive number is printed without a leading zero. -/
theorem natDigits_head_ne_zero {n : Nat} (h : 0 < n) : (natDigits n).head? ≠ some (ch '0') := by
  induction n using Nat.strong_induction_on with
  | _ n ih =>
      by_cases hn : n < 10
      · rw [natDigits_of_lt hn]
        interval_cases n <;> decide
      · rw [natDigits_of_ge (by omega), List.head?_append_of_ne_nil _ (natDigits_ne_nil _)]
        exact ih (n / 10) (by omega) (by omega)

/-- What a printed number consists of. -/
theorem mem_to_string {n : Int} {c : UInt8} (h : c ∈ to_string n) :
    c = ch '-' ∨ isDigit c = true := by
  cases n with
  | ofNat m => exact Or.inr (natDigits_isDigit m c h)
  | negSucc m =>
      rcases List.mem_cons.mp h with h | h
      · exact Or.inl h
      · exact Or.inr (natDigits_isDigit _ c h)

/-- A byte that is neither a minus sign nor a digit does not occur in a printed number. -/
theorem not_mem_to_string {c : UInt8} (n : Int) (hm : c ≠ ch '-') (hd : isDigit c = false) :
    c ∉ to_string n := by
  intro hc
  rcases mem_to_string hc with h | h
  · exact hm h
  · rw [hd] at h
    exact Bool.false_ne_true h

/-- An `int` prints to at most eleven characters. -/
theorem length_to_string_le {n : Int} (h : IsInt32 n) : (to_string n).length ≤ 11 := by
  have hdigits : ∀ k : Nat, k < 10 ^ 10 → (natDigits k).length ≤ 10 := by
    intro k hk
    rw [natDigits, List.length_map]
    exact Nat.toDigits_length 10 k 10 (by decide) hk
  obtain ⟨hlo, hhi⟩ := h
  cases n with
  | ofNat k =>
      have hk := hdigits k (by simp only [Int.ofNat_eq_natCast] at hhi; omega)
      rw [to_string]
      omega
  | negSucc k =>
      have hk := hdigits (k + 1) (by omega)
      rw [to_string, List.length_cons]
      omega

theorem to_string_ne_nil (n : Int) : to_string n ≠ [] := by
  cases n with
  | ofNat m => exact natDigits_ne_nil m
  | negSucc m => simp [to_string]

/-! ## Reading a printed number back -/

/-- The digits are read up to the first byte that is not one. -/
theorem takeWhile_isDigit_natDigits (n : Nat) {rest : Bytes}
    (hrest : ∀ c ∈ rest.head?, isDigit c = false) :
    (natDigits n ++ rest).takeWhile isDigit = natDigits n := by
  rw [List.takeWhile_append_of_pos (natDigits_isDigit n)]
  cases rest with
  | nil => simp
  | cons c rest =>
      have hc : isDigit c = false := hrest c (by simp)
      simp [hc]

/-- The first byte of a printed natural number: a digit, hence no space and no sign. -/
theorem natDigits_cons (n : Nat) : ∃ d ds, natDigits n = d :: ds ∧ isDigit d = true := by
  cases h : natDigits n with
  | nil => exact absurd h (natDigits_ne_nil n)
  | cons d ds => exact ⟨d, ds, rfl, natDigits_isDigit n d (by simp [h])⟩

theorem isDigit_iff {d : UInt8} : isDigit d = true ↔ 48 ≤ d.toNat ∧ d.toNat ≤ 57 := by
  simp only [isDigit, Bool.and_eq_true, decide_eq_true_eq, UInt8.le_iff_toNat_le]
  exact Iff.rfl

/-- A byte equal to a character constant has its code. -/
theorem ne_ch_of_toNat_ne {d : UInt8} {c : Char} (h : d.toNat ≠ (ch c).toNat) : d ≠ ch c :=
  fun he => h (congrArg UInt8.toNat he)

theorem isDigit_class {d : UInt8} (h : isDigit d = true) :
    isSpace d = false ∧ d ≠ ch '-' ∧ d ≠ ch '+' := by
  rw [isDigit_iff] at h
  have hne : ∀ c : Char, (ch c).toNat < 48 → d ≠ ch c :=
    fun c hc => ne_ch_of_toNat_ne (by omega)
  refine ⟨?_, hne '-' (by decide), hne '+' (by decide)⟩
  have hle : ¬ d ≤ 13 := by
    rw [UInt8.le_iff_toNat_le]
    change ¬ d.toNat ≤ 13
    omega
  simp [isSpace, hne ' ' (by decide), hle]

/-- White space skipping and sign splitting on a printed number. -/
theorem splitSign_to_string (n : Int) (rest : Bytes) :
    splitSign ((to_string n ++ rest).dropWhile isSpace)
      = (decide (n < 0), natDigits n.natAbs ++ rest) := by
  cases n with
  | ofNat m =>
      obtain ⟨d, ds, hds, hd⟩ := natDigits_cons m
      obtain ⟨hsp, hminus, hplus⟩ := isDigit_class hd
      simp [to_string, hds, hsp, splitSign, hminus, hplus]
  | negSucc m =>
      have hsp : isSpace (ch '-') = false := by decide
      simp [to_string, hsp, splitSign, Int.negSucc_lt_zero, Int.natAbs_negSucc]

theorem applySign_natAbs (n : Int) : applySign (decide (n < 0)) n.natAbs = n := by
  by_cases h : n < 0
  · rw [applySign, if_pos (by simpa using h)]
    omega
  · rw [applySign, if_neg (by simpa using h)]
    omega

/-- `stoi` returns an `int`. -/
theorem isInt32_of_stoi {s : Bytes} {n : Int} (h : stoi s = .ok n) : IsInt32 n := by
  simp only [stoi] at h
  split_ifs at h with _ hrange
  cases h
  exact hrange

/-- `std::stoi` reads a printed `int` back, whatever follows it. -/
theorem stoi_to_string_append {n : Int} (hn : IsInt32 n) {rest : Bytes}
    (hrest : ∀ c ∈ rest.head?, isDigit c = false) :
    stoi (to_string n ++ rest) = .ok n := by
  simp only [stoi, splitSign_to_string, takeWhile_isDigit_natDigits _ hrest,
    natDigits_ne_nil, if_false, ofDigits_natDigits, applySign_natAbs, hn, if_true]

theorem stoi_to_string {n : Int} (hn : IsInt32 n) : stoi (to_string n) = .ok n := by
  have h := @stoi_to_string_append n hn [] (by simp)
  rwa [List.append_nil] at h

/-- Two numbers with the same printed form are equal. -/
theorem to_string_injective : Function.Injective to_string := by
  intro a b hab
  have ha := splitSign_to_string a []
  rw [hab, splitSign_to_string b []] at ha
  simp only [List.append_nil, Prod.mk.injEq] at ha
  have habs : b.natAbs = a.natAbs := by
    rw [← ofDigits_natDigits b.natAbs, ha.2, ofDigits_natDigits]
  -- sign and digits of the printed form determine the number
  have hsign : applySign (decide (b < 0)) b.natAbs = applySign (decide (a < 0)) a.natAbs := by
    rw [ha.1, habs]
  rw [applySign_natAbs, applySign_natAbs] at hsign
  exact hsign.symm

/-! ## Formatted output and input -/

theorem hexVal_of_isDigit {c : UInt8} (h : isDigit c = true) : hexVal c = some (digitVal c) := by
  rw [hexVal, if_pos h]

/-- A byte that is not a decimal digit ends a number of any base up to ten. -/
theorem hexVal_any_lt_of_not_isDigit {b : Nat} (hb : b ≤ 10) {c : UInt8}
    (h : isDigit c = false) : (hexVal c).any (· < b) = false := by
  rw [hexVal, if_neg (by simp [h])]
  split
  · rename_i hc
    simp only [Bool.and_eq_true, decide_eq_true_eq, UInt8.le_iff_toNat_le] at hc
    have ha : (ch 'a').toNat = 97 := by decide
    simp only [Option.any_some, decide_eq_false_iff_not]
    omega
  · split
    · rename_i hc
      simp only [Bool.and_eq_true, decide_eq_true_eq, UInt8.le_iff_toNat_le] at hc
      have ha : (ch 'A').toNat = 65 := by decide
      simp only [Option.any_some, decide_eq_false_iff_not]
      omega
    · rfl

theorem takeWhile_hexVal_digits {b : Nat} (hb : b ≤ 10) {ds : Bytes}
    (hds : ∀ d ∈ ds, isDigit d = true ∧ digitVal d < b) {c : UInt8} (hc : isDigit c = false)
    (rest : Bytes) :
    ((ds ++ c :: rest).map hexVal).takeWhile (fun v => v.any (· < b)) = ds.map hexVal := by
  rw [List.map_append, List.takeWhile_append_of_pos]
  · simp [hexVal_any_lt_of_not_isDigit hb hc]
  · intro v hv
    obtain ⟨d, hd, rfl⟩ := List.mem_map.mp hv
    simp [hexVal_of_isDigit (hds d hd).1, (hds d hd).2]

theorem foldl_hexVal_digits {ds : Bytes} (hds : ∀ d ∈ ds, isDigit d = true) (acc : Nat) :
    (ds.map hexVal).foldl (fun acc v => 10 * acc + v.getD 0) acc
      = ds.foldl (fun acc d => 10 * acc + digitVal d) acc := by
  induction ds generalizing acc with
  | nil => rfl
  | cons d ds ih =>
      simp only [List.map_cons, List.foldl_cons, hexVal_of_isDigit (hds d (by simp)),
        Option.getD_some]
      exact ih (fun e he => hds e (by simp [he])) _

theorem digitVal_lt_ten {d : UInt8} (h : isDigit d = true) : digitVal d < 10 := by
  rw [isDigit_iff] at h
  simp only [digitVal]
  omega

/-- The decimal branch of `%i` on a printed number. -/
theorem scanBase_natDigits (n : Nat) {c : UInt8} (hc : isDigit c = false) (rest : Bytes) :
    scanBase 10 (natDigits n ++ c :: rest) = some n := by
  have hd : ∀ d ∈ natDigits n, isDigit d = true ∧ digitVal d < 10 :=
    fun d h => ⟨natDigits_isDigit n d h, digitVal_lt_ten (natDigits_isDigit n d h)⟩
  have hne : (natDigits n).map hexVal ≠ [] := by simp [natDigits_ne_nil]
  simp only [scanBase, takeWhile_hexVal_digits (Nat.le_refl 10) hd hc, hne, if_false,
    foldl_hexVal_digits (natDigits_isDigit n)]
  exact congrArg some (ofDigits_natDigits n)

/-- `%i` reads a printed `int` back.  A printed positive number has no leading zero, so the
    octal and hexadecimal branches are taken for `0` only, and there they agree. -/
theorem scan_i_to_string {n : Int} (hn : IsInt32 n) {c : UInt8} (hc : isDigit c = false)
    (hx : c ≠ ch 'x') (hX : c ≠ ch 'X') (rest : Bytes) :
    scan_i (to_string n ++ c :: rest) = some n := by
  have key : (match natDigits n.natAbs ++ c :: rest with
      | a :: b :: rest' =>
          if a = ch '0' ∧ (b = ch 'x' ∨ b = ch 'X') then scanBase 16 rest'
          else if a = ch '0' then scanBase 8 (natDigits n.natAbs ++ c :: rest)
          else scanBase 10 (natDigits n.natAbs ++ c :: rest)
      | _ => scanBase 10 (natDigits n.natAbs ++ c :: rest)) = some n.natAbs := by
    by_cases h0 : n.natAbs = 0
    -- zero is printed as one 0, which the octal branch reads
    · have hds : ∀ d ∈ [ch '0'], isDigit d = true ∧ digitVal d < 8 := by decide
      have htake := takeWhile_hexVal_digits (by decide : 8 ≤ 10) hds hc rest
      have hval : ([ch '0'].map hexVal).foldl (fun acc v => 8 * acc + v.getD 0) 0 = 0 := by
        decide
      have hne : [ch '0'].map hexVal ≠ [] := by simp
      have hzero : natDigits n.natAbs = [ch '0'] := by rw [h0]; decide
      rw [hzero]
      simp only [List.cons_append, List.nil_append, hx, hX, or_self, and_false, if_false,
        if_true]
      simp only [scanBase]
      rw [show (ch '0' :: c :: rest) = [ch '0'] ++ c :: rest from rfl, htake, if_neg hne, hval,
        h0]
    · obtain ⟨d, ds, hds, -⟩ := natDigits_cons n.natAbs
      -- otherwise the first digit is no zero, and the decimal branch is taken
      have hd0 : d ≠ ch '0' := by
        have := natDigits_head_ne_zero (Nat.pos_of_ne_zero h0)
        simpa [hds] using this
      have hscan := scanBase_natDigits n.natAbs hc rest
      rw [hds] at hscan ⊢
      cases hl : ds ++ c :: rest with
      | nil => simp at hl
      | cons b r =>
          simp only [List.cons_append, hl, hd0, false_and, if_false] at hscan ⊢
          exact hscan
  simp only [scan_i, splitSign_to_string]
  rw [key]
  simp [applySign_natAbs, wrap32_of_isInt32 hn]

/-- The text a format produces: what stands before the conversion is copied. -/
theorem sprintf_append_conversion (pre post : Bytes) (n : Int) (h0 : 0 ∉ pre)
    (hp : ch '%' ∉ pre) :
    sprintf (pre ++ ch '%' :: ch 'i' :: post) n = pre ++ (to_string n ++ sprintf post n) := by
  induction pre with
  | nil => simp [sprintf, show ch '%' ≠ 0 by decide]
  | cons f pre ih =>
      simp only [List.mem_cons, not_or] at h0 hp
      -- sprintf looks one byte ahead, and there is one: at least the percent sign
      obtain ⟨g, t, hg⟩ : ∃ g t, pre ++ ch '%' :: ch 'i' :: post = g :: t := by
        cases pre with
        | nil => exact ⟨_, _, rfl⟩
        | cons g pre => exact ⟨_, _, rfl⟩
      rw [List.cons_append, hg, sprintf, if_neg (Ne.symm h0.1),
        if_neg (by simp [Ne.symm hp.1]), ← hg, ih h0.2 hp.2, List.cons_append]

/-- A format without a conversion is copied up to its first null byte. -/
theorem sprintf_of_not_mem (fmt : Bytes) (n : Int) (hp : ch '%' ∉ fmt) :
    sprintf fmt n = fmt.takeWhile (· ≠ 0) := by
  induction fmt with
  | nil => rfl
  | cons f fmt ih =>
      simp only [List.mem_cons, not_or] at hp
      by_cases hf : f = 0
      · subst hf
        cases fmt <;> simp [sprintf]
      · cases fmt with
        | nil => simp [sprintf, hf]
        | cons g fmt =>
            rw [sprintf, if_neg hf, if_neg fun h => hp.1 h.1.symm, ih hp.2]
            exact (List.takeWhile_cons_of_pos (by simpa using hf)).symm

/-- `sscanf` skips the literal text before the conversion. -/
theorem sscanf_append_conversion (pre post text : Bytes) (hp : ch '%' ∉ pre) :
    sscanf (pre ++ text) (pre ++ ch '%' :: ch 'i' :: post) = scan_i text := by
  induction pre with
  | nil => cases text <;> simp [sscanf]
  | cons f pre ih =>
      simp only [List.mem_cons, not_or] at hp
      rw [List.cons_append, List.cons_append, sscanf, if_neg (by simp [Ne.symm hp.1])]
      simpa using ih hp.2

end Decimal
end DoubleTurnouts
