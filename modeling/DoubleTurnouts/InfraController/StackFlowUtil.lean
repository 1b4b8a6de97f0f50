/-
  DoubleTurnouts.InfraController.StackFlowUtil

  The helpers every unit shares: the textual JSON field reader
  `sample_json_str_get`, the work-id functions and the stream reassembly
  `decode_stream`.

  `sample_json_str_get` looks for the first textual occurrence of the quoted
  key and runs a character automaton on the rest (`Scan`).  Its lemmas follow
  the automaton: what state 0 does with white space and a colon, what state
  100 does with the characters of a string, and that the end state keeps what
  was read.
-/
import Mathlib.Tactic
import DoubleTurnouts.Lib.Bytes
import DoubleTurnouts.Lib.Decimal
import DoubleTurnouts.Lib.Utf8

namespace DoubleTurnouts

open Text Decimal

/-- The double quote and the backslash, named where they carry an argument. -/
abbrev quote : UInt8 := ch '"'
abbrev backslash : UInt8 := ch '\\'

/-! ## `sample_json_str_get` -/

/-- The automaton's `status`: 0, 10 (inside an object), 100 (inside a string), -1. -/
inductive Status
  | s0
  | s10
  | s100
  | sEnd
  deriving DecidableEq, Repr

/-- The local variables of the scan loop. -/
structure Scan where
  status : Status
  last_c : UInt8
  obj_flage : Int
  key_val : Bytes
  deriving DecidableEq, Repr

namespace Scan

def init : Scan where
  status := .s0
  last_c := 0
  obj_flage := 0
  key_val := []

/-- `case 0` of the switch. -/
def step0 (σ : Scan) (c : UInt8) : Scan :=
  if c = quote then { σ with status := .s100 }
  else if c = ch '{' then { σ with key_val := σ.key_val ++ [c], obj_flage := 1, status := .s10 }
  else if c = ch ':' then { σ with obj_flage := 1 }
  -- the end of a scalar, or of a member that never had a value
  else if c = ch ',' ∨ c = ch '}' then { σ with obj_flage := 0, status := .sEnd }
  else if c = ch ' ' then σ
  -- what stands before the colon is no part of the value
  else if σ.obj_flage ≠ 0 then { σ with key_val := σ.key_val ++ [c] }
  else σ

/-- `case 10`: copy the object and count its braces. -/
def step10 (σ : Scan) (c : UInt8) : Scan :=
  let key_val := σ.key_val ++ [c]
  let obj_flage := if c = ch '{' then σ.obj_flage + 1 else σ.obj_flage
  let obj_flage := if c = ch '}' then obj_flage - 1 else obj_flage
  let status := if obj_flage = 0 then (if key_val ≠ [] then Status.sEnd else σ.status) else σ.status
  { σ with key_val := key_val, obj_flage := obj_flage, status := status }

/-- `case 100`: copy the string up to a quote that no backslash precedes. -/
def step100 (σ : Scan) (c : UInt8) : Scan :=
  if c = quote ∧ σ.last_c ≠ backslash then { σ with obj_flage := 0, status := .sEnd }
  -- an escaped quote is copied with its backslash
  else { σ with key_val := σ.key_val ++ [c] }

/-- One character. -/
def step (σ : Scan) (c : UInt8) : Scan :=
  { (match σ.status with
      | .s0 => σ.step0 c
      | .s10 => σ.step10 c
      | .s100 => σ.step100 c
      | .sEnd => σ) with last_c := c }

/-- The whole loop. -/
def run (σ : Scan) (s : Bytes) : Scan := s.foldl step σ

/-- The value returned after the loop. -/
def result (σ : Scan) : Bytes := if σ.obj_flage ≠ 0 then [] else σ.key_val

end Scan

/-- `"` + json_key + `"`. -/
def find_key (json_key : Bytes) : Bytes := quote :: (json_key ++ [quote])

/-- On a text whose positions are ints.  The casts are in `Sized.sample_json_str_get`. -/
def sample_json_str_get (json_str json_key : Bytes) : Bytes :=
  match find (find_key json_key) json_str with
  | none => []
  | some subs_start =>
      (Scan.init.run (json_str.drop (subs_start + (find_key json_key).length))).result

/-! ## Work ids -/

def WORK_ID_NONE : Int := -100

section WorkIds

-- what storing a position in an int does to it
variable (int : Int → Int)

/-- `int a = work_id.find(".")`: the first dot, not the last one, and -1 for `npos`. -/
def dot_position (work_id : Bytes) : Int :=
  match find [ch '.'] work_id with
  | none => -1
  | some a => int a

/-- `sample_get_work_id_num`.  As a `size_t`, a negative int is larger than every length. -/
def sample_get_work_id_numIn (work_id : Bytes) : Except Exn Int :=
  let a := dot_position int work_id
  if a = -1 ∨ a = (work_id.length : Int) - 1 then .ok WORK_ID_NONE
  else
    let pos := int (a + 1)
    -- `substr` throws behind the end
    if pos < 0 ∨ work_id.length < pos.toNat then .error .out_of_range
    else stoi (work_id.drop pos.toNat)

/-- `sample_get_work_id_name`. -/
def sample_get_work_id_nameIn (work_id : Bytes) : Bytes :=
  let a := dot_position int work_id
  if a = -1 then work_id
  -- `substr(0, a)` with a huge count is the whole text
  else if a < 0 then work_id
  else work_id.take a.toNat

end WorkIds

/-- On a work id whose positions are ints. -/
def sample_get_work_id_num (work_id : Bytes) : Except Exn Int :=
  sample_get_work_id_numIn id work_id

def sample_get_work_id_name (work_id : Bytes) : Bytes := sample_get_work_id_nameIn id work_id

def sample_get_work_id (work_id_num : Int) (unit_name : Bytes) : Bytes :=
  unit_name ++ ch '.' :: to_string work_id_num

/-! ## Streams -/

/-- `for (i = 0; i < size; i++) out += stream_buff.at(i)`, with `at` throwing on a gap. -/
def joinStream (stream_buff : Map Int Bytes) : (n i : Nat) → Except Exn Bytes
  | 0, _ => .ok []
  | n + 1, i =>
      match stream_buff.lookup (wrap32 i) with
      | none => .error .out_of_range
      | some delta => (joinStream stream_buff n (i + 1)).map (delta ++ ·)

/-- `decode_stream(in, out, stream_buff)`, with the reader of the members: the returned flag
    with the text appended to `out` (or the exception), and the buffer as it is left. -/
def decode_streamWith (sample_json_str_get : Bytes → Bytes → Except Exn Bytes) (data : Bytes)
    (stream_buff : Map Int Bytes) : Except Exn (Bool × Bytes) × Map Int Bytes :=
  match sample_json_str_get data (str "index") >>= stoi, sample_json_str_get data (str "finish"),
      sample_json_str_get data (str "delta") with
  | .error e, _, _ | .ok _, .error e, _ | .ok _, .ok _, .error e => (.error e, stream_buff)
  | .ok index, .ok finish, .ok delta =>
      -- a repeated index overwrites, it is not an error
      let stream_buff := stream_buff.insert index delta
      -- "false" has an f and "true" has none
      if (find (str "f") finish).isNone then
        match joinStream stream_buff (Map.size stream_buff) 0 with
        | .error e => (.error e, stream_buff)
        -- cleared on success only: on a gap the caller has to do it
        | .ok out => (.ok (false, out), ∅)
      else (.ok (true, []), stream_buff)

def decode_stream (data : Bytes) (stream_buff : Map Int Bytes) :
    Except Exn (Bool × Bytes) × Map Int Bytes :=
  decode_streamWith (fun json_str json_key => .ok (sample_json_str_get json_str json_key)) data
    stream_buff

theorem decode_stream_eq (data : Bytes) (stream_buff : Map Int Bytes) :
    decode_stream data stream_buff =
      match stoi (sample_json_str_get data (str "index")) with
      | .error e => (.error e, stream_buff)
      | .ok index =>
          let stream_buff := stream_buff.insert index (sample_json_str_get data (str "delta"))
          if (find (str "f") (sample_json_str_get data (str "finish"))).isNone then
            match joinStream stream_buff (Map.size stream_buff) 0 with
            | .error e => (.error e, stream_buff)
            | .ok out => (.ok (false, out), ∅)
          else (.ok (true, []), stream_buff) := by
  have hindex : (Except.ok (sample_json_str_get data (str "index")) >>= stoi) =
      stoi (sample_json_str_get data (str "index")) := rfl
  rw [decode_stream, decode_streamWith, hindex]
  cases stoi (sample_json_str_get data (str "index")) with
  | error e => rfl
  | ok index => rfl

/-! ## The automaton, one stretch of text at a time -/

namespace Scan

@[simp] theorem run_nil (σ : Scan) : σ.run [] = σ := rfl

@[simp] theorem run_cons (σ : Scan) (c : UInt8) (s : Bytes) :
    σ.run (c :: s) = (σ.step c).run s := rfl

theorem run_append (σ : Scan) (s t : Bytes) : σ.run (s ++ t) = (σ.run s).run t := by
  simp [run]

/-- After the value has ended the rest of the text changes nothing that is returned. -/
theorem run_of_sEnd {σ : Scan} (h : σ.status = .sEnd) (s : Bytes) :
    (σ.run s).key_val = σ.key_val ∧ (σ.run s).obj_flage = σ.obj_flage := by
  induction s generalizing σ with
  | nil => exact ⟨rfl, rfl⟩
  | cons c s ih =>
      have hstep : σ.step c = { σ with last_c := c } := by simp [step, h]
      rw [run_cons, hstep]
      exact @ih { σ with last_c := c } h

theorem result_run_of_sEnd {σ : Scan} (h : σ.status = .sEnd) (s : Bytes) :
    (σ.run s).result = σ.result := by
  obtain ⟨hval, hflag⟩ := run_of_sEnd h s
  simp [result, hval, hflag]

/-- What follows a value that has ended is not read. -/
theorem result_run_append {σ : Scan} {s : Bytes} (h : (σ.run s).status = .sEnd) (rest : Bytes) :
    (σ.run (s ++ rest)).result = (σ.run s).result := by
  rw [run_append, result_run_of_sEnd h]

/-- A key that was found where a value should be is followed by a comma, and nothing is read. -/
theorem result_comma (rest : Bytes) : (init.run (ch ',' :: rest)).result = [] :=
  result_run_append (s := [ch ',']) (by decide) rest

/-- What has been read is never taken back inside the loop. -/
theorem key_val_prefix_step (σ : Scan) (c : UInt8) : σ.key_val <+: (σ.step c).key_val := by
  cases hs : σ.status with
  | s0 =>
      simp only [step, hs, step0]
      split_ifs <;> simp
  | s10 => simp [step, hs, step10]
  | s100 =>
      simp only [step, hs, step100]
      split_ifs <;> simp
  | sEnd => simp [step, hs]

theorem key_val_prefix_run (σ : Scan) (s : Bytes) : σ.key_val <+: (σ.run s).key_val := by
  induction s generalizing σ with
  | nil => exact List.prefix_refl _
  | cons c s ih => exact (key_val_prefix_step σ c).trans (ih (σ.step c))

/-- White space as JSON has it. -/
def isWs (c : UInt8) : Bool := c = ch ' ' || c = ch '\n' || c = ch '\r' || c = ch '\t'

/-- One white space character in state 0: a space is dropped; the others are dropped
    before the colon and copied after it. -/
theorem step_ws {σ : Scan} (hs : σ.status = .s0) {c : UInt8} (hc : isWs c = true) :
    σ.step c = { σ with
      last_c := c
      key_val := if c = ch ' ' ∨ σ.obj_flage = 0 then σ.key_val else σ.key_val ++ [c] } := by
  simp only [isWs, Bool.or_eq_true, decide_eq_true_eq] at hc
  have hne : c ≠ quote ∧ c ≠ ch '{' ∧ c ≠ ch ':' ∧ c ≠ ch ',' ∧ c ≠ ch '}' := by
    rcases hc with ((h | h) | h) | h <;> subst h <;> decide
  obtain ⟨h1, h2, h3, h4, h5⟩ := hne
  simp only [step, hs, step0, h1, h2, h3, h4, h5, if_false, or_self]
  by_cases hsp : c = ch ' '
  · simp [hsp, hs]
  · by_cases hf : σ.obj_flage = 0
    · simp [hsp, hf, hs]
    · simp [hsp, hf]

/-- A stretch of white space in state 0. -/
theorem run_ws {σ : Scan} (hs : σ.status = .s0) {ws : Bytes} (hws : ws.all isWs = true) :
    ∃ last, σ.run ws = { σ with
      last_c := last
      key_val := if σ.obj_flage = 0 then σ.key_val
        else σ.key_val ++ ws.filter (· ≠ ch ' ') } := by
  induction ws generalizing σ with
  | nil =>
      refine ⟨σ.last_c, ?_⟩
      cases σ
      simp
  | cons c ws ih =>
      simp only [List.all_cons, Bool.and_eq_true] at hws
      obtain ⟨last, hrun⟩ := @ih (σ.step c) (by rw [step_ws hs hws.1]; exact hs) hws.2
      refine ⟨last, ?_⟩
      rw [run_cons, hrun, step_ws hs hws.1]
      by_cases hf : σ.obj_flage = 0
      · simp [hf]
      · by_cases hsp : c = ch ' '
        · simp [hf, hsp]
        · simp [hf, hsp]

/-- The text of a string literal never ends the scan: each of its quotes is preceded by a
    backslash (`prev` is the character before the text). -/
def noClose : UInt8 → Bytes → Bool
  | _, [] => true
  | prev, c :: s => (c ≠ quote || prev = backslash) && noClose c s

/-- State 100 copies such a text. -/
theorem run_noClose {σ : Scan} (hs : σ.status = .s100) {s : Bytes}
    (h : noClose σ.last_c s = true) :
    σ.run s = { σ with last_c := s.getLast?.getD σ.last_c, key_val := σ.key_val ++ s } := by
  induction s generalizing σ with
  | nil => cases σ; simp
  | cons c s ih =>
      simp only [noClose, Bool.and_eq_true, Bool.or_eq_true, decide_eq_true_eq] at h
      have hstep : σ.step c = { σ with last_c := c, key_val := σ.key_val ++ [c] } := by
        -- a quote behind a backslash does not close
        have hopen : ¬ (c = quote ∧ σ.last_c ≠ backslash) := by
          rintro ⟨hq, hb⟩
          rcases h.1 with h1 | h1
          · exact h1 hq
          · exact hb h1
        simp [step, hs, step100, hopen]
      rw [run_cons, hstep, @ih { σ with last_c := c, key_val := σ.key_val ++ [c] } hs h.2]
      simp [List.getLast?_cons]

/-- Without a quote there is nothing that could close the string. -/
theorem noClose_of_not_mem {s : Bytes} (h : quote ∉ s) (prev : UInt8) :
    noClose prev s = true := by
  induction s generalizing prev with
  | nil => rfl
  | cons c s ih =>
      simp only [List.mem_cons, not_or] at h
      simp [noClose, Ne.symm h.1, ih h.2 c]

theorem noClose_append (prev : UInt8) (s t : Bytes) :
    noClose prev (s ++ t) = (noClose prev s && noClose (s.getLast?.getD prev) t) := by
  induction s generalizing prev with
  | nil => rfl
  | cons c s ih =>
      rw [List.cons_append, noClose, noClose, ih, Bool.and_assoc, List.getLast?_cons]
      rfl

/-- A stretch without quotes in front. -/
theorem noClose_append_of_not_mem {s t : Bytes} (hs : quote ∉ s)
    (ht : ∀ prev, noClose prev t = true) (prev : UInt8) : noClose prev (s ++ t) = true := by
  induction s generalizing prev with
  | nil => exact ht prev
  | cons c s ih =>
      simp only [List.mem_cons, not_or] at hs
      simp [noClose, Ne.symm hs.1, ih hs.2 c]

/-- A quote after a string that does not end in a backslash closes it. -/
theorem step_close {σ : Scan} (hs : σ.status = .s100) (hl : σ.last_c ≠ backslash) :
    σ.step quote = { σ with status := .sEnd, last_c := quote, obj_flage := 0 } := by
  simp [step, hs, step100, hl]

/-- Scanning on either loses the value or keeps what was read. -/
theorem result_run_prefix (σ : Scan) (s : Bytes) :
    (σ.run s).result = [] ∨ σ.key_val <+: (σ.run s).result := by
  by_cases h : (σ.run s).obj_flage = 0
  · right
    rw [result, if_neg (by simpa using h)]
    exact key_val_prefix_run σ s
  · left
    rw [result, if_pos h]

end Scan

/-! ## Work ids are unambiguous -/

theorem dot_not_mem_to_string (n : Int) : ch '.' ∉ to_string n :=
  not_mem_to_string n (by decide) (by decide)

/-- A work id determines its unit name and its number: the number follows the last dot. -/
theorem sample_get_work_id_inj {n n' : Int} {u u' : Bytes}
    (h : sample_get_work_id n u = sample_get_work_id n' u') : u = u' ∧ n = n' := by
  -- a number has no dot, so the last dot separates the two
  obtain ⟨hu, hn⟩ := append_cons_inj_of_not_mem_right (dot_not_mem_to_string n)
    (dot_not_mem_to_string n') h
  exact ⟨hu, to_string_injective hn⟩

/-- The dot of a work id whose unit name has none. -/
theorem dot_position_work_id (int : Int → Int) {u : Bytes} (hu : ch '.' ∉ u) (n : Int) :
    dot_position int (sample_get_work_id n u) = int u.length := by
  rw [dot_position, sample_get_work_id, find_singleton_append _ _ hu]

theorem length_work_id (n : Int) (u : Bytes) :
    (sample_get_work_id n u).length = u.length + 1 + (to_string n).length := by
  rw [sample_get_work_id, List.length_append, List.length_cons]
  omega

/-- The number is read back if the position of the dot and the one behind it are ints. -/
theorem sample_get_work_id_numIn_work_id {int : Int → Int} {n : Int} (hn : IsInt32 n) {u : Bytes}
    (hdot : dot_position int (sample_get_work_id n u) = u.length)
    (hnext : int ((u.length : Int) + 1) = u.length + 1) :
    sample_get_work_id_numIn int (sample_get_work_id n u) = .ok n := by
  have hlen := length_work_id n u
  have hne : (to_string n).length ≠ 0 := by simpa using to_string_ne_nil n
  have hpos : ((u.length : Int) + 1).toNat = u.length + 1 := by omega
  have hdrop : (sample_get_work_id n u).drop (u.length + 1) = to_string n := by
    rw [sample_get_work_id, ← List.drop_drop, List.drop_left]
    rfl
  simp only [sample_get_work_id_numIn, hdot, hnext, hpos]
  rw [if_neg (by omega), if_neg (by omega), hdrop, stoi_to_string hn]

/-- A unit name without a dot is followed by the first dot of the work id, so the number is
    read back from it. -/
theorem sample_get_work_id_num_work_id {n : Int} (hn : IsInt32 n) {u : Bytes}
    (hu : ch '.' ∉ u) : sample_get_work_id_num (sample_get_work_id n u) = .ok n :=
  sample_get_work_id_numIn_work_id hn (dot_position_work_id id hu n) rfl

/-! ## Reading one member -/

/-- The reader in terms of the text after the first occurrence of the quoted key. -/
theorem sample_json_str_get_eq_after (json_str json_key : Bytes) :
    sample_json_str_get json_str json_key =
      match after (find_key json_key) json_str with
      | none => []
      | some rest => (Scan.init.run rest).result := by
  rw [after_eq_find, sample_json_str_get]
  cases find (find_key json_key) json_str <;> rfl

theorem sample_json_str_get_of_after {json_str json_key rest : Bytes}
    (h : after (find_key json_key) json_str = some rest) :
    sample_json_str_get json_str json_key = (Scan.init.run rest).result := by
  rw [sample_json_str_get_eq_after, h]

theorem sample_json_str_get_of_after_none {json_str json_key : Bytes}
    (h : after (find_key json_key) json_str = none) :
    sample_json_str_get json_str json_key = [] := by
  rw [sample_json_str_get_eq_after, h]

/-- The state in which the scan of a string member's value starts: `ws1`, the colon and
    `ws2` have been passed, and the opening quote. -/
theorem run_member_string_open {ws1 ws2 : Bytes} (h1 : ws1.all Scan.isWs = true)
    (h2 : ws2.all Scan.isWs = true) (rest : Bytes) :
    Scan.init.run (ws1 ++ ch ':' :: (ws2 ++ quote :: rest)) =
      Scan.run { status := .s100, last_c := quote, obj_flage := 1,
                 key_val := ws2.filter (· ≠ ch ' ') } rest := by
  obtain ⟨last1, hrun1⟩ := Scan.run_ws (σ := Scan.init) rfl h1
  obtain ⟨last2, hrun2⟩ := Scan.run_ws
    (σ := { status := .s0, last_c := ch ':', obj_flage := 1, key_val := [] }) rfl h2
  have hcolon : ∀ l, (({ Scan.init with last_c := l } : Scan).step (ch ':'))
      = { status := .s0, last_c := ch ':', obj_flage := 1, key_val := [] } := by
    intro l
    simp [Scan.step, Scan.step0, Scan.init, show ch ':' ≠ quote by decide,
      show ch ':' ≠ ch '{' by decide]
  have hinit : ({ Scan.init with
      last_c := last1
      key_val := if Scan.init.obj_flage = 0 then Scan.init.key_val
        else Scan.init.key_val ++ ws1.filter (· ≠ ch ' ') } : Scan)
      = { Scan.init with last_c := last1 } := by simp [Scan.init]
  rw [Scan.run_append, hrun1, hinit, Scan.run_cons, hcolon, Scan.run_append, hrun2,
    Scan.run_cons]
  congr 1

/-- A string member whose text does not close early and does not end in a backslash: its
    text is returned, behind the white space that followed the colon. -/
theorem result_member_string {ws1 ws2 lit post : Bytes} (h1 : ws1.all Scan.isWs = true)
    (h2 : ws2.all Scan.isWs = true) (hlit : Scan.noClose quote lit = true)
    (hlast : lit.getLast? ≠ some backslash) :
    (Scan.init.run (ws1 ++ ch ':' :: (ws2 ++ quote :: (lit ++ quote :: post)))).result
      = ws2.filter (· ≠ ch ' ') ++ lit := by
  have hcopy := Scan.run_noClose
    (σ := { status := .s100, last_c := quote, obj_flage := 1,
            key_val := ws2.filter (· ≠ ch ' ') }) rfl hlit
  rw [run_member_string_open h1 h2, Scan.run_append, hcopy, Scan.run_cons, Scan.step_close rfl]
  · rw [Scan.result_run_of_sEnd rfl]
    rfl
  · cases hl : lit.getLast? with
    | none => exact (by decide : quote ≠ backslash)
    | some c =>
        rw [hl] at hlast
        simpa using hlast

/-- In general the result of a string member is empty or starts with that. -/
theorem result_member_string_starts {ws1 ws2 lit post : Bytes} (h1 : ws1.all Scan.isWs = true)
    (h2 : ws2.all Scan.isWs = true) (hlit : Scan.noClose quote lit = true) :
    (Scan.init.run (ws1 ++ ch ':' :: (ws2 ++ quote :: (lit ++ post)))).result = [] ∨
      ws2.filter (· ≠ ch ' ') ++ lit <+:
        (Scan.init.run (ws1 ++ ch ':' :: (ws2 ++ quote :: (lit ++ post)))).result := by
  have hcopy := Scan.run_noClose
    (σ := { status := .s100, last_c := quote, obj_flage := 1,
            key_val := ws2.filter (· ≠ ch ' ') }) rfl hlit
  rw [run_member_string_open h1 h2, Scan.run_append, hcopy]
  exact Scan.result_run_prefix _ post

/-! ## Values are UTF-8 if the text is

Only ASCII characters move the automaton between its states, so it copies or drops a
character of several bytes as a whole. -/

namespace Scan

/-- `u` is where the UTF-8 automaton stands in the scanned text. -/
def Utf8Ok (σ : Scan) (u : Utf8.State) : Prop :=
  match σ.status with
  | .s0 => σ.key_val.foldl Utf8.step .start = if σ.obj_flage = 0 then .start else u
  | .s10 => σ.key_val.foldl Utf8.step .start = u ∧ σ.obj_flage ≠ 0
  | .s100 => σ.key_val.foldl Utf8.step .start = u
  | .sEnd => Utf8.Valid σ.key_val

theorem utf8Ok_step {σ : Scan} {u : Utf8.State} (h : σ.Utf8Ok u) {c : UInt8}
    (hc : c < 0x80 → u = .start) : (σ.step c).Utf8Ok (Utf8.step u c) := by
  have hpush : (σ.key_val ++ [c]).foldl Utf8.step .start =
      Utf8.step (σ.key_val.foldl Utf8.step .start) c := by simp
  have hascii : c < 0x80 → u = .start ∧ Utf8.step u c = .start := by
    intro hlt
    rw [hc hlt]
    exact ⟨rfl, Utf8.step_ascii hlt⟩
  cases hs : σ.status with
  | s0 =>
      have hval : σ.key_val.foldl Utf8.step .start = if σ.obj_flage = 0 then .start else u := by
        simpa [Utf8Ok, hs] using h
      have hstart : u = .start → σ.key_val.foldl Utf8.step .start = .start := by
        intro hu
        rw [hval, hu, ite_self]
      simp only [step, hs, step0]
      split_ifs with hquote hopen hcolon hclose hspace hflag
      · obtain ⟨hu, hu'⟩ := hascii (by rw [hquote]; decide)
        simp [Utf8Ok, hu', hstart hu]
      · obtain ⟨hu, hu'⟩ := hascii (by rw [hopen]; decide)
        rw [hu] at hu'
        simp [Utf8Ok, hu, hu', hstart hu]
      · obtain ⟨hu, hu'⟩ := hascii (by rw [hcolon]; decide)
        simp [Utf8Ok, hu', hstart hu]
      · obtain ⟨hu, -⟩ := hascii (by rcases hclose with rfl | rfl <;> decide)
        exact hstart hu
      · obtain ⟨hu, hu'⟩ := hascii (by rw [hspace]; decide)
        simp [Utf8Ok, hs, hu', hstart hu]
      · have hu : σ.obj_flage ≠ 0 := hflag
        simp only [Utf8Ok, hpush, hval, if_neg hu]
      · have hu : σ.obj_flage = 0 := by simpa using hflag
        simp only [Utf8Ok, hs, hval, if_pos hu]
  | s10 =>
      obtain ⟨hval, hflag⟩ : σ.key_val.foldl Utf8.step .start = u ∧ σ.obj_flage ≠ 0 := by
        simpa [Utf8Ok, hs] using h
      -- only a brace changes the count, so the object ends with an ASCII character
      have hbrace : (σ.step10 c).obj_flage = 0 → c < 0x80 := by
        intro hzero
        by_contra hlarge
        have hopen : c ≠ ch '{' := fun hc => hlarge (by rw [hc]; decide)
        have hclose : c ≠ ch '}' := fun hc => hlarge (by rw [hc]; decide)
        simp only [step10, hopen, hclose, if_false] at hzero
        exact hflag hzero
      have hkey : (σ.step10 c).key_val.foldl Utf8.step .start = Utf8.step u c := by
        rw [← hval, ← hpush]
        rfl
      have hstatus : (σ.step10 c).status =
          if (σ.step10 c).obj_flage = 0 then .sEnd else .s10 := by
        simp [step10, hs]
      simp only [step, hs]
      by_cases hzero : (σ.step10 c).obj_flage = 0
      · obtain ⟨-, hu'⟩ := hascii (hbrace hzero)
        simpa [Utf8Ok, hstatus, hzero, Utf8.Valid, hu'] using hkey
      · simpa [Utf8Ok, hstatus, hzero] using hkey
  | s100 =>
      have hval : σ.key_val.foldl Utf8.step .start = u := by simpa [Utf8Ok, hs] using h
      simp only [step, hs, step100]
      split_ifs with hclose
      · obtain ⟨hu, -⟩ := hascii (by rw [hclose.1]; decide)
        simpa [Utf8Ok, Utf8.Valid, hu] using hval
      · simp only [Utf8Ok, hpush, hval]
  | sEnd =>
      have hval : Utf8.Valid σ.key_val := by simpa [Utf8Ok, hs] using h
      simpa [step, hs, Utf8Ok] using hval

theorem utf8Ok_run {σ : Scan} {u : Utf8.State} (h : σ.Utf8Ok u) (hu : u.Inner) {s : Bytes}
    (hs : s.foldl Utf8.step u = .start) : (σ.run s).Utf8Ok .start := by
  induction s generalizing σ u with
  | nil =>
      obtain rfl : u = .start := hs
      exact h
  | cons c s ih =>
      have hc : c < 0x80 → u = .start := fun hlt => Utf8.start_of_ascii hu hlt hs
      exact ih (utf8Ok_step h hc) (Utf8.inner_step u c) hs

theorem utf8Ok_result {σ : Scan} (h : σ.Utf8Ok .start) : Utf8.Valid σ.result := by
  unfold result
  split
  · exact rfl
  · cases hs : σ.status with
    | s0 => simpa [Utf8Ok, hs, Utf8.Valid] using h
    | s10 =>
        simp only [Utf8Ok, hs] at h
        exact h.1
    | s100 => simpa [Utf8Ok, hs, Utf8.Valid] using h
    | sEnd => simpa [Utf8Ok, hs] using h

end Scan

theorem sample_json_str_get_valid {json_str json_key : Bytes} (h : Utf8.Valid json_str) :
    Utf8.Valid (sample_json_str_get json_str json_key) := by
  unfold sample_json_str_get
  split
  · exact rfl
  · rename_i subs_start hfind
    -- the value is scanned from a quote on, which is the end of a character
    obtain ⟨-, ⟨rest, hrest⟩, -⟩ := find_eq_some_iff.mp hfind
    have htext : json_str =
        (json_str.take subs_start ++ quote :: json_key) ++ quote :: rest := by
      conv_lhs => rw [← List.take_append_drop subs_start json_str, ← hrest]
      simp [find_key]
    have hdrop : json_str.drop (subs_start + (find_key json_key).length) = rest := by
      rw [← List.drop_drop, ← hrest, List.drop_left]
    rw [htext] at h
    obtain ⟨-, hvalid⟩ := Utf8.Valid.of_append_cons (by decide) h
    have hinit : Scan.init.Utf8Ok .start := rfl
    have hu : Utf8.State.start.Inner := trivial
    rw [hdrop]
    exact Scan.utf8Ok_result (Scan.utf8Ok_run hinit hu hvalid)

end DoubleTurnouts
