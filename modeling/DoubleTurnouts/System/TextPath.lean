/-
  DoubleTurnouts.System.TextPath

  A user's text from the client to the model: `json.dumps`, the manager's
  splice, the node's two passes of `sample_json_str_get`, `decode_stream`.

  The first pass copies the `data` object by counting braces, also those
  inside strings, so the text must not close an object it did not open and
  may leave at most one open: one closing brace of the request is left to
  spend.  The second pass copies the `delta` literal as it stands, so nothing
  in the text may need an escape.  Both passes look for their keys anywhere,
  so neither the text nor the request id may look like one.
-/
import Mathlib.Tactic
import DoubleTurnouts.InfraController.ObjectScan
import DoubleTurnouts.Node.Control
import DoubleTurnouts.Node.Ready
import DoubleTurnouts.Sample.Dumps
import DoubleTurnouts.UnitManager.Dispatch
import DoubleTurnouts.UnitManager.PortRegistry

namespace DoubleTurnouts

open Text Decimal

/-! ## Escaping does not touch braces -/

theorem balance_escape (c : UInt8) : balance (escape c) = balance [c] := by
  by_cases hplain : Plain c
  · rw [escape_of_plain hplain]
  · have hne : c ≠ ch '{' ∧ c ≠ ch '}' := by
      constructor <;> (rintro rfl; exact hplain (by decide))
    rw [balance_of_no_brace (escapeShape hplain).brace, balance_singleton]
    simp [hne]

theorem balance_escaped (s : Bytes) : balance (escaped s) = balance s := by
  induction s with
  | nil => rfl
  | cons c s ih =>
      rw [escaped_cons, balance_append, balance_escape, ih, ← balance_append]
      rfl

theorem staysOpen_escaped {f : Int} {s : Bytes} (hf : 0 < f) :
    StaysOpen f (escaped s) ↔ StaysOpen f s := by
  induction s generalizing f with
  | nil => rfl
  | cons c s ih =>
      have hhead : StaysOpen f (escape c) ↔ 0 < f + balance [c] := by
        by_cases hplain : Plain c
        · rw [escape_of_plain hplain, staysOpen_cons hf]
          exact and_iff_left_of_imp staysOpen_nil
        · have hbal := balance_escape c
          rw [balance_of_no_brace (escapeShape hplain).brace] at hbal
          rw [← hbal]
          exact iff_of_true (staysOpen_of_no_brace hf (escapeShape hplain).brace) (by omega)
      rw [escaped_cons, staysOpen_append hf, staysOpen_cons hf, hhead, balance_escape]
      exact and_congr_right fun hpos => ih hpos

/-! ## The request -/

/-- The `data` of a one-chunk stream. -/
def chunkJson (t : Bytes) : Json :=
  .object [(str "delta", .string t), (str "index", .int 0), (str "finish", .bool true)]

/-- The inference request of `sample/test.py`. -/
def inferenceJson (request_id work_id t : Bytes) : Json :=
  .object [(str "request_id", .string request_id), (str "work_id", .string work_id),
    (str "action", .string (str "inference")), (str "object", .string (str "llm.utf-8.stream")),
    (str "data", chunkJson t)]

theorem dumps_chunkJson (t : Bytes) :
    dumps (chunkJson t) = str "\x7b" ++ (find_key (str "delta") ++ (str ": " ++ (literal t ++
      (str ", " ++ (find_key (str "index") ++ (str ": 0, " ++ (find_key (str "finish") ++
        str ": true\x7d"))))))) := by
  have hdelta : literal (str "delta") = find_key (str "delta") := by decide
  have hindex : literal (str "index") = find_key (str "index") := by decide
  have hfinish : literal (str "finish") = find_key (str "finish") := by decide
  simp only [chunkJson, dumps, dumpsMembers, hdelta, hindex, hfinish, List.append_assoc]
  rfl

/-- What the manager publishes. -/
theorem spliced_inferenceJson (com_id : Int) (request_id work_id t : Bytes) :
    spliced (sprintf zmqFormat com_id) (dumps (inferenceJson request_id work_id t)) =
      str "\x7b\"zmq_com\":\"ipc:///tmp/llm/" ++ (to_string com_id ++
        (str ".sock\",\"request_id\": " ++ (literal request_id ++ (str ", \"work_id\": " ++
          (literal work_id ++ (str ", \"action\": \"inference\", " ++ (find_key (str "object") ++
            (str ": \"llm.utf-8.stream\", " ++ (find_key (str "data") ++ (str ": " ++
              (dumps (chunkJson t) ++ str "\x7d"))))))))))) := by
  have hid : literal (str "request_id") = str "\"request_id\"" := by decide
  have hwork : literal (str "work_id") = str "\"work_id\"" := by decide
  have haction : literal (str "action") = str "\"action\"" := by decide
  have hinference : literal (str "inference") = str "\"inference\"" := by decide
  have hobject : literal (str "object") = find_key (str "object") := by decide
  have hstream : literal (str "llm.utf-8.stream") = str "\"llm.utf-8.stream\"" := by decide
  have hdata : literal (str "data") = find_key (str "data") := by decide
  rw [spliced, sprintf_zmqFormat]
  generalize hchunk : chunkJson t = chunk
  simp only [inferenceJson, hchunk, dumps, dumpsMembers, hid, hwork, haction, hinference, hobject,
    hstream, hdata, List.append_assoc]
  rfl

/-! ## First pass: `object` and `data` -/

theorem not_endsIn_work_id {k : Bytes} (hk : ch '.' ∉ k) (n : Int) :
    ¬ EndsIn k (sample_get_work_id n (str "llm")) := by
  have hquote : quote ∉ sample_get_work_id n (str "llm") := by
    have hnum : quote ∉ to_string n := not_mem_to_string n (by decide) (by decide)
    simp only [sample_get_work_id, List.mem_append, List.mem_cons, not_or]
    exact ⟨by decide, by decide, hnum⟩
  rintro (h | h)
  · apply hk
    rw [← h, sample_get_work_id]
    simp
  · exact hquote (h.subset (by simp))

section FirstPass

variable (com_id n : Int) (request_id t : Bytes)

/-- The message the node receives. -/
def inferenceMessage : Bytes :=
  spliced (sprintf zmqFormat com_id)
    (dumps (inferenceJson request_id (sample_get_work_id n (str "llm")) t))

/-- A key that the message has only behind the work id. -/
theorem after_inferenceMessage {k : Bytes} (hk : ∀ c ∈ k, Plain c) (hdot : ch '.' ∉ k)
    (hhead : clear (find_key k) (str "\x7b\"zmq_com\":\"ipc:///tmp/llm/") = true)
    (hid : clear (find_key k) (str ".sock\",\"request_id\": ") = true)
    (hwork : clear (find_key k) (str "\", \"work_id\": ") = true) :
    after (find_key k) (inferenceMessage com_id n request_id t) =
      if EndsIn k request_id then
        some (str ", \"work_id\": " ++ (literal (sample_get_work_id n (str "llm")) ++
          (str ", \"action\": \"inference\", " ++ (find_key (str "object") ++
            (str ": \"llm.utf-8.stream\", " ++ (find_key (str "data") ++ (str ": " ++
              (dumps (chunkJson t) ++ str "\x7d"))))))))
      else
        after (find_key k) (str "\", \"action\": \"inference\", " ++ (find_key (str "object") ++
          (str ": \"llm.utf-8.stream\", " ++ (find_key (str "data") ++ (str ": " ++
            (dumps (chunkJson t) ++ str "\x7d")))))) := by
  have hnum : quote ∉ to_string com_id := not_mem_to_string com_id (by decide) (by decide)
  rw [inferenceMessage, spliced_inferenceJson, after_clear hhead, find_key, after_skip _ _ hnum,
    ← find_key, after_clear hid, after_literal hk]
  split
  · rfl
  · rw [show ∀ rest, quote :: (str ", \"work_id\": " ++ rest) = str "\", \"work_id\": " ++ rest
      from fun _ => rfl]
    rw [after_clear hwork, after_literal hk, if_neg (not_endsIn_work_id hdot n)]
    rfl

theorem get_object :
    sample_json_str_get (inferenceMessage com_id n request_id t) (str "object") =
      if EndsIn (str "object") request_id then [] else str "llm.utf-8.stream" := by
  have hafter := after_inferenceMessage com_id n request_id t (k := str "object") (by decide)
    (by decide) (by decide) (by decide) (by decide)
  split
  · rename_i hends
    rw [if_pos hends] at hafter
    rw [sample_json_str_get_of_after hafter]
    exact Scan.result_comma _
  · rename_i hends
    have hclear :
        clear (find_key (str "object")) (str "\", \"action\": \"inference\", ") = true := by
      decide
    rw [if_neg hends, after_clear hclear, after_self_append] at hafter
    have hend : (Scan.init.run (str ": \"llm.utf-8.stream\", ")).status = .sEnd := by decide
    rw [sample_json_str_get_of_after hafter, Scan.result_run_append hend]
    decide

/-- What the first pass reads as `data`. -/
def dataRead : Bytes :=
  (Scan.init.run (str ": " ++ (dumps (chunkJson t) ++ str "\x7d"))).result

theorem get_data :
    sample_json_str_get (inferenceMessage com_id n request_id t) (str "data") =
      if EndsIn (str "data") request_id then [] else dataRead t := by
  have hafter := after_inferenceMessage com_id n request_id t (k := str "data") (by decide)
    (by decide) (by decide) (by decide) (by decide)
  split
  · rename_i hends
    rw [if_pos hends] at hafter
    rw [sample_json_str_get_of_after hafter]
    exact Scan.result_comma _
  · rename_i hends
    have hclear : clear (find_key (str "data"))
        (str "\", \"action\": \"inference\", \"object\": \"llm.utf-8.stream\", ") = true := by
      decide
    have hjoin : str "\", \"action\": \"inference\", " ++ (find_key (str "object") ++
        str ": \"llm.utf-8.stream\", ") =
        str "\", \"action\": \"inference\", \"object\": \"llm.utf-8.stream\", " := by decide
    have htext : ∀ rest, str "\", \"action\": \"inference\", " ++ (find_key (str "object") ++
        (str ": \"llm.utf-8.stream\", " ++ rest)) =
        str "\", \"action\": \"inference\", \"object\": \"llm.utf-8.stream\", " ++ rest := by
      intro rest
      rw [← hjoin]
      simp only [List.append_assoc]
    rw [if_neg hends, htext, after_clear hclear, after_self_append] at hafter
    rw [sample_json_str_get_of_after hafter]
    rfl

end FirstPass

/-- The brace count at work on the object: `tail` is what follows the text's literal. -/
theorem dataRead_eq (t : Bytes) :
    dataRead t = ((Scan.inObject 1 (ch '{') (str "\x7b")).run (str "\"delta\": \"" ++
      (escaped t ++ str "\", \"index\": 0, \"finish\": true\x7d\x7d"))).result := by
  rw [dataRead, dumps_chunkJson]
  have htext : str ": " ++ ((str "\x7b" ++ (find_key (str "delta") ++ (str ": " ++ (literal t ++
      (str ", " ++ (find_key (str "index") ++ (str ": 0, " ++ (find_key (str "finish") ++
        str ": true\x7d")))))))) ++ str "\x7d") =
      str ": \x7b" ++ (str "\"delta\": \"" ++
        (escaped t ++ str "\", \"index\": 0, \"finish\": true\x7d\x7d")) := by
    simp only [literal, List.append_assoc, List.cons_append]
    rfl
  rw [htext, Scan.run_append]
  rfl

/-- The last two braces are those of the object and of the request. -/
theorem dataRead_eq_append (t : Bytes) :
    dataRead t = ((Scan.inObject 1 (ch '{') (str "\x7b")).run
      ((str "\"delta\": \"" ++ (escaped t ++ str "\", \"index\": 0, \"finish\": true")) ++
        str "\x7d\x7d")).result := by
  rw [dataRead_eq]
  simp only [List.append_assoc]
  rfl

/-- Up to the end of the text's first `p`, nothing but the braces of `p` counts. -/
theorem staysOpen_delta {p : Bytes} (h : StaysOpen 1 p) :
    StaysOpen 1 (str "\"delta\": \"" ++ escaped p) ∧
      balance (str "\"delta\": \"" ++ escaped p) = balance p := by
  have hhead : StaysOpen 1 (str "\"delta\": \"") :=
    staysOpen_of_no_brace (by decide) (by decide)
  have hzero : balance (str "\"delta\": \"") = 0 := by decide
  refine ⟨?_, by rw [balance_append, hzero, balance_escaped, zero_add]⟩
  rw [staysOpen_append (by decide), hzero]
  exact ⟨hhead, (staysOpen_escaped (by decide)).mpr h⟩

/-- A text that closes the object early: the rest of it is lost. -/
theorem dataRead_cut {p s : Bytes} (hopen : StaysOpen 1 p) (hbal : balance p = 0) :
    dataRead (p ++ ch '}' :: s) = str "\x7b\"delta\": \"" ++ (escaped p ++ str "\x7d") := by
  obtain ⟨hstays, hbalance⟩ := staysOpen_delta hopen
  have hclose : escape (ch '}') = [ch '}'] := by decide
  rw [dataRead_eq, escaped_append, escaped_cons, hclose]
  rw [show ∀ rest, str "\"delta\": \"" ++ (escaped p ++ ([ch '}'] ++ escaped s) ++ rest) =
    (str "\"delta\": \"" ++ escaped p) ++ ch '}' :: (escaped s ++ rest) by intro; simp]
  rw [Scan.result_close (by decide) hstays (by omega)]
  simp only [List.append_assoc]
  rfl

/-- The text is followed by literals and numbers, without braces. -/
theorem staysOpen_chunk {t : Bytes} (h : StaysOpen 1 t) :
    StaysOpen 1 (str "\"delta\": \"" ++ (escaped t ++ str "\", \"index\": 0, \"finish\": true")) ∧
      balance (str "\"delta\": \"" ++ (escaped t ++ str "\", \"index\": 0, \"finish\": true"))
        = balance t := by
  obtain ⟨hstays, hbalance⟩ := staysOpen_delta h
  have hpos := h t (List.prefix_refl t)
  have hzero : balance (str "\", \"index\": 0, \"finish\": true") = 0 := by decide
  rw [← List.append_assoc]
  refine ⟨?_, by rw [balance_append, hbalance, hzero, add_zero]⟩
  rw [staysOpen_append (by decide), hbalance]
  exact ⟨hstays, staysOpen_of_no_brace hpos (by decide)⟩

/-- A text that leaves nothing open, or one object: the whole `data` is read, in the second
    case with the last brace of the request. -/
theorem dataRead_closed {t : Bytes} (hopen : StaysOpen 1 t) (hbal : balance t ≤ 1) :
    ∃ x, dataRead t = dumps (chunkJson t) ++ x := by
  obtain ⟨hstays, hbalance⟩ := staysOpen_chunk hopen
  have hpos := hopen t (List.prefix_refl t)
  have hdumps : dumps (chunkJson t) = str "\x7b" ++ ((str "\"delta\": \"" ++ (escaped t ++
      str "\", \"index\": 0, \"finish\": true")) ++ str "\x7d") := by
    rw [dumps_chunkJson]
    simp only [literal, List.append_assoc, List.cons_append]
    rfl
  rw [dataRead_eq_append, hdumps]
  generalize str "\"delta\": \"" ++ (escaped t ++ str "\", \"index\": 0, \"finish\": true") = inner
    at hstays hbalance ⊢
  rcases (by omega : balance t = 0 ∨ balance t = 1) with hzero | hone
  · refine ⟨[], ?_⟩
    rw [show inner ++ str "\x7d\x7d" = inner ++ ch '}' :: str "\x7d" from rfl,
      Scan.result_close (by decide) hstays (by omega)]
    simp [str]
  · refine ⟨str "\x7d", ?_⟩
    have hclose : balance (str "\x7d") = -1 := by decide
    have hstays' : StaysOpen 1 (inner ++ str "\x7d") := by
      rw [staysOpen_append (by decide), hbalance, hone]
      exact ⟨hstays, (staysOpen_cons (by decide)).mpr ⟨by decide, staysOpen_nil (by decide)⟩⟩
    have hbal' : 1 + balance (inner ++ str "\x7d") = 1 := by
      rw [balance_append, hbalance, hone, hclose]
      rfl
    rw [show inner ++ str "\x7d\x7d" = (inner ++ str "\x7d") ++ ch '}' :: [] by simp [str],
      Scan.result_close (by decide) hstays' hbal']
    simp [str]

/-- A text that leaves more open: nothing is read. -/
theorem dataRead_unclosed {t : Bytes} (hopen : StaysOpen 1 t) (hbal : 2 ≤ balance t) :
    dataRead t = [] := by
  obtain ⟨hstays, hbalance⟩ := staysOpen_chunk hopen
  have hends : ∀ p, p <+: str "\x7d\x7d" → -2 ≤ balance p := by
    intro p hp
    have hmem : p ∈ (str "\x7d\x7d").inits := (List.mem_inits _ _).mpr hp
    have hall : ∀ q ∈ (str "\x7d\x7d").inits, -2 ≤ balance q := by decide
    exact hall p hmem
  rw [dataRead_eq_append]
  apply Scan.result_open (by decide)
  rw [staysOpen_append (by decide), hbalance]
  refine ⟨hstays, ?_⟩
  intro p hp
  have := hends p hp
  omega

/-! ## Second pass: `index`, `finish` and `delta` -/

section SecondPass

variable (t x : Bytes)

/-- The search for another key than `delta` passes the text, unless this looks like the key. -/
theorem after_text {k : Bytes} (hk : ∀ c ∈ k, Plain c)
    (hhead : clear (find_key k) (str "\x7b\"delta\": ") = true) :
    after (find_key k) (dumps (chunkJson t) ++ x) =
      if EndsIn k t then
        some (str ", " ++ (find_key (str "index") ++ (str ": 0, " ++ (find_key (str "finish") ++
          (str ": true\x7d" ++ x)))))
      else after (find_key k) (quote :: (str ", " ++ (find_key (str "index") ++ (str ": 0, " ++
        (find_key (str "finish") ++ (str ": true\x7d" ++ x)))))) := by
  rw [dumps_chunkJson]
  simp only [List.append_assoc]
  rw [show ∀ rest, str "\x7b" ++ (find_key (str "delta") ++ (str ": " ++ rest)) =
    str "\x7b\"delta\": " ++ rest from fun _ => rfl]
  rw [after_clear hhead, after_literal hk]

theorem get_index :
    sample_json_str_get (dumps (chunkJson t) ++ x) (str "index") =
      if EndsIn (str "index") t then [] else str "0" := by
  have hk : ∀ c ∈ str "index", Plain c := by decide
  have hhead : clear (find_key (str "index")) (str "\x7b\"delta\": ") = true := by decide
  have hsep : clear (find_key (str "index")) (str "\", ") = true := by decide
  have hafter : after (find_key (str "index")) (dumps (chunkJson t) ++ x) =
      if EndsIn (str "index") t then
        some (str ", " ++ (find_key (str "index") ++ (str ": 0, " ++ (find_key (str "finish") ++
          (str ": true\x7d" ++ x)))))
      else some (str ": 0, " ++ (find_key (str "finish") ++ (str ": true\x7d" ++ x))) := by
    rw [after_text t x hk hhead]
    split
    · rfl
    · rw [show ∀ rest, quote :: (str ", " ++ rest) = str "\", " ++ rest from fun _ => rfl,
        after_clear hsep, after_self_append]
  split
  · rename_i hends
    rw [if_pos hends] at hafter
    rw [sample_json_str_get_of_after hafter]
    exact Scan.result_comma _
  · rename_i hends
    have hend : (Scan.init.run (str ": 0, ")).status = .sEnd := by decide
    rw [if_neg hends] at hafter
    rw [sample_json_str_get_of_after hafter, Scan.result_run_append hend]
    decide

/-- `finish` is read as `true` or, behind a text that looks like the key, as nothing: both
    say that the chunk is the last one. -/
theorem find_f_get_finish :
    find (str "f") (sample_json_str_get (dumps (chunkJson t) ++ x) (str "finish")) = none := by
  have hk : ∀ c ∈ str "finish", Plain c := by decide
  have hhead : clear (find_key (str "finish")) (str "\x7b\"delta\": ") = true := by decide
  have hsep : clear (find_key (str "finish")) (str "\", \"index\": 0, ") = true := by decide
  have hafter : after (find_key (str "finish")) (dumps (chunkJson t) ++ x) =
      if EndsIn (str "finish") t then
        some (str ", " ++ (find_key (str "index") ++ (str ": 0, " ++ (find_key (str "finish") ++
          (str ": true\x7d" ++ x)))))
      else some (str ": true\x7d" ++ x) := by
    rw [after_text t x hk hhead]
    split
    · rfl
    · rw [show ∀ rest, quote :: (str ", " ++ (find_key (str "index") ++ (str ": 0, " ++ rest))) =
        str "\", \"index\": 0, " ++ rest from fun _ => rfl, after_clear hsep, after_self_append]
  split_ifs at hafter with hends
  · rw [sample_json_str_get_of_after hafter]
    rw [show (Scan.init.run (str ", " ++ _)).result = [] from Scan.result_comma _]
    decide
  · have hend : (Scan.init.run (str ": true\x7d")).status = .sEnd := by decide
    rw [sample_json_str_get_of_after hafter, Scan.result_run_append hend]
    decide

theorem after_delta :
    after (find_key (str "delta")) (dumps (chunkJson t) ++ x) =
      some (ch ':' :: (str " " ++ quote :: (escaped t ++ quote :: (str ", " ++
        (find_key (str "index") ++ (str ": 0, " ++ (find_key (str "finish") ++
          (str ": true\x7d" ++ x)))))))) := by
  have hopen : clear (find_key (str "delta")) (str "\x7b") = true := by decide
  rw [dumps_chunkJson]
  simp only [List.append_assoc]
  rw [after_clear hopen, after_self_append, literal]
  simp only [List.append_assoc, List.cons_append, List.nil_append]
  rfl

/-- The literal of the text is copied as it stands. -/
theorem get_delta_of_plain (h : ∀ c ∈ t, Plain c) :
    sample_json_str_get (dumps (chunkJson t) ++ x) (str "delta") = t := by
  have hlast : t.getLast? ≠ some backslash := fun hl => (h _ (List.mem_of_getLast? hl)).2.1 rfl
  have hquote : quote ∉ t := fun hmem => (h _ hmem).1 rfl
  have hafter := after_delta t x
  rw [escaped_of_plain h] at hafter
  rw [sample_json_str_get_of_after hafter]
  exact @result_member_string [] (str " ") t _ rfl (by decide)
    (Scan.noClose_of_not_mem hquote quote) hlast

/-- With anything to escape, something else is read. -/
theorem get_delta_ne (h : ∃ c ∈ t, ¬ Plain c) :
    sample_json_str_get (dumps (chunkJson t) ++ x) (str "delta") ≠ t := by
  have hlonger := length_lt_escaped h
  have hread := @result_member_string_starts [] (str " ") (escaped t)
    (quote :: (str ", " ++ (find_key (str "index") ++ (str ": 0, " ++
      (find_key (str "finish") ++ (str ": true\x7d" ++ x)))))) rfl (by decide)
    (noClose_escaped t quote)
  rw [sample_json_str_get_of_after (after_delta t x)]
  intro heq
  rw [List.nil_append, heq] at hread
  rcases hread with rfl | hlong
  · -- a text that has something to escape is not empty
    obtain ⟨c, hc, -⟩ := h
    cases hc
  · have hlen := hlong.length_le
    simp only [List.length_append] at hlen
    omega

end SecondPass

/-! ## What the node decides -/

/-- The whole `data` was read, and `index` is in it. -/
theorem intakeData_whole {t : Bytes} (hindex : ¬ EndsIn (str "index") t) (x : Bytes) :
    (Llm.intakeData (str "llm.utf-8.stream") (dumps (chunkJson t) ++ x) ∅).msg? =
      some (sample_json_str_get (dumps (chunkJson t) ++ x) (str "delta")) := by
  have hobject : (find (str "stream") (str "llm.utf-8.stream")).isSome = true := by decide
  have hstoi : stoi (sample_json_str_get (dumps (chunkJson t) ++ x) (str "index")) = .ok 0 := by
    rw [get_index, if_neg hindex]
    decide
  have hjoin : ∀ d : Bytes, joinStream ((∅ : Map Int Bytes).insert 0 d)
      (Map.size ((∅ : Map Int Bytes).insert 0 d)) 0 = .ok d := by
    intro d
    show Except.ok (d ++ []) = Except.ok d
    rw [List.append_nil]
  rw [Llm.intakeData_chunk hobject hstoi, find_f_get_finish]
  simp only [Option.isNone_none, if_true, hjoin]
  rfl

/-- Without an `index` that is a number the chunk is rejected. -/
theorem intakeData_no_index {data : Bytes} (h : sample_json_str_get data (str "index") = []) :
    (Llm.intakeData (str "llm.utf-8.stream") data ∅).msg? = none := by
  have hobject : (find (str "stream") (str "llm.utf-8.stream")).isSome = true := by decide
  have hstoi : ∃ e, stoi [] = .error e := ⟨_, rfl⟩
  obtain ⟨e, he⟩ := hstoi
  by_cases hdata : data = [] ∨ data = str "None"
  · rw [Llm.intakeData, if_pos hdata]
    rfl
  · rw [Llm.intakeData, if_neg hdata, if_pos hobject, decode_stream_eq, h, he]
    rfl

theorem get_index_cut (p : Bytes) :
    sample_json_str_get (str "\x7b\"delta\": \"" ++ (escaped p ++ str "\x7d")) (str "index") =
      [] := by
  have hk : ∀ c ∈ str "index", Plain c := by decide
  have hhead : clear (find_key (str "index")) (str "\x7b\"delta\": ") = true := by decide
  apply sample_json_str_get_of_after_none
  rw [show ∀ rest, str "\x7b\"delta\": \"" ++ rest = str "\x7b\"delta\": " ++ quote :: rest
    from fun _ => rfl, after_clear hhead]
  exact after_open hk p (by decide)

/-- Up to its first closing brace a text does not get shorter by escaping. -/
theorem length_takeWhile_escaped (s : Bytes) :
    (s.takeWhile (· ≠ ch '}')).length ≤ ((escaped s).takeWhile (· ≠ ch '}')).length := by
  induction s with
  | nil => exact le_refl 0
  | cons c s ih =>
      by_cases hc : c = ch '}'
      · simp [hc]
      · have hescape : ∀ d ∈ escape c, decide (d ≠ ch '}') = true := by
          by_cases hplain : Plain c
          · simpa [escape_of_plain hplain] using hc
          · intro d hd
            have hne : d ≠ ch '}' := fun h => (escapeShape hplain).brace.2 (h ▸ hd)
            simpa using hne
        obtain ⟨d, e, hcons, -⟩ := escape_head c
        rw [escaped_cons, List.takeWhile_append_of_pos hescape, hcons]
        simp only [List.takeWhile_cons, hc, ne_eq, not_false_eq_true, decide_true, if_true,
          List.length_cons, List.length_append] at ih ⊢
        omega

/-- No text is its own `data` object: the object starts with more than the text does before
    its first closing brace. -/
theorem dataRead_ne (t : Bytes) : dataRead t ≠ t ∨ dataRead t = [] := by
  by_cases hopen : StaysOpen 1 t
  · rcases le_or_gt (balance t) 1 with hbal | hbal
    · obtain ⟨x, hx⟩ := dataRead_closed hopen hbal
      left
      intro heq
      have hlen := congrArg List.length heq
      have hle := length_le_escaped t
      rw [hx, dumps_chunkJson] at hlen
      simp only [literal, List.length_append, List.length_cons] at hlen
      omega
    · exact .inr (dataRead_unclosed hopen (by omega))
  · obtain ⟨p, s, rfl, hstays, hbal⟩ := exists_close (by decide) hopen
    left
    rw [dataRead_cut hstays (by omega)]
    intro heq
    have hfirst := congrArg (fun u => (u.takeWhile (· ≠ ch '}')).length) heq
    have hle := length_takeWhile_escaped (p ++ [ch '}'])
    have hclose : escape (ch '}') = [ch '}'] := by decide
    have hhead : ∀ c ∈ str "\x7b\"delta\": \"", decide (c ≠ ch '}') = true := by decide
    have hstop : (p ++ ch '}' :: s).takeWhile (· ≠ ch '}') =
        (p ++ [ch '}']).takeWhile (· ≠ ch '}') := by
      simp [List.takeWhile_append]
    rw [escaped_append, escaped_cons, hclose] at hle
    simp only [hstop] at hfirst
    rw [List.takeWhile_append_of_pos hhead, List.length_append] at hfirst
    have hlen : (str "\x7b\"delta\": \"").length = 11 := by decide
    have hsame : escaped p ++ str "\x7d" = escaped p ++ ([ch '}'] ++ escaped []) := rfl
    rw [hsame] at hfirst
    omega

/-! ## The condition -/

/-- The request id does not look like one of the keys of the first pass; the text needs no
    escape, closes only what it opened, leaves at most one brace open, and is not the key
    `index`. -/
structure TextPasses (request_id t : Bytes) : Prop where
  object : ¬ EndsIn (str "object") request_id
  data : ¬ EndsIn (str "data") request_id
  plain : ∀ c ∈ t, Plain c
  closes : ∀ p, p <+: t → p.count (ch '}') ≤ p.count (ch '{')
  surplus : t.count (ch '{') ≤ t.count (ch '}') + 1
  index : t ≠ str "index"

theorem staysOpen_one_iff {t : Bytes} :
    StaysOpen 1 t ↔ ∀ p, p <+: t → p.count (ch '}') ≤ p.count (ch '{') := by
  refine forall_congr' fun p => imp_congr_right fun _ => ?_
  unfold balance
  omega

/-- Plain text ends in no key unless it is one. -/
theorem endsIn_iff_of_plain {k t : Bytes} (h : ∀ c ∈ t, Plain c) : EndsIn k t ↔ t = k := by
  refine ⟨?_, .inl⟩
  rintro (rfl | hsuffix)
  · rfl
  · exact absurd rfl (h quote (hsuffix.subset (by simp))).1

/-- The model is run on exactly the text if and only if the text passes. -/
theorem intake_inferenceMessage_iff (com_id n : Int) (request_id t : Bytes) :
    (Llm.intakeData (sample_json_str_get (inferenceMessage com_id n request_id t) (str "object"))
      (sample_json_str_get (inferenceMessage com_id n request_id t) (str "data")) ∅).msg? = some t
      ↔ TextPasses request_id t := by
  rw [get_object, get_data]
  constructor
  · intro h
    by_cases hdata : EndsIn (str "data") request_id
    · -- nothing was read as data
      rw [if_pos hdata] at h
      cases h
    rw [if_neg hdata] at h
    by_cases hobject : EndsIn (str "object") request_id
    · -- the object is empty, so the data itself goes to the model
      rw [if_pos hobject] at h
      rcases dataRead_ne t with hne | hempty
      · by_cases hnone : dataRead t = [] ∨ dataRead t = str "None"
        · rw [Llm.intakeData, if_pos hnone] at h
          cases h
        · rw [Llm.intakeData, if_neg hnone] at h
          exact absurd (Option.some.inj h) hne
      · rw [hempty] at h
        cases h
    rw [if_neg hobject] at h
    by_cases hopen : StaysOpen 1 t
    · -- the braces of the text decide where the data ends
      rcases le_or_gt (balance t) 1 with hbal | hbal
      · obtain ⟨x, hx⟩ := dataRead_closed hopen hbal
        rw [hx] at h
        by_cases hindex : EndsIn (str "index") t
        · rw [intakeData_no_index (by rw [get_index, if_pos hindex])] at h
          cases h
        rw [intakeData_whole hindex, Option.some.injEq] at h
        have hplain : ∀ c ∈ t, Plain c := by
          by_contra hnot
          push Not at hnot
          exact get_delta_ne t x hnot h
        refine ⟨hobject, hdata, hplain, staysOpen_one_iff.mp hopen, ?_, fun ht => hindex (.inl ht)⟩
        unfold balance at hbal
        omega
      · rw [dataRead_unclosed hopen (by omega)] at h
        cases h
    · -- a brace of the text closes the object, and no index is left to read
      obtain ⟨p, s, rfl, hstays, hbal⟩ := exists_close (by decide) hopen
      rw [dataRead_cut hstays (by omega), intakeData_no_index (get_index_cut p)] at h
      cases h
  · rintro ⟨hobject, hdata, hplain, hcloses, hsurplus, hindex⟩
    obtain ⟨x, hx⟩ := dataRead_closed (staysOpen_one_iff.mpr hcloses)
      (by unfold balance; omega)
    rw [if_neg hobject, if_neg hdata, hx,
      intakeData_whole (mt (endsIn_iff_of_plain hplain).mp hindex) x,
      get_delta_of_plain t x hplain]

/-! ## From the client to the model -/

/-- The messages on one publisher's URL. -/
def Wire.publishedAt (w : Wire) (url : Bytes) : List Bytes :=
  (w.published.filter (·.1 = url)).map Prod.snd

/-- The node after the manager has handled a text and the subscription of task `n`, which is
    connected to `url`, has received what was published there. -/
def throughManager (menv : ManagerEnv) (m : Manager) (com_id : Int) (json_str : Bytes)
    (nenv : NodeEnv) (n : Int) (url : Bytes) (p : NodeProcess) : NodeProcess :=
  let wire := Effect.final (unit_action_match menv m com_id json_str) .empty
  Run.exec (fun p raw => p.step nenv (.inference n raw)) p (wire.publishedAt url)

/-- Task `n` is there, with its subscription connected to `url`. -/
structure Node.Serves (n : Int) (url : Bytes) (s : Node) : Prop where
  task : (s.self.llm_task_.lookup n).isSome
  channel : ∃ channel, s.llm_task_channel_.lookup n = some channel ∧
    ∃ sock : Sock, channel.zmq_.lookup 0 = some (some sock) ∧ sock.url = url

instance (n : Int) (url : Bytes) (s : Node) : Decidable (Node.Serves n url s) :=
  decidable_of_iff
    ((s.self.llm_task_.lookup n).isSome ∧ ∃ channel ∈ s.llm_task_channel_.lookup n,
      ∃ entry ∈ channel.zmq_.lookup 0, ∃ sock : Sock, sock ∈ entry ∧ sock.url = url)
    ⟨fun ⟨htask, channel, hc, entry, hentry, sock, hsock, hurl⟩ =>
        ⟨htask, channel, hc, sock, by rw [hentry, hsock], hurl⟩,
      fun ⟨htask, channel, hc, sock, hsock, hurl⟩ =>
        ⟨htask, channel, hc, some sock, hsock, sock, rfl, hurl⟩⟩

/-- The wire after an accepted inference request for a registered unit. -/
theorem publishedAt_inference {menv : ManagerEnv} {m : Manager} {json_str : Bytes} {r : Request}
    (hr : menv.sj.request json_str = some r) (haction : r.action = str "inference")
    {u : UnitData} (hunit : m.key_sql.unitAt r.target = some u) (com_id : Int) :
    (Effect.final (unit_action_match menv m com_id json_str) .empty).publishedAt u.inference_url
      = [spliced (sprintf m.zmq_c_format com_id) json_str] := by
  obtain ⟨hid, htarget⟩ := Simdjson.request_valid hr
  unfold Effect.final
  rw [unit_action_match_eq, hr]
  simp only [haction, route_inference_run menv m com_id json_str hid htarget r.target_ne_nil,
    hunit]
  simp [Wire.publishedAt, Wire.empty]

theorem newInferences_message {nenv : NodeEnv} {p : NodeProcess} (halive : p.alive = true)
    {n : Int} {url : Bytes} (h : Node.Serves n url p.node) (raw : Bytes) :
    newInferences p (p.step nenv (.inference n raw)) =
      (Llm.intakeData (sample_json_str_get raw (str "object"))
        (sample_json_str_get raw (str "data")) p.node.self.stream_buff).msg?.toList.map (n, ·) := by
  obtain ⟨task, htask⟩ := Option.isSome_iff_exists.mp h.task
  obtain ⟨channel, hc, sock, hsock, -⟩ := h.channel
  have hsub : channel.subscribed := by simp [Channel.subscribed, Channel.slot, hsock]
  rw [newInferences, NodeProcess.step_node, halive, if_pos rfl,
    Llm.message_inferences nenv hc hsub, List.drop_left]
  simp only [Llm.intake, htask, hc]

/-- For every text and request id, every registry with the unit and every node whose stream
    buffer is empty: the model is run exactly once and on exactly the text the client sent,
    if and only if the text passes. -/
theorem text_unchanged_iff (menv : ManagerEnv) (nenv : NodeEnv) (m : Manager) (com_id n : Int)
    (request_id t : Bytes) (u : UnitData) (p : NodeProcess)
    (hformat : m.zmq_c_format = zmqFormat)
    (hrequest : menv.sj.request
        (dumps (inferenceJson request_id (sample_get_work_id n (str "llm")) t)) =
      some ⟨request_id, sample_get_work_id n (str "llm"), str "inference"⟩)
    (hunit : m.key_sql.unitAt (sample_get_work_id n (str "llm")) = some u)
    (halive : p.alive = true) (hserves : Node.Serves n u.inference_url p.node)
    (hbuff : p.node.self.stream_buff = ∅) :
    newInferences p (throughManager menv m com_id
        (dumps (inferenceJson request_id (sample_get_work_id n (str "llm")) t)) nenv n
        u.inference_url p) = [(n, t)] ↔
      TextPasses request_id t := by
  have htarget : (⟨request_id, sample_get_work_id n (str "llm"), str "inference"⟩ :
      Request).target = sample_get_work_id n (str "llm") := by
    simp [Request.target, sample_get_work_id]
  have hpublished := publishedAt_inference hrequest rfl (by rw [htarget]; exact hunit) com_id
  rw [throughManager]
  simp only [hpublished, Run.exec_cons, Run.exec_nil]
  rw [newInferences_message halive hserves, hbuff, hformat, ← intake_inferenceMessage_iff com_id n]
  unfold inferenceMessage
  generalize (Llm.intakeData _ _ ∅).msg? = msg
  cases msg <;> simp

/-! ## Two texts -/

/-- The manager's answer to the registration of a first llm unit, and its state then. -/
def firstUnit : Bytes × Manager := rpc_allocate_unit ⟨0, 0⟩ (.initial 8000 8010) (str "llm")

/-- A node that has set up that unit. -/
def firstNode : NodeProcess :=
  NodeProcess.initial.step (configEnv .convert)
    ({ setupRequest with action := .setup firstUnit.1 } : ControlRequest).event

/-- The request of `sample/test.py` with a given text. -/
def sampleRequest (t : Bytes) : Bytes :=
  dumps (inferenceJson (str "llm_001") (sample_get_work_id 0 (str "llm")) t)

def sampleFields : Request := ⟨str "llm_001", sample_get_work_id 0 (str "llm"), str "inference"⟩

theorem sampleFields_valid : ∀ p ∈ sampleFields.members, Utf8.Valid p.2 := by decide +kernel

def sampleEnv (t : Bytes) : ManagerEnv where
  sj := .table (sampleRequest t) sampleFields.members
    (by simp [sampleRequest, inferenceJson, dumps, str]) sampleFields_valid
  call_rpc_action _ := 0
  log_level := .info

theorem firstNode_stream_buff : firstNode.node.self.stream_buff = ∅ :=
  AList.ext (List.eq_nil_of_length_eq_zero (by decide +kernel))

/-- A question passes. -/
theorem text_unchanged_iff_question :
    newInferences firstNode (throughManager (sampleEnv (str "why?")) firstUnit.2 8000
      (sampleRequest (str "why?")) (configEnv .convert) 0
      (str "ipc:///tmp/llm/8001.sock.llm.inference_url") firstNode) = [(0, str "why?")] :=
  (text_unchanged_iff (sampleEnv (str "why?")) (configEnv .convert) firstUnit.2 8000 0
    (str "llm_001") (str "why?")
    ⟨0, str "llm.0", str "ipc:///tmp/llm/8000.sock.llm.output_url",
      str "ipc:///tmp/llm/8001.sock.llm.inference_url"⟩ firstNode (by decide +kernel)
    (by decide +kernel) (by decide +kernel) (by decide +kernel) (by decide +kernel)
    firstNode_stream_buff).mpr
    { object := by decide
      data := by decide
      plain := by decide
      closes := by
        intro p hp
        have hnone : ch '}' ∉ p := fun hmem => absurd (hp.subset hmem) (by decide)
        simp [List.count_eq_zero_of_not_mem hnone]
      surplus := by decide
      index := by decide }

/-- A quotation does not: its escapes reach the model. -/
theorem quoted_text_changed :
    (firstUnit.2.zmq_c_format = zmqFormat ∧
      (sampleEnv (str "say \"hi\"")).sj.request (sampleRequest (str "say \"hi\"")) =
        some sampleFields ∧ firstNode.alive = true) ∧
    Node.Serves 0 (str "ipc:///tmp/llm/8001.sock.llm.inference_url") firstNode.node ∧
    firstNode.node.self.stream_buff = ∅ ∧
    newInferences firstNode (throughManager (sampleEnv (str "say \"hi\"")) firstUnit.2 8000
      (sampleRequest (str "say \"hi\"")) (configEnv .convert) 0
      (str "ipc:///tmp/llm/8001.sock.llm.inference_url") firstNode) ≠ [(0, str "say \"hi\"")] :=
  ⟨by decide +kernel, by decide +kernel, firstNode_stream_buff, by decide +kernel⟩

end DoubleTurnouts
