/-
  DoubleTurnouts.System.UnitChain

  What a unit streams out, read by a subscriber.  The chunk is the `data` of
  a body that `llm_channel_obj::send` serialises.  `subscriber_event_call`,
  which `subscriber_work_id` puts behind another unit's output, reads `object`
  and `data` back from the text, and `task_user_data` gives the data to
  `decode_stream`.

  The members stand in the order of their names.  So `data` is read from the
  right place, but counted by its braces up into what follows it
  (`chunkTail`), and `object` comes behind the text and is hidden by a text
  that looks like the key.  `Framed` is what keeps a chunk together, and
  `Relayed` what is left for a text to satisfy (`unit_output_heard_iff`).
-/
import Mathlib.Tactic
import DoubleTurnouts.InfraController.ObjectScan
import DoubleTurnouts.Node.ChunkText
import DoubleTurnouts.Node.OutputModes
import DoubleTurnouts.Node.Ready
import DoubleTurnouts.Node.Replies
import DoubleTurnouts.System.ReplyLines
import DoubleTurnouts.System.TextPath

namespace DoubleTurnouts

open Text Decimal

/-! ## The message -/

section Message

variable (request_id work_id object : Bytes)

/-- The body of a chunk of streamed output. -/
def chunkBody (index : Int) (data : Bytes) (finish : Bool) : OutBody where
  request_id := request_id
  work_id := work_id
  object := object
  data := Llm.data_body index data finish
  error := error_member LLM_NO_ERROR

/-- A message behind its `data`. -/
def chunkTail : Bytes :=
  str ",\"error\":\x7b\"code\":0,\"message\":\"\"\x7d," ++ (find_key (str "object") ++ (str ":" ++
    (literal object ++ (str ",\"request_id\":" ++ (literal request_id ++ (str ",\"work_id\":" ++
      (literal work_id ++ str "\x7d\n")))))))

/-- The message with the chunk of a given `delta`. -/
def chunkMessage (created index : Int) (delta : Bytes) (finish : Bool) : Bytes :=
  str "\x7b\"created\":" ++ (to_string created ++ (str "," ++ (find_key (str "data") ++
    (str ":" ++ (outputText index delta finish ++ chunkTail request_id work_id object)))))

theorem chunkBody_text (created index : Int) (data : Bytes) (finish : Bool) :
    (chunkBody request_id work_id object index data finish).text created ++ str "\n" =
      chunkMessage request_id work_id object created index (if finish then [] else data)
        finish := by
  have hcreated : literal (str "created") = str "\"created\"" := by decide
  have hdata : literal (str "data") = find_key (str "data") := by decide
  have herror : literal (str "error") = str "\"error\"" := by decide
  have hobject : literal (str "object") = find_key (str "object") := by decide
  have hid : literal (str "request_id") = str "\"request_id\"" := by decide
  have hwork : literal (str "work_id") = str "\"work_id\"" := by decide
  have hnone : (error_member LLM_NO_ERROR).dump =
      str "\x7b\"code\":0,\"message\":\"\"\x7d" := by decide
  rw [OutBody.text, chunkBody, chunkMessage, ← dump_data_body]
  simp only [OutBody.members, Json.dump, Json.dumpMembers, hcreated, hdata, herror, hobject, hid,
    hwork, hnone, chunkTail, List.append_assoc]
  rfl

end Message

/-! ## Values that have ended -/

namespace Scan

/-- A stretch of a number leaves the automaton in state 0. -/
theorem status_run_s0 {σ : Scan} (h : σ.status = .s0) {s : Bytes}
    (hs : ∀ c ∈ s, c ≠ quote ∧ c ≠ ch '{' ∧ c ≠ ch ',' ∧ c ≠ ch '}') :
    (σ.run s).status = .s0 := by
  induction s generalizing σ with
  | nil => exact h
  | cons c s ih =>
      obtain ⟨hquote, hopen, hcomma, hclose⟩ := hs c (by simp)
      have hstep : (σ.step c).status = .s0 := by
        simp only [step, h, step0, hquote, hopen, hcomma, hclose, if_false, or_self]
        split_ifs <;> simp [h]
      rw [run_cons]
      exact ih hstep fun d hd => hs d (by simp [hd])

/-- A string that does not end in a backslash is closed by the quote behind it. -/
theorem status_member_string {lit : Bytes} (hlit : noClose quote lit = true)
    (hlast : lit.getLast? ≠ some backslash) :
    (init.run (str ":\"" ++ (lit ++ [quote]))).status = .sEnd := by
  have hstart : init.run (str ":\"") = ⟨.s100, quote, 1, []⟩ := by decide
  have hcopy := run_noClose (σ := ⟨.s100, quote, 1, []⟩) rfl hlit
  rw [run_append, hstart, run_append, hcopy, run_cons, run_nil, step_close rfl]
  cases hl : lit.getLast? with
  | none => exact (by decide : quote ≠ backslash)
  | some c =>
      rw [hl] at hlast
      simpa using hlast

end Scan

/-- A value that has ended is read whatever is put behind the text. -/
theorem sample_json_str_get_append {s k r q : Bytes} (h : after (find_key k) s = some (r ++ q))
    (hend : (Scan.init.run r).status = .sEnd) (x : Bytes) :
    sample_json_str_get (s ++ x) k = sample_json_str_get s k := by
  rw [sample_json_str_get_of_after h,
    sample_json_str_get_of_after (after_append h x), Scan.result_run_append hend,
    List.append_assoc, Scan.result_run_append hend]

/-! ## Reading a literal -/

theorem noClose_readDelta (s : Bytes) : Scan.noClose quote (readDelta s) = true := by
  unfold readDelta
  split
  · rename_i hlast
    rw [Scan.noClose_append, noClose_escaped, (getLast?_escaped s).mpr hlast]
    decide
  · exact noClose_escaped s quote

theorem getLast?_readDelta (s : Bytes) : (readDelta s).getLast? ≠ some backslash := by
  unfold readDelta
  split
  · rw [List.getLast?_append_of_ne_nil _ (by simp)]
    decide
  · rename_i hlast
    exact mt (getLast?_escaped s).mp hlast

/-- A literal with another one behind it: what is read ends in front of a quote. -/
theorem literal_comma (s rest : Bytes) : ∃ post,
    str ":" ++ (literal s ++ (str ",\"" ++ rest)) =
      str ":\"" ++ (readDelta s ++ quote :: post) := by
  by_cases hlast : s.getLast? = some backslash
  · refine ⟨rest, ?_⟩
    rw [readDelta, if_pos hlast, literal]
    simp only [List.append_assoc, List.cons_append, List.nil_append]
    rfl
  · refine ⟨str ",\"" ++ rest, ?_⟩
    rw [readDelta, if_neg hlast, literal]
    simp only [List.append_assoc, List.cons_append, List.nil_append]
    rfl

/-! ## Reading the chunk -/

section Chunk

variable (index : Int) (delta : Bytes) (finish : Bool)

theorem to_string_plain {c : UInt8} (hc : c ∈ to_string index) :
    c ≠ quote ∧ c ≠ ch '{' ∧ c ≠ ch ',' ∧ c ≠ ch '}' := by
  -- a printed number has no quote, no brace and no separator
  have hnot : ∀ {d}, d ≠ ch '-' → isDigit d = false → c ≠ d := by
    rintro d hminus hdigit rfl
    exact not_mem_to_string index hminus hdigit hc
  exact ⟨hnot (by decide) (by decide), hnot (by decide) (by decide),
    hnot (by decide) (by decide), hnot (by decide) (by decide)⟩

theorem get_output_index_append (x : Bytes) :
    sample_json_str_get (outputText index delta finish ++ x) (str "index") =
      sample_json_str_get (outputText index delta finish) (str "index") := by
  have hafter := after_outputText index delta finish (k := str "index") (by decide) (by decide)
  by_cases hends : EndsIn (str "index") delta
  · rw [if_pos hends] at hafter
    exact sample_json_str_get_append (r := str ",") hafter (by decide) x
  · have hsep : clear (find_key (str "index")) (quote :: (str "," ++ (find_key (str "finish") ++
        (str ":" ++ ((if finish then str "true" else str "false") ++ str ","))))) = true := by
      cases finish <;> decide
    rw [if_neg hends] at hafter
    rw [show ∀ rest, quote :: (str "," ++ (find_key (str "finish") ++ (str ":" ++
      ((if finish then str "true" else str "false") ++ (str "," ++ rest))))) =
      (quote :: (str "," ++ (find_key (str "finish") ++ (str ":" ++
        ((if finish then str "true" else str "false") ++ str ","))))) ++ rest from
        fun rest => by simp, after_clear hsep, after_self_append] at hafter
    refine sample_json_str_get_append (r := str ":" ++ (to_string index ++ str "\x7d")) (q := [])
      (by rw [hafter, List.append_nil]) ?_ x
    have hnumber := Scan.status_run_s0 (σ := Scan.init.run (str ":")) (by decide)
      fun c hc => to_string_plain index hc
    rw [Scan.run_append, Scan.run_append]
    generalize (Scan.init.run (str ":")).run (to_string index) = σ at hnumber
    simp [str, Scan.step, hnumber, Scan.step0, show ch '}' ≠ quote by decide,
      show ch '}' ≠ ch '{' by decide, show ch '}' ≠ ch ':' by decide]

theorem get_output_finish_append (x : Bytes) :
    sample_json_str_get (outputText index delta finish ++ x) (str "finish") =
      sample_json_str_get (outputText index delta finish) (str "finish") := by
  have hafter := after_outputText index delta finish (k := str "finish") (by decide) (by decide)
  by_cases hends : EndsIn (str "finish") delta
  · rw [if_pos hends] at hafter
    exact sample_json_str_get_append (r := str ",") hafter (by decide) x
  · have hsep : clear (find_key (str "finish")) (quote :: str ",") = true := by decide
    rw [if_neg hends] at hafter
    rw [show ∀ rest, quote :: (str "," ++ rest) = (quote :: str ",") ++ rest from fun _ => rfl,
      after_clear hsep, after_self_append] at hafter
    cases finish
    · exact sample_json_str_get_append (r := str ":false,") hafter (by decide) x
    · exact sample_json_str_get_append (r := str ":true,") hafter (by decide) x

theorem get_output_delta_append (x : Bytes) :
    sample_json_str_get (outputText index delta finish ++ x) (str "delta") =
      sample_json_str_get (outputText index delta finish) (str "delta") := by
  have hopen : clear (find_key (str "delta")) (str "\x7b") = true := by decide
  obtain ⟨post, hpost⟩ := literal_comma delta (str "finish\":" ++
    ((if finish then str "true" else str "false") ++ (str "," ++ (find_key (str "index") ++
      (str ":" ++ (to_string index ++ str "\x7d"))))))
  have hafter : after (find_key (str "delta")) (outputText index delta finish) =
      some (str ":\"" ++ (readDelta delta ++ quote :: post)) := by
    rw [outputText, after_clear hopen, after_self_append, ← hpost]
    rfl
  refine sample_json_str_get_append (r := str ":\"" ++ (readDelta delta ++ [quote])) (q := post)
    (by rw [hafter]; simp) ?_ x
  exact Scan.status_member_string (noClose_readDelta delta) (getLast?_readDelta delta)

end Chunk

/-! ## Reading the message -/

/-- A text without anything to escape is found in the escaped text as well. -/
theorem find_escaped {pat s : Bytes} (hpat : ∀ c ∈ pat, Plain c) (h : (find pat s).isSome) :
    (find pat (escaped s)).isSome := by
  rw [isSome_find_iff] at h ⊢
  obtain ⟨a, b, rfl⟩ := h
  rw [escaped_append, escaped_append, escaped_of_plain hpat]
  exact ⟨escaped a, escaped b, rfl⟩

section Reading

variable (request_id work_id object : Bytes) (created index : Int) (delta : Bytes) (finish : Bool)

theorem get_chunk_data :
    sample_json_str_get (chunkMessage request_id work_id object created index delta finish)
        (str "data") =
      (Scan.init.run (str ":" ++ (outputText index delta finish ++
        chunkTail request_id work_id object))).result := by
  have hhead : clear (find_key (str "data")) (str "\x7b\"created\":") = true := by decide
  have hsep : clear (find_key (str "data")) (str ",") = true := by decide
  have hnum : quote ∉ to_string created := not_mem_to_string created (by decide) (by decide)
  apply sample_json_str_get_of_after
  rw [chunkMessage, after_clear hhead, find_key, after_skip _ _ hnum, ← find_key, after_clear hsep,
    after_self_append]

/-- The search for `object` up to the end of the text of the chunk. -/
theorem after_chunk_object :
    after (find_key (str "object"))
        (chunkMessage request_id work_id object created index delta finish) =
      let rest := str "," ++ (find_key (str "finish") ++ (str ":" ++
        ((if finish then str "true" else str "false") ++ (str "," ++ (find_key (str "index") ++
          (str ":" ++ (to_string index ++ (str "\x7d" ++
            chunkTail request_id work_id object))))))))
      if EndsIn (str "object") delta then some rest
      else after (find_key (str "object")) (quote :: rest) := by
  have hk : ∀ c ∈ str "object", Plain c := by decide
  have hhead : clear (find_key (str "object")) (str "\x7b\"created\":") = true := by decide
  have hdelta : clear (find_key (str "object")) (str ",\"data\":\x7b\"delta\":") = true := by
    decide
  have hnum : quote ∉ to_string created := not_mem_to_string created (by decide) (by decide)
  have hjoin : ∀ rest, str "," ++ (find_key (str "data") ++ (str ":" ++ (str "\x7b" ++
      (find_key (str "delta") ++ (str ":" ++ rest))))) =
      str ",\"data\":\x7b\"delta\":" ++ rest := fun _ => rfl
  rw [chunkMessage, after_clear hhead, find_key, after_skip _ _ hnum, ← find_key, outputText]
  simp only [List.append_assoc]
  rw [hjoin, after_clear hdelta, after_literal hk]

/-- Behind the text the key is that of the message. -/
theorem after_chunk_own_object :
    after (find_key (str "object")) (quote :: (str "," ++ (find_key (str "finish") ++ (str ":" ++
        ((if finish then str "true" else str "false") ++ (str "," ++ (find_key (str "index") ++
          (str ":" ++ (to_string index ++ (str "\x7d" ++
            chunkTail request_id work_id object)))))))))) =
      some (str ":" ++ (literal object ++ (str ",\"request_id\":" ++ (literal request_id ++
        (str ",\"work_id\":" ++ (literal work_id ++ str "\x7d\n")))))) := by
  have hnum : quote ∉ to_string index := not_mem_to_string index (by decide) (by decide)
  have hfinish : clear (find_key (str "object")) (quote :: (str "," ++ (find_key (str "finish") ++
      (str ":" ++ ((if finish then str "true" else str "false") ++ (str "," ++
        (find_key (str "index") ++ str ":"))))))) = true := by
    cases finish <;> decide
  have herror : clear (find_key (str "object"))
      (str "\x7d,\"error\":\x7b\"code\":0,\"message\":\"\"\x7d,") = true := by decide
  have hsplit : ∀ rest, quote :: (str "," ++ (find_key (str "finish") ++ (str ":" ++
      ((if finish then str "true" else str "false") ++ (str "," ++ (find_key (str "index") ++
        (str ":" ++ rest))))))) = (quote :: (str "," ++ (find_key (str "finish") ++ (str ":" ++
      ((if finish then str "true" else str "false") ++ (str "," ++ (find_key (str "index") ++
        str ":"))))))) ++ rest := fun rest => by simp
  have hjoin : ∀ rest,
      str "\x7d" ++ (str ",\"error\":\x7b\"code\":0,\"message\":\"\"\x7d," ++ rest) =
        str "\x7d,\"error\":\x7b\"code\":0,\"message\":\"\"\x7d," ++ rest := fun _ => rfl
  rw [hsplit, after_clear hfinish, find_key, after_skip _ _ hnum, ← find_key, chunkTail, hjoin,
    after_clear herror, after_self_append]

/-- The object is the unit's own, unless the text hides it. -/
theorem get_chunk_object :
    sample_json_str_get (chunkMessage request_id work_id object created index delta finish)
        (str "object") =
      if EndsIn (str "object") delta then [] else readDelta object := by
  have hafter := after_chunk_object request_id work_id object created index delta finish
  split
  · rename_i hends
    rw [if_pos hends] at hafter
    rw [sample_json_str_get_of_after hafter]
    exact Scan.result_comma _
  · rename_i hends
    rw [if_neg hends, after_chunk_own_object] at hafter
    rw [sample_json_str_get_of_after hafter]
    obtain ⟨post, hpost⟩ := literal_comma object (str "request_id\":" ++ (literal request_id ++
      (str ",\"work_id\":" ++ (literal work_id ++ str "\x7d\n"))))
    have hmember := @result_member_string [] [] (readDelta object) post rfl rfl
      (noClose_readDelta object) (getLast?_readDelta object)
    calc (Scan.init.run (str ":" ++ (literal object ++ (str ",\"request_id\":" ++ _)))).result
        = (Scan.init.run (str ":\"" ++ (readDelta object ++ quote :: post))).result := by
          rw [← hpost]
          rfl
      _ = readDelta object := hmember

end Reading

/-! ## How far `data` is read -/

section Extent

variable (request_id work_id object : Bytes) (created index : Int) (delta : Bytes) (finish : Bool)

/-- A chunk between its braces. -/
def chunkInner : Bytes :=
  str "\"delta\":\"" ++ (escaped delta ++ (str "\",\"finish\":" ++
    ((if finish then str "true" else str "false") ++ (str ",\"index\":" ++ to_string index))))

theorem outputText_eq :
    outputText index delta finish =
      str "\x7b" ++ (chunkInner index delta finish ++ str "\x7d") := by
  rw [outputText, chunkInner, literal]
  simp only [List.append_assoc, List.cons_append, List.nil_append]
  rfl

/-- The brace count at work on the chunk and what follows it. -/
theorem get_chunk_data_count :
    sample_json_str_get (chunkMessage request_id work_id object created index delta finish)
        (str "data") =
      ((Scan.inObject 1 (ch '{') (str "\x7b")).run (chunkInner index delta finish ++
        ch '}' :: chunkTail request_id work_id object)).result := by
  rw [get_chunk_data, outputText_eq]
  rw [show ∀ inner tail, str ":" ++ (str "\x7b" ++ (inner ++ str "\x7d") ++ tail) =
    str ":\x7b" ++ (inner ++ ch '}' :: tail) by intro inner tail; simp [str], Scan.run_append]
  rfl

/-- Up to the end of a first part `p` of the text, nothing but the braces of `p` counts. -/
theorem staysOpen_head {p : Bytes} (h : StaysOpen 1 p) :
    StaysOpen 1 (str "\"delta\":\"" ++ escaped p) ∧
      balance (str "\"delta\":\"" ++ escaped p) = balance p := by
  have hhead : StaysOpen 1 (str "\"delta\":\"") := staysOpen_of_no_brace (by decide) (by decide)
  have hzero : balance (str "\"delta\":\"") = 0 := by decide
  refine ⟨?_, by rw [balance_append, hzero, balance_escaped, zero_add]⟩
  rw [staysOpen_append (by decide), hzero]
  exact ⟨hhead, (staysOpen_escaped (by decide)).mpr h⟩

/-- The rest of a chunk is literals and numbers, without braces. -/
theorem staysOpen_chunkInner (h : StaysOpen 1 delta) :
    StaysOpen 1 (chunkInner index delta finish) ∧
      balance (chunkInner index delta finish) = balance delta := by
  obtain ⟨hstays, hbalance⟩ := staysOpen_head h
  have hpos := h delta (List.prefix_refl delta)
  have hrest : ch '{' ∉ str "\",\"finish\":" ++ ((if finish then str "true" else str "false") ++
        (str ",\"index\":" ++ to_string index)) ∧
      ch '}' ∉ str "\",\"finish\":" ++ ((if finish then str "true" else str "false") ++
        (str ",\"index\":" ++ to_string index)) := by
    have hopen : ch '{' ∉ to_string index := not_mem_to_string index (by decide) (by decide)
    have hclose : ch '}' ∉ to_string index := not_mem_to_string index (by decide) (by decide)
    simp only [List.mem_append, hopen, hclose, or_false, not_or]
    cases finish <;> decide
  rw [chunkInner, ← List.append_assoc]
  refine ⟨?_, by rw [balance_append, hbalance, balance_of_no_brace hrest, add_zero]⟩
  rw [staysOpen_append (by decide), hbalance]
  exact ⟨hstays, staysOpen_of_no_brace hpos hrest⟩

/-- A text that closes the chunk early: the rest of it is lost. -/
theorem get_chunk_data_cut {p s : Bytes} (hopen : StaysOpen 1 p) (hbal : balance p = 0) :
    sample_json_str_get
        (chunkMessage request_id work_id object created index (p ++ ch '}' :: s) finish)
        (str "data") = str "\x7b\"delta\":\"" ++ (escaped p ++ str "\x7d") := by
  obtain ⟨hstays, hbalance⟩ := staysOpen_head hopen
  have hclose : escape (ch '}') = [ch '}'] := by decide
  rw [get_chunk_data_count, chunkInner, escaped_append, escaped_cons, hclose]
  have hjoin : ∀ rest tail : Bytes,
      str "\"delta\":\"" ++ (escaped p ++ ([ch '}'] ++ escaped s) ++ rest) ++ tail =
        (str "\"delta\":\"" ++ escaped p) ++ ch '}' :: (escaped s ++ (rest ++ tail)) := by
    intro rest tail
    simp
  rw [hjoin]
  rw [Scan.result_close (by decide) hstays (by omega)]
  simp only [List.append_assoc]
  rfl

/-- A text whose open braces are closed behind the chunk: the whole chunk is read, and what
    follows it up to there. -/
theorem get_chunk_data_closed (hopen : StaysOpen 1 delta)
    (hclosed : ¬ StaysOpen (balance delta) (chunkTail request_id work_id object)) :
    ∃ x, sample_json_str_get
        (chunkMessage request_id work_id object created index delta finish) (str "data") =
      outputText index delta finish ++ x := by
  obtain ⟨hstays, hbalance⟩ := staysOpen_chunkInner index delta finish hopen
  have hpos := hopen delta (List.prefix_refl delta)
  rw [get_chunk_data_count, outputText_eq]
  generalize chunkInner index delta finish = inner at hstays hbalance ⊢
  rcases (by omega : balance delta = 0 ∨ 0 < balance delta) with hzero | hmore
  · refine ⟨[], ?_⟩
    rw [Scan.result_close (by decide) hstays (by omega)]
    simp [str]
  · -- the brace of the chunk closes one of the text's
    obtain ⟨q, r, htail, hq, hqbal⟩ := exists_close hmore hclosed
    refine ⟨q ++ str "\x7d", ?_⟩
    have hbrace : balance [ch '}'] = -1 := by decide
    have hstays' : StaysOpen 1 (inner ++ ch '}' :: q) := by
      rw [staysOpen_append (by decide), staysOpen_cons (by omega), hbrace, hbalance,
        show 1 + balance delta + -1 = balance delta by omega]
      exact ⟨hstays, hmore, hq⟩
    have hbal' : 1 + balance (inner ++ ch '}' :: q) = 1 := by
      rw [balance_append, show balance (ch '}' :: q) = balance [ch '}'] + balance q from
        balance_append [ch '}'] q, hbrace, hbalance]
      omega
    rw [htail, show inner ++ ch '}' :: (q ++ ch '}' :: r) = (inner ++ ch '}' :: q) ++ ch '}' :: r by
      simp, Scan.result_close (by decide) hstays' hbal']
    simp [str]

/-- A text that leaves more open: nothing is read. -/
theorem get_chunk_data_unclosed (hopen : StaysOpen 1 delta)
    (hunclosed : StaysOpen (balance delta) (chunkTail request_id work_id object)) :
    sample_json_str_get (chunkMessage request_id work_id object created index delta finish)
      (str "data") = [] := by
  obtain ⟨hstays, hbalance⟩ := staysOpen_chunkInner index delta finish hopen
  have hpos := hopen delta (List.prefix_refl delta)
  have hbrace : balance [ch '}'] = -1 := by decide
  have hmore : 0 < balance delta := by simpa using hunclosed [] List.nil_prefix
  rw [get_chunk_data_count]
  apply Scan.result_open (by decide)
  rw [staysOpen_append (by decide), staysOpen_cons (by omega), hbrace, hbalance,
    show 1 + balance delta + -1 = balance delta by omega]
  exact ⟨hstays, hmore, hunclosed⟩

/-- Without its rest a chunk has no index. -/
theorem get_cut_index (p : Bytes) :
    sample_json_str_get (str "\x7b\"delta\":\"" ++ (escaped p ++ str "\x7d")) (str "index") =
      [] := by
  have hk : ∀ c ∈ str "index", Plain c := by decide
  have hhead : clear (find_key (str "index")) (str "\x7b\"delta\":") = true := by decide
  apply sample_json_str_get_of_after_none
  rw [show ∀ rest, str "\x7b\"delta\":\"" ++ rest = str "\x7b\"delta\":" ++ quote :: rest
    from fun _ => rfl, after_clear hhead]
  exact after_open hk p (by decide)

end Extent

/-! ## What the receiver decides -/

/-- The decision about a message, with the chunks that are held. -/
def Llm.intakeRaw (stream_buff : Map Int Bytes) (raw : Bytes) : Llm.Intake :=
  Llm.intakeData (sample_json_str_get raw (str "object")) (sample_json_str_get raw (str "data"))
    stream_buff

/-- A chunk without an `index` that is a number is rejected. -/
theorem intakeData_unnumbered {object data : Bytes} (hobject : (find (str "stream") object).isSome)
    (h : sample_json_str_get data (str "index") = []) (stream_buff : Map Int Bytes) :
    (Llm.intakeData object data stream_buff).isReject = true := by
  obtain ⟨e, he⟩ : ∃ e, stoi [] = .error e := ⟨_, rfl⟩
  by_cases hdata : data = [] ∨ data = str "None"
  · rw [Llm.intakeData, if_pos hdata]
    rfl
  · rw [Llm.intakeData, if_neg hdata, if_pos hobject, decode_stream_eq, h, he]
    rfl

section Decision

variable (request_id work_id object : Bytes)

/-- The text hides none of the keys behind it, closes only braces it has opened, and the braces it
    leaves open are closed behind it. -/
structure Framed (t : Bytes) : Prop where
  noObject : ¬ EndsIn (str "object") t
  noIndex : ¬ EndsIn (str "index") t
  noFinish : ¬ EndsIn (str "finish") t
  opens : StaysOpen 1 t
  closed : ¬ StaysOpen (balance t) (chunkTail request_id work_id object)

theorem find_stream_readDelta (hobject : (find (str "stream") object).isSome) :
    (find (str "stream") (readDelta object)).isSome := by
  have hescaped := find_escaped (by decide) hobject
  rw [isSome_find_iff] at hescaped ⊢
  unfold readDelta
  split
  · exact hescaped.trans (List.prefix_append _ _).isInfix
  · exact hescaped

variable {object} (hobject : (find (str "stream") object).isSome) (created : Int) {index : Int}
  (hindex : IsInt32 index) {t : Bytes} (stream_buff : Map Int Bytes)

include hobject hindex

/-- A chunk that was read whole. -/
theorem intakeData_whole_chunk (hnumber : ¬ EndsIn (str "index") t) (finish : Bool) (x : Bytes) :
    Llm.intakeData (readDelta object) (outputText index t finish ++ x) stream_buff =
      let stream_buff := stream_buff.insert index (readDelta t)
      if EndsIn (str "finish") t ∨ finish = true then
        match joinStream stream_buff (Map.size stream_buff) 0 with
        | .ok out => .infer out ∅
        | .error _ => .reject (-25) (str "Stream data index error.") ∅
      else .hold stream_buff := by
  have hstoi : stoi (sample_json_str_get (outputText index t finish ++ x) (str "index")) =
      .ok index := by
    rw [get_output_index_append, get_output_index, if_neg hnumber, stoi_to_string hindex]
  have find_f_nil : (find (str "f") []).isNone = true := by decide
  have find_f_true : (find (str "f") (str "true")).isNone = true := by decide
  have find_f_false : (find (str "f") (str "false")).isNone = false := by decide
  rw [Llm.intakeData_chunk (find_stream_readDelta object hobject) hstoi, get_output_finish_append,
    get_output_finish, get_output_delta_append, get_output_delta]
  dsimp only
  generalize stream_buff.insert index (readDelta t) = b
  generalize joinStream b (Map.size b) 0 = joined
  by_cases hfinish : EndsIn (str "finish") t
  · cases joined <;> simp only [hfinish, true_or, if_true, find_f_nil]
  · cases finish with
    | false => simp only [hfinish, Bool.false_eq_true, or_self, if_false, find_f_false]
    | true => cases joined <;> simp only [if_neg hfinish, or_true, if_true, find_f_true]

/-- A framed text is kept under its number. -/
theorem Framed.intake (h : Framed request_id work_id object t) :
    Llm.intakeRaw stream_buff
        (chunkMessage request_id work_id object created index t false) =
      .hold (stream_buff.insert index (readDelta t)) := by
  obtain ⟨x, hx⟩ :=
    get_chunk_data_closed request_id work_id object created index t false h.opens h.closed
  have hwait : ¬ (EndsIn (str "finish") t ∨ false = true) := by simpa using h.noFinish
  rw [Llm.intakeRaw, get_chunk_object, if_neg h.noObject, hx,
    intakeData_whole_chunk hobject hindex stream_buff h.noIndex, if_neg hwait]

/-- Any other is rejected, or taken for the end of a stream. -/
theorem framed_of_intake
    (hreject : (Llm.intakeRaw stream_buff
      (chunkMessage request_id work_id object created index t false)).isReject = false)
    (hmsg : (Llm.intakeRaw stream_buff
      (chunkMessage request_id work_id object created index t false)).msg? = none) :
    Framed request_id work_id object t := by
  have hstream := find_stream_readDelta object hobject
  have hempty : ∀ o b, (Llm.intakeData o [] b).isReject = true := fun o b => by
    rw [Llm.intakeData, if_pos (.inl rfl)]
    rfl
  rw [Llm.intakeRaw, get_chunk_object] at hreject hmsg
  have hkey : ¬ EndsIn (str "object") t := by
    intro hends
    -- what is read goes to the model at once
    rw [if_pos hends, Llm.intakeData] at hreject hmsg
    have hnone : (find (str "stream") []).isSome = false := by decide
    split at hmsg
    · rename_i hdata
      rw [if_pos hdata] at hreject
      cases hreject
    · rw [hnone] at hmsg
      cases hmsg
  rw [if_neg hkey] at hreject hmsg
  by_cases hopen : StaysOpen 1 t
  · by_cases hclosed : StaysOpen (balance t) (chunkTail request_id work_id object)
    · rw [get_chunk_data_unclosed _ _ _ _ _ _ _ hopen hclosed, hempty] at hreject
      cases hreject
    · obtain ⟨x, hx⟩ :=
        get_chunk_data_closed request_id work_id object created index t false hopen hclosed
      rw [hx] at hreject hmsg
      by_cases hnumber : EndsIn (str "index") t
      · rw [intakeData_unnumbered hstream
          (by rw [get_output_index_append, get_output_index, if_pos hnumber])] at hreject
        cases hreject
      · refine ⟨hkey, hnumber, fun hfinish => ?_, hopen, hclosed⟩
        rw [intakeData_whole_chunk hobject hindex stream_buff hnumber, if_pos (.inl hfinish)]
          at hreject hmsg
        revert hreject hmsg
        cases joinStream (stream_buff.insert index (readDelta t))
          (Map.size (stream_buff.insert index (readDelta t))) 0 <;> simp [Llm.Intake.isReject,
            Llm.Intake.msg?]
  · -- a brace of the text closes the chunk, and no index is left to read
    obtain ⟨p, q, rfl, hstays, hbal⟩ := exists_close (by decide) hopen
    rw [get_chunk_data_cut _ _ _ _ _ _ hstays (by omega),
      intakeData_unnumbered hstream (get_cut_index p)] at hreject
    cases hreject

/-- The last chunk joins what is held. -/
theorem intake_last :
    Llm.intakeRaw stream_buff (chunkMessage request_id work_id object created index [] true) =
      match joinStream (stream_buff.insert index []) (Map.size (stream_buff.insert index [])) 0 with
      | .ok out => .infer out ∅
      | .error _ => .reject (-25) (str "Stream data index error.") ∅ := by
  have hopen : StaysOpen 1 [] := staysOpen_nil (by decide)
  have hclosed : ¬ StaysOpen (balance []) (chunkTail request_id work_id object) :=
    fun h => absurd (h [] List.nil_prefix) (by simp)
  obtain ⟨x, hx⟩ :=
    get_chunk_data_closed request_id work_id object created index [] true hopen hclosed
  rw [Llm.intakeRaw, get_chunk_object, if_neg (by decide), hx,
    intakeData_whole_chunk hobject hindex stream_buff (by decide), if_pos (.inr rfl)]
  rfl

end Decision

/-! ## Sending -/

/-- The bodies that were published. -/
def publishedBodies (outs : List Out) : List OutBody := (outs.filter (·.kind = .pub)).map (·.body)

/-- Their texts; the `k`-th is made at time `created k`. -/
def publishedTexts (created : Nat → Int) (outs : List Out) : List Bytes :=
  (publishedBodies outs).mapIdx fun k out_body => out_body.text (created k) ++ str "\n"

/-- Task `n` streams, in this reply context and under this object. -/
structure Node.Sends (n : Int) (request_id work_id object : Bytes) (s : Node) : Prop where
  task : ∃ task, s.self.llm_task_.lookup n = some task ∧ task.response_format_ = object ∧
    Utf8.Valid object
  channel : ∃ channel, s.llm_task_channel_.lookup n = some channel ∧ channel.Ready ∧
    channel.enstream_ = true ∧ channel.request_id_ = request_id ∧ channel.work_id_ = work_id

instance (n : Int) (request_id work_id object : Bytes) (s : Node) :
    Decidable (Node.Sends n request_id work_id object s) :=
  decidable_of_iff
    ((∃ task ∈ s.self.llm_task_.lookup n, task.response_format_ = object ∧ Utf8.Valid object) ∧
      ∃ channel ∈ s.llm_task_channel_.lookup n, channel.Ready ∧ channel.enstream_ = true ∧
        channel.request_id_ = request_id ∧ channel.work_id_ = work_id)
    ⟨fun h => ⟨h.1, h.2⟩, fun h => ⟨h.task, h.channel⟩⟩

/-- What a channel publishes, and the context it keeps. -/
theorem Channel.send_bodies {env : NodeEnv} {channel channel' : Channel} {object : Bytes}
    {data : Json} {outs : List Out}
    (h : channel.send env object data LLM_NO_ERROR [] = .ok (channel', outs)) :
    publishedBodies outs = [⟨channel.request_id_, channel.work_id_, object, data,
        error_member LLM_NO_ERROR⟩] ∧
      channel'.enstream_ = channel.enstream_ ∧ channel'.request_id_ = channel.request_id_ ∧
      channel'.work_id_ = channel.work_id_ := by
  -- reading a slot changes the table only
  have hslot : ∀ (c : Channel) i, (c.slot i).2.enstream_ = c.enstream_ ∧
      (c.slot i).2.request_id_ = c.request_id_ ∧ (c.slot i).2.work_id_ = c.work_id_ := by
    intro c i
    unfold slot
    split <;> exact ⟨rfl, rfl, rfl⟩
  unfold Channel.send at h
  obtain ⟨error, herror, h⟩ := exists_of_bind_eq_ok h
  obtain ⟨-, -, h⟩ := exists_of_bind_eq_ok h
  obtain rfl : LLM_NO_ERROR = error := Except.ok.inj ((env.error_msg_string []).symm.trans herror)
  obtain ⟨hmode1, hid1, hwork1⟩ := hslot channel (-1)
  cases hpub : channel.slot (-1) with
  | mk pub channel1 =>
      rw [hpub] at hmode1 hid1 hwork1 h
      cases pub with
      | none => cases h
      | some pub =>
          obtain ⟨hmode2, hid2, hwork2⟩ := hslot channel1 (-2)
          simp only at h
          split at h
          · cases h
            refine ⟨?_, hmode2.trans hmode1, hid2.trans hid1, hwork2.trans hwork1⟩
            simp [publishedBodies, List.filter_map, Function.comp_def]
          · cases h
            exact ⟨rfl, hmode1, hid1, hwork1⟩

section Sending

variable {env : NodeEnv} {n : Int} {request_id work_id object : Bytes} {s : Node}

/-- One call of the unit that sends. -/
theorem task_output_sends (h : Node.Sends n request_id work_id object s) {data : Bytes}
    (hdata : Utf8.Valid data) (finish : Bool) :
    ∃ s' new, (Llm.task_output env n data finish).run s = .ok () s' ∧
      Node.Sends n request_id work_id object s' ∧
      s'.self.count = (if finish then 0 else wrap32 (s.self.count + 1)) ∧
      s'.outs = s.outs ++ new ∧
      publishedBodies new = [chunkBody request_id work_id object s.self.count data finish] := by
  obtain ⟨task, htask, hformat, hvalid⟩ := h.task
  obtain ⟨channel, hc, hready, hstream, hid, hwork⟩ := h.channel
  have hstrings : ∀ t ∈ (Llm.data_body s.self.count data finish).strings, Utf8.Valid t :=
    (data_body_valid_iff _ data finish).mpr (.inr hdata)
  obtain ⟨channel', new, hsend, hready'⟩ := hready.send env hvalid fun _ => hstrings
  obtain ⟨hbodies, hmode', hid', hwork'⟩ := Channel.send_bodies hsend
  let s1 : Node := { s with self.count := if finish then 0 else wrap32 (s.self.count + 1) }
  have hrun : (Llm.channel_send env n object (Llm.data_body s.self.count data finish)).run s1 =
      .ok () { s1.withChannel n channel' with outs := s1.outs ++ new } := by
    rw [@Llm.channel_send_run env s1 n channel hc, hsend]
  refine ⟨{ s1.withChannel n channel' with outs := s1.outs ++ new }, new, ?_, ?_, rfl, rfl, ?_⟩
  · rw [Llm.task_output_stream_run htask hc hstream data finish, hformat]
    exact hrun
  · exact ⟨⟨task, htask, hformat, hvalid⟩, channel', AList.lookup_insert _, hready',
      hmode'.trans hstream, hid'.trans hid, hwork'.trans hwork⟩
  · rw [hbodies, hid, hwork]
    rfl

variable (request_id work_id object) in
/-- The bodies of an inference, from number `i` on. -/
def chunkBodies (i : Nat) : List Bytes → List OutBody
  | [] => [chunkBody request_id work_id object i [] true]
  | t :: ts => chunkBody request_id work_id object i t false :: chunkBodies (i + 1) ts

theorem outCalls_sends (h : Node.Sends n request_id work_id object s) {ts : List Bytes}
    (hts : ∀ t ∈ ts, Utf8.Valid t) {i : Nat} (hcount : s.self.count = i)
    (hlen : i + ts.length < 2 ^ 31) :
    ∃ new, (Effect.final (outCalls env n ts) s).outs = s.outs ++ new ∧
      publishedBodies new = chunkBodies request_id work_id object i ts := by
  -- on the calls, with the counter of the state they start from
  induction ts generalizing s i with
  | nil =>
      have hnil : Utf8.Valid [] := rfl
      obtain ⟨s', new, hrun, -, -, houts, hbodies⟩ :=
        @task_output_sends env n request_id work_id object s h [] hnil true
      refine ⟨new, ?_, ?_⟩
      · rw [Effect.final, outCalls, hrun]
        exact houts
      · rw [hbodies, hcount, chunkBodies]
  | cons t ts ih =>
      rw [List.length_cons] at hlen
      obtain ⟨s', first, hrun, hsends, hcount', houts, hbodies⟩ :=
        @task_output_sends env n request_id work_id object s h t (hts t (by simp)) false
      have hnext : s'.self.count = ((i + 1 : Nat) : Int) := by
        rw [hcount', hcount, if_neg (by decide), Nat.cast_add, Nat.cast_one]
        exact wrap32_of_isInt32 (by unfold IsInt32; omega)
      obtain ⟨rest, hrest, hbodies'⟩ :=
        ih hsends (fun t' ht' => hts t' (by simp [ht'])) hnext (by omega)
      have hstep : Effect.final (outCalls env n (t :: ts)) s =
          Effect.final (outCalls env n ts) s' := by
        rw [Effect.final, Effect.final, outCalls, EStateM.run_bind, hrun]
      refine ⟨first ++ rest, ?_, ?_⟩
      · rw [hstep, hrest, houts, List.append_assoc]
      · rw [publishedBodies, List.filter_append, List.map_append]
        rw [← publishedBodies, ← publishedBodies, hbodies, hbodies', hcount, chunkBodies]
        rfl

end Sending

/-! ## Receiving -/

/-- What task `n` makes of the messages of its subscription, one after the other: whether it
    rejects them, and the runs of the model. -/
def NodeProcess.heard (env : NodeEnv) (n : Int) :
    NodeProcess → List Bytes → List (Bool × List (Int × Bytes))
  | _, [] => []
  | p, raw :: raws =>
      let p' := p.step env (.inference n raw)
      (p.rejects n raw, newInferences p p') :: heard env n p' raws

/-- A task that is set up, in a unit that is up. -/
structure NodeProcess.Hears (n : Int) (stream_buff : Map Int Bytes) (p : NodeProcess) : Prop where
  alive : p.alive = true
  ready : Node.Ready n p.node
  held : p.node.self.stream_buff = stream_buff
  valid : Map.All Utf8.Valid stream_buff

section Receiving

variable (env : NodeEnv) {n : Int} {stream_buff : Map Int Bytes} {p : NodeProcess}

theorem NodeProcess.Hears.message (h : p.Hears n stream_buff) {raw : Bytes}
    (hraw : Utf8.Valid raw) :
    p.rejects n raw = (Llm.intakeRaw stream_buff raw).isReject ∧
      newInferences p (p.step env (.inference n raw)) =
        (Llm.intakeRaw stream_buff raw).msg?.toList.map (n, ·) ∧
      ((Llm.intakeRaw stream_buff raw).isReject = false →
        (p.step env (.inference n raw)).Hears n (Llm.intakeRaw stream_buff raw).buff) := by
  have hbuff : Map.All Utf8.Valid p.node.self.stream_buff := h.held ▸ h.valid
  have hintake : p.intake raw = Llm.intakeRaw stream_buff raw := by
    rw [← h.held]
    rfl
  obtain ⟨hb, hlog, halive, hready⟩ := p.step_message env h.alive h.ready hbuff hraw
  obtain ⟨channel, hc, hchannel⟩ := h.ready.channel
  rw [hintake] at hb hlog halive
  refine ⟨?_, ?_, fun hreject => ⟨halive hreject, hready n h.ready, hb, ?_⟩⟩
  · simp only [NodeProcess.rejects, hc, h.alive, hchannel.subscribed, decide_true, Bool.true_and,
      Llm.intake_of_ready h.ready, ← hintake, NodeProcess.intake]
  · rw [newInferences, hlog, List.drop_left]
  · exact (Llm.intakeData_valid _ (sample_json_str_get_valid hraw) h.valid).1

variable {request_id work_id object : Bytes}

/-- A message of streamed output is UTF-8. -/
theorem chunkMessage_valid (hid : Utf8.Valid request_id) (hwork : Utf8.Valid work_id)
    (hobject : Utf8.Valid object) (created index : Int) {delta : Bytes}
    (hdelta : Utf8.Valid delta) (finish : Bool) :
    Utf8.Valid (chunkMessage request_id work_id object created index
      (if finish then [] else delta) finish) := by
  have hdumps : (chunkBody request_id work_id object index delta finish).Dumps := by
    refine ⟨?_, ?_⟩
    · rw [OutBody.strings_valid_iff]
      have herror : ∀ s ∈ (error_member LLM_NO_ERROR).strings, Utf8.Valid s := by decide +kernel
      have hdata := (data_body_valid_iff index delta finish).mpr (.inr hdelta)
      exact ⟨hid, hwork, hobject, hdata, herror⟩
    · have hnone : (error_member LLM_NO_ERROR).floats = [] := rfl
      simp [chunkBody, Llm.data_body, Json.floats, Json.memberFloats, hnone]
  have hnewline : Utf8.Valid (str "\n") := by decide +kernel
  rw [← chunkBody_text]
  exact (OutBody.shownLine hdumps created).valid.append hnewline

/-- The messages of an inference, from number `i` on, the `k`-th of them made at `created k`. -/
theorem heard_chunkBodies (hobject : (find (str "stream") object).isSome)
    (hid : Utf8.Valid request_id) (hwork : Utf8.Valid work_id) (hvalid : Utf8.Valid object)
    {ts : List Bytes} (hts : ∀ t ∈ ts, Utf8.Valid t) (created : Nat → Int) {held : List Bytes}
    (hlen : held.length + ts.length < 2 ^ 31) (h : p.Hears n stream_buff)
    (hheld : Reassembly.Holds stream_buff held)
    (hframed : ∀ t ∈ ts, Framed request_id work_id object t) :
    p.heard env n ((chunkBodies request_id work_id object held.length ts).mapIdx
        fun k out_body => out_body.text (created k) ++ str "\n") =
      List.replicate ts.length (false, []) ++
        [(false, [(n, (held ++ ts.map readDelta).flatten)])] := by
  induction ts generalizing held stream_buff p created with
  | nil =>
      have hindex : IsInt32 (held.length : Int) := isInt32_natCast (by simpa using hlen)
      have hnil : Utf8.Valid [] := rfl
      have hins := hheld.insert []
      have hjoin := hins.join (by simp at hlen ⊢; omega) 0
      rw [Nat.sub_zero, ← hins.size, List.drop_zero] at hjoin
      have hlast := intake_last request_id work_id hobject (created 0) hindex stream_buff
      rw [hjoin] at hlast
      obtain ⟨hrejects, hnew, -⟩ :=
        h.message env (chunkMessage_valid hid hwork hvalid (created 0) held.length hnil true)
      simp only [if_true] at hrejects hnew
      rw [hlast] at hrejects hnew
      simp only [chunkBodies, List.mapIdx_cons, List.mapIdx_nil, chunkBody_text, if_true,
        NodeProcess.heard, hrejects, hnew]
      simp [Llm.Intake.isReject, Llm.Intake.msg?]
  | cons t ts ih =>
      rw [List.length_cons] at hlen
      have hindex : IsInt32 (held.length : Int) := isInt32_natCast (by omega)
      have hkept := (hframed t (by simp)).intake request_id work_id hobject (created 0) hindex
        stream_buff
      obtain ⟨hrejects, hnew, hhears⟩ := h.message env
        (chunkMessage_valid hid hwork hvalid (created 0) held.length (hts t (by simp)) false)
      simp only [Bool.false_eq_true, if_false] at hrejects hnew hhears
      rw [hkept] at hrejects hnew hhears
      have hins := hheld.insert (readDelta t)
      -- the text is held now, and the next chunk has the next number
      have hrest := ih (fun t' ht' => hts t' (by simp [ht'])) (fun k => created (k + 1))
        (by simp only [List.length_append, List.length_singleton]; omega) (hhears rfl) hins
        fun t' ht' => hframed t' (by simp [ht'])
      simp only [List.length_append, List.length_singleton] at hrest
      simp only [chunkBodies, List.mapIdx_cons, chunkBody_text, Bool.false_eq_true, if_false,
        NodeProcess.heard, hrejects, hnew, hrest]
      simp [Llm.Intake.isReject, Llm.Intake.msg?, List.replicate_succ]

/-- Conversely, a text that is not framed is rejected or ends the stream. -/
theorem framed_of_heard (hobject : (find (str "stream") object).isSome)
    (hid : Utf8.Valid request_id) (hwork : Utf8.Valid work_id) (hvalid : Utf8.Valid object)
    {ts : List Bytes} (hts : ∀ t ∈ ts, Utf8.Valid t) (created : Nat → Int) {i : Nat}
    (hlen : i + ts.length < 2 ^ 31) (h : p.Hears n stream_buff)
    {result : Bool × List (Int × Bytes)}
    (hheard : p.heard env n ((chunkBodies request_id work_id object i ts).mapIdx
        fun k out_body => out_body.text (created k) ++ str "\n") =
      List.replicate ts.length (false, []) ++ [result]) :
    ∀ t ∈ ts, Framed request_id work_id object t := by
  induction ts generalizing i stream_buff p created with
  | nil => simp
  | cons t ts ih =>
      rw [List.length_cons] at hlen
      have hindex : IsInt32 (i : Int) := isInt32_natCast (by omega)
      obtain ⟨hrejects, hnew, hhears⟩ := h.message env
        (chunkMessage_valid hid hwork hvalid (created 0) i (hts t (by simp)) false)
      simp only [Bool.false_eq_true, if_false] at hrejects hnew hhears
      simp only [chunkBodies, List.mapIdx_cons, chunkBody_text, Bool.false_eq_true, if_false,
        NodeProcess.heard, List.length_cons, List.replicate_succ, List.cons_append,
        List.cons.injEq, Prod.mk.injEq] at hheard
      obtain ⟨⟨hreject, hnone⟩, hrest⟩ := hheard
      rw [hrejects] at hreject
      have hmsg : (Llm.intakeRaw stream_buff
          (chunkMessage request_id work_id object (created 0) i t false)).msg? = none := by
        rw [hnew] at hnone
        simpa using hnone
      have hframed :=
        framed_of_intake request_id work_id hobject (created 0) hindex stream_buff hreject hmsg
      intro t' ht'
      rcases List.mem_cons.mp ht' with rfl | ht'
      · exact hframed
      · exact ih (fun u hu => hts u (by simp [hu])) (fun k => created (k + 1)) (by omega)
          (hhears hreject) hrest t' ht'

end Receiving

/-! ## The condition -/

/-- The text has nothing to escape and is none of the keys behind it, it closes only braces it has
    opened, and the braces it leaves open are closed in what follows the chunk. -/
structure Relayed (request_id work_id object t : Bytes) : Prop where
  plain : ∀ c ∈ t, Plain c
  noKey : t ≠ str "object" ∧ t ≠ str "index" ∧ t ≠ str "finish"
  closes : ∀ p, p <+: t → p.count (ch '}') ≤ p.count (ch '{')
  closed : ∃ q, q <+: chunkTail request_id work_id object ∧
    (t ++ q).count (ch '{') ≤ (t ++ q).count (ch '}')

theorem relayed_iff {request_id work_id object t : Bytes} :
    Relayed request_id work_id object t ↔
      Framed request_id work_id object t ∧ ∀ c ∈ t, Plain c := by
  have hclosed : (¬ StaysOpen (balance t) (chunkTail request_id work_id object)) ↔
      ∃ q, q <+: chunkTail request_id work_id object ∧
        (t ++ q).count (ch '{') ≤ (t ++ q).count (ch '}') := by
    unfold StaysOpen
    push Not
    refine exists_congr fun q => and_congr_right fun _ => ?_
    rw [← balance_append]
    unfold balance
    omega
  constructor
  · rintro ⟨hplain, ⟨hobject, hindex, hfinish⟩, hcloses, hq⟩
    have hends : ∀ k, EndsIn k t ↔ t = k := fun k => endsIn_iff_of_plain hplain
    exact ⟨⟨mt (hends _).mp hobject, mt (hends _).mp hindex, mt (hends _).mp hfinish,
      staysOpen_one_iff.mpr hcloses, hclosed.mpr hq⟩, hplain⟩
  · rintro ⟨⟨hobject, hindex, hfinish, hopens, hopen⟩, hplain⟩
    exact ⟨hplain, ⟨fun h => hobject (.inl h), fun h => hindex (.inl h), fun h => hfinish (.inl h)⟩,
      staysOpen_one_iff.mp hopens, hclosed.mp hopen⟩

/-- For every unit that streams, every sequence of texts its model puts out and every task that
    listens: the task waits for the last message and then runs its model on exactly that output, if
    and only if every text of it is relayed.  Messages below 2 GiB are read the same with the casts
    of `sample_json_str_get`. -/
theorem unit_output_heard_iff (env env' : NodeEnv) (s : Node) (n m : Int)
    (request_id work_id object : Bytes) (hsends : Node.Sends n request_id work_id object s)
    (hcount : s.self.count = 0) (hobject : (find (str "stream") object).isSome) (ts : List Bytes)
    (hts : ∀ t ∈ ts, Utf8.Valid t) (hlen : ts.length < 2 ^ 31) (created : Nat → Int)
    (p : NodeProcess) (hhears : p.Hears m ∅) :
    (p.heard env' m (publishedTexts created
        ((Effect.final (outCalls env n ts) s).outs.drop s.outs.length)) =
      List.replicate ts.length (false, []) ++ [(false, [(m, ts.flatten)])] ↔
    ∀ t ∈ ts, Relayed request_id work_id object t) ∧
    ∀ raw ∈ publishedTexts created ((Effect.final (outCalls env n ts) s).outs.drop s.outs.length),
      raw.length < 2 ^ 31 → ReadsAlike raw := by
  refine ⟨?_, fun raw _ hraw => readsAlike_of_lt hraw⟩
  obtain ⟨-, -, -, hvalid⟩ := hsends.task
  obtain ⟨channel, -, hready, -, hid, hwork⟩ := hsends.channel
  have hid' : Utf8.Valid request_id := hid ▸ hready.request_id_
  have hwork' : Utf8.Valid work_id := hwork ▸ hready.work_id_
  obtain ⟨new, houts, hbodies⟩ :=
    @outCalls_sends env n request_id work_id object s hsends ts hts 0 hcount (by omega)
  rw [houts, List.drop_left, publishedTexts, hbodies]
  have hheard : (∀ t ∈ ts, Framed request_id work_id object t) →
      p.heard env' m ((chunkBodies request_id work_id object 0 ts).mapIdx
          fun k out_body => out_body.text (created k) ++ str "\n") =
        List.replicate ts.length (false, []) ++ [(false, [(m, (ts.map readDelta).flatten)])] :=
    fun hframed => heard_chunkBodies env' hobject hid' hwork' hvalid hts created
      (by simpa using hlen) hhears .empty hframed
  simp only [relayed_iff]
  constructor
  · intro h
    have hframed :=
      framed_of_heard env' hobject hid' hwork' hvalid hts created (by simpa using hlen) hhears h
    rw [hheard hframed] at h
    have htext : (ts.map readDelta).flatten = ts.flatten := by simpa using h
    exact fun t ht => ⟨hframed t ht, plain_of_flatten htext t ht⟩
  · intro h
    -- texts without escapes are read as they were written
    have hsame : ts.map readDelta = ts := by
      conv_rhs => rw [← List.map_id ts]
      exact List.map_congr_left fun t ht => readDelta_of_plain t (h t ht).2
    rw [hheard fun t ht => (h t ht).1, hsame]

/-! ## A brace that is left open -/

theorem sends_twoStreams :
    Node.Sends 0 (str "1") (str "llm.0") (str "llm.utf-8.stream") Emission.twoStreams ∧
      Emission.twoStreams.self.count = 0 := by
  decide +kernel

theorem hears_twoTasks : twoTasks.Hears 1 ∅ where
  alive := twoTasks_ready.1
  ready := twoTasks_ready.2.2
  held := twoTasks_stream_buff
  valid := .empty

theorem relayed_without_close {request_id work_id object t : Bytes} (hplain : ∀ c ∈ t, Plain c)
    (hnoKey : t ≠ str "object" ∧ t ≠ str "index" ∧ t ≠ str "finish") (hnone : ch '}' ∉ t)
    (hclosed : (t ++ chunkTail request_id work_id object).count (ch '{') ≤
      (t ++ chunkTail request_id work_id object).count (ch '}')) :
    Relayed request_id work_id object t where
  plain := hplain
  noKey := hnoKey
  closes := fun p hp => by
    rw [List.count_eq_zero_of_not_mem fun hmem => hnone (hp.subset hmem)]
    exact Nat.zero_le _
  closed := ⟨_, List.prefix_refl _, hclosed⟩

/-- One open brace is closed by the last one of the message. -/
theorem unit_output_heard_iff_brace :
    twoTasks.heard (configEnv .convert) 1 (publishedTexts (fun k => k)
        ((Effect.final (outCalls Emission.streamEnv 0 [str "if x \x7b", str "hello"])
          Emission.twoStreams).outs.drop Emission.twoStreams.outs.length)) =
      List.replicate 2 (false, []) ++ [(false, [(1, [str "if x \x7b", str "hello"].flatten)])] := by
  refine (unit_output_heard_iff Emission.streamEnv (configEnv .convert) Emission.twoStreams 0 1
    (str "1") (str "llm.0") (str "llm.utf-8.stream") sends_twoStreams.1 sends_twoStreams.2
    (by decide) [str "if x \x7b", str "hello"] (by decide +kernel) (by decide) (fun k => k)
    twoTasks hears_twoTasks).1.mpr ?_
  intro t ht
  rcases List.mem_pair.mp ht with rfl | rfl <;>
    exact relayed_without_close (by decide) (by decide) (by decide) (by decide +kernel)

end DoubleTurnouts
