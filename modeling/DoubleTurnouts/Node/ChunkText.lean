/-
  DoubleTurnouts.Node.ChunkText

  The chunks of streamed output as text, and what `decode_stream` makes of
  them.  nlohmann writes the members of an object in the order of their names
  and without blanks, so a chunk is its `delta`, its `finish` and its `index`.

  `decode_stream` looks for its keys anywhere, and `delta` comes first: a text
  that looks like one of the other keys hides it (`EndsIn`).  The literal of
  the text is copied as it stands, and past its end if it ends in a backslash
  (`readDelta`).  A receiver that gets the chunks in order has the whole text
  in the end exactly if neither happens (`receive_whole_iff`).
-/
import Mathlib.Tactic
import DoubleTurnouts.Sample.Dumps
import DoubleTurnouts.Node.Streams

namespace DoubleTurnouts

open Text Decimal

/-! ## Writing -/

mutual

/-- `nlohmann::json::dump()`. -/
def Json.dump : Json → Bytes
  | .null => str "null"
  | .bool b => if b then str "true" else str "false"
  | .int n => to_string n
  | .float l => l
  | .string s => literal s
  | .array items => str "[" ++ (dumpItems items ++ str "]")
  | .object members => str "\x7b" ++ (dumpMembers members ++ str "\x7d")

def Json.dumpItems : List Json → Bytes
  | [] => []
  | [j] => j.dump
  | j :: js => j.dump ++ (str "," ++ dumpItems js)

def Json.dumpMembers : List (Bytes × Json) → Bytes
  | [] => []
  | [(key, j)] => literal key ++ (str ":" ++ j.dump)
  | (key, j) :: js => literal key ++ (str ":" ++ (j.dump ++ (str "," ++ dumpMembers js)))

end

/-- The text of a chunk with the given `delta`. -/
def outputText (index : Int) (delta : Bytes) (finish : Bool) : Bytes :=
  str "\x7b" ++ (find_key (str "delta") ++ (str ":" ++ (literal delta ++ (str "," ++
    (find_key (str "finish") ++ (str ":" ++ ((if finish then str "true" else str "false") ++
      (str "," ++ (find_key (str "index") ++ (str ":" ++ (to_string index ++ str "\x7d")))))))))))

theorem dump_data_body (index : Int) (data : Bytes) (finish : Bool) :
    (Llm.data_body index data finish).dump =
      outputText index (if finish then [] else data) finish := by
  have hdelta : literal (str "delta") = find_key (str "delta") := by decide
  have hindex : literal (str "index") = find_key (str "index") := by decide
  have hfinish : literal (str "finish") = find_key (str "finish") := by decide
  simp only [Llm.data_body, Json.dump, Json.dumpMembers, hdelta, hindex, hfinish,
    List.append_assoc, outputText]

/-! ## Reading a chunk -/

/-- What is read as the value of a number: everything up to the end of the object. -/
theorem result_number {s : Bytes}
    (h : ∀ c ∈ s, c ≠ quote ∧ c ≠ ch '{' ∧ c ≠ ch ':' ∧ c ≠ ch ',' ∧ c ≠ ch '}' ∧ c ≠ ch ' ')
    (rest : Bytes) : (Scan.init.run (str ":" ++ (s ++ ch '}' :: rest))).result = s := by
  have hcopy : ∀ (σ : Scan), σ.status = .s0 → σ.obj_flage = 1 →
      (σ.run (s ++ ch '}' :: rest)).result = σ.key_val ++ s := by
    induction s with
    | nil =>
        intro σ hs hflag
        have hstep : σ.step (ch '}') =
            { σ with status := .sEnd, last_c := ch '}', obj_flage := 0 } := by
          simp [Scan.step, hs, Scan.step0, show ch '}' ≠ quote by decide,
            show ch '}' ≠ ch '{' by decide, show ch '}' ≠ ch ':' by decide]
        rw [List.nil_append, Scan.run_cons, hstep, Scan.result_run_of_sEnd rfl]
        simp [Scan.result]
    | cons c s ih =>
        intro σ hs hflag
        obtain ⟨hquote, hopen, hcolon, hcomma, hclose, hspace⟩ := h c (by simp)
        have hstep : σ.step c = { σ with last_c := c, key_val := σ.key_val ++ [c] } := by
          simp [Scan.step, hs, Scan.step0, hquote, hopen, hcolon, hcomma, hclose, hspace, hflag]
        rw [List.cons_append, Scan.run_cons, hstep]
        have hrest := ih (fun d hd => h d (by simp [hd]))
          { σ with last_c := c, key_val := σ.key_val ++ [c] } hs hflag
        rw [hrest]
        simp
  exact hcopy _ rfl rfl

section Reading

variable (index : Int) (delta : Bytes) (finish : Bool)

/-- The search for a key other than `delta`, up to the end of the text of the chunk. -/
theorem after_outputText {k : Bytes} (hk : ∀ c ∈ k, Plain c)
    (hhead : clear (find_key k) (str "\x7b\"delta\":") = true) :
    after (find_key k) (outputText index delta finish) =
      let rest := str "," ++ (find_key (str "finish") ++ (str ":" ++
        ((if finish then str "true" else str "false") ++ (str "," ++ (find_key (str "index") ++
          (str ":" ++ (to_string index ++ str "\x7d")))))))
      if EndsIn k delta then some rest else after (find_key k) (quote :: rest) := by
  rw [outputText]
  rw [show ∀ rest, str "\x7b" ++ (find_key (str "delta") ++ (str ":" ++ rest)) =
    str "\x7b\"delta\":" ++ rest from fun _ => rfl]
  rw [after_clear hhead, after_literal hk]

theorem get_output_index :
    sample_json_str_get (outputText index delta finish) (str "index") =
      if EndsIn (str "index") delta then [] else to_string index := by
  have hafter := after_outputText index delta finish (k := str "index") (by decide) (by decide)
  split
  · rename_i hends
    rw [if_pos hends] at hafter
    rw [sample_json_str_get_of_after hafter]
    exact Scan.result_comma _
  · rename_i hends
    have hsep : clear (find_key (str "index")) (quote :: (str "," ++ (find_key (str "finish") ++
        (str ":" ++ ((if finish then str "true" else str "false") ++ str ","))))) = true := by
      cases finish <;> decide
    rw [if_neg hends] at hafter
    rw [show ∀ rest, quote :: (str "," ++ (find_key (str "finish") ++ (str ":" ++
      ((if finish then str "true" else str "false") ++ (str "," ++ rest))))) =
      (quote :: (str "," ++ (find_key (str "finish") ++ (str ":" ++
        ((if finish then str "true" else str "false") ++ str ","))))) ++ rest from
        fun rest => by simp, after_clear hsep, after_self_append] at hafter
    rw [sample_json_str_get_of_after hafter]
    apply result_number
    intro c hc
    -- a printed number has no quote, no bracket and no separator
    have hnot : ∀ {d}, d ≠ ch '-' → isDigit d = false → c ≠ d := by
      rintro d hminus hdigit rfl
      exact not_mem_to_string index hminus hdigit hc
    exact ⟨hnot (by decide) (by decide), hnot (by decide) (by decide),
      hnot (by decide) (by decide), hnot (by decide) (by decide), hnot (by decide) (by decide),
      hnot (by decide) (by decide)⟩

theorem get_output_finish :
    sample_json_str_get (outputText index delta finish) (str "finish") =
      if EndsIn (str "finish") delta then []
      else if finish then str "true" else str "false" := by
  have hafter := after_outputText index delta finish (k := str "finish") (by decide) (by decide)
  split
  · rename_i hends
    rw [if_pos hends] at hafter
    rw [sample_json_str_get_of_after hafter]
    exact Scan.result_comma _
  · rename_i hends
    have hsep : clear (find_key (str "finish")) (quote :: str ",") = true := by decide
    rw [if_neg hends] at hafter
    rw [show ∀ rest, quote :: (str "," ++ rest) = (quote :: str ",") ++ rest from fun _ => rfl,
      after_clear hsep, after_self_append] at hafter
    rw [sample_json_str_get_of_after hafter]
    cases finish
    · show (Scan.init.run (str ":false," ++ _)).result = _
      rw [Scan.result_run_append (by decide)]
      decide
    · show (Scan.init.run (str ":true," ++ _)).result = _
      rw [Scan.result_run_append (by decide)]
      decide

/-- What is read as `delta`: behind a backslash the closing quote does not count, and the next
    quote is that of `finish`. -/
def readDelta (delta : Bytes) : Bytes :=
  if delta.getLast? = some backslash then escaped delta ++ [quote, ch ','] else escaped delta

theorem get_output_delta :
    sample_json_str_get (outputText index delta finish) (str "delta") = readDelta delta := by
  have hopen : clear (find_key (str "delta")) (str "\x7b") = true := by decide
  generalize hrest : str "finish\":" ++ ((if finish then str "true" else str "false") ++
    (str "," ++ (find_key (str "index") ++ (str ":" ++ (to_string index ++ str "\x7d"))))) = rest
  have hafter : after (find_key (str "delta")) (outputText index delta finish) =
      some (ch ':' :: quote :: (escaped delta ++ quote :: ch ',' :: quote :: rest)) := by
    rw [outputText, after_clear hopen, after_self_append, literal, ← hrest]
    simp only [List.append_assoc, List.cons_append, List.nil_append]
    rfl
  rw [sample_json_str_get_of_after hafter, readDelta]
  by_cases hlast : delta.getLast? = some backslash
  · rw [if_pos hlast]
    -- the closing quote is taken for an escaped one, so the next literal's quote closes
    have hclose : Scan.noClose quote (escaped delta ++ [quote, ch ',']) = true := by
      rw [Scan.noClose_append, noClose_escaped, (getLast?_escaped delta).mpr hlast]
      decide
    have hend : (escaped delta ++ [quote, ch ',']).getLast? ≠ some backslash := by
      rw [List.getLast?_append_of_ne_nil _ (by simp)]
      decide
    have hread := @result_member_string [] [] (escaped delta ++ [quote, ch ',']) rest rfl rfl
      hclose hend
    rw [List.append_assoc] at hread
    exact hread
  · rw [if_neg hlast]
    exact @result_member_string [] [] (escaped delta) _ rfl rfl (noClose_escaped delta quote)
      (mt (getLast?_escaped delta).mp hlast)

theorem length_le_readDelta : delta.length ≤ (readDelta delta).length := by
  have := length_le_escaped delta
  unfold readDelta
  split
  · simp only [List.length_append]
    omega
  · exact this

/-- The text is read back if and only if nothing in it is escaped. -/
theorem length_readDelta_iff : (readDelta delta).length = delta.length ↔ ∀ c ∈ delta, Plain c := by
  constructor
  · intro hlen
    -- one escape makes it longer, and nothing makes it shorter
    by_contra hplain
    push Not at hplain
    have hlonger := length_lt_escaped hplain
    unfold readDelta at hlen
    split at hlen
    · simp only [List.length_append] at hlen
      omega
    · omega
  · intro hplain
    have hlast : delta.getLast? ≠ some backslash :=
      fun hl => (hplain _ (List.mem_of_getLast? hl)).2.1 rfl
    rw [readDelta, if_neg hlast, escaped_of_plain hplain]

theorem readDelta_of_plain (h : ∀ c ∈ delta, Plain c) : readDelta delta = delta := by
  have hlast : delta.getLast? ≠ some backslash := fun hl => (h _ (List.mem_of_getLast? hl)).2.1 rfl
  rw [readDelta, if_neg hlast, escaped_of_plain h]

end Reading

/-- `decode_stream` on a chunk. -/
theorem decode_output {index : Int} (hindex : IsInt32 index) (delta : Bytes) (finish : Bool)
    (stream_buff : Map Int Bytes) :
    decode_stream (outputText index delta finish) stream_buff =
      if EndsIn (str "index") delta then (.error .invalid_argument, stream_buff)
      else
        let stream_buff := stream_buff.insert index (readDelta delta)
        if EndsIn (str "finish") delta ∨ finish = true then
          match joinStream stream_buff (Map.size stream_buff) 0 with
          | .error e => (.error e, stream_buff)
          | .ok out => (.ok (false, out), ∅)
        else (.ok (true, []), stream_buff) := by
  rw [decode_stream_eq, get_output_index, get_output_finish, get_output_delta]
  by_cases hhidden : EndsIn (str "index") delta
  · rw [if_pos hhidden, if_pos hhidden]
    rfl
  · rw [if_neg hhidden, if_neg hhidden, stoi_to_string hindex]
    by_cases hends : EndsIn (str "finish") delta
    · simp only [hends, if_true, true_or]
      rfl
    · cases finish with
      | true =>
          simp only [hends, if_false, if_true, or_true]
          rfl
      | false =>
          simp only [hends, if_false, false_or, Bool.false_eq_true]
          rfl

/-! ## Receiving a stream -/

/-- A receiver that applies `decode_stream` to one text after the other. -/
def receive (stream_buff : Map Int Bytes) : List Bytes → List (Except Exn (Bool × Bytes))
  | [] => []
  | data :: rest =>
      let (result, stream_buff) := decode_stream data stream_buff
      result :: receive stream_buff rest

/-- The chunks that belong to the calls of an inference, from position `i` on. -/
def numbered (i : Nat) : List (Bytes × Bool) → List Json
  | [] => []
  | (data, finish) :: calls => Llm.data_body i data finish :: numbered (i + 1) calls

theorem numbered_append (i : Nat) (calls calls' : List (Bytes × Bool)) :
    numbered i (calls ++ calls') = numbered i calls ++ numbered (i + calls.length) calls' := by
  induction calls generalizing i with
  | nil => rfl
  | cons c calls ih =>
      have hlen : i + 1 + calls.length = i + (c :: calls).length := by
        simp only [List.length_cons]
        omega
      rw [List.cons_append, numbered, numbered, ih, hlen, List.cons_append]

theorem length_numbered (i : Nat) (calls : List (Bytes × Bool)) :
    (numbered i calls).length = calls.length := by
  induction calls generalizing i with
  | nil => rfl
  | cons c calls ih => rw [numbered, List.length_cons, List.length_cons, ih]

/-- The calls of an inference that puts out the texts `ts`. -/
def outputCalls (ts : List Bytes) (last : Bytes) : List (Bytes × Bool) :=
  ts.map (·, false) ++ [(last, true)]

/-- A text that `decode_stream` reads back. -/
def Readable (t : Bytes) : Prop :=
  (¬ EndsIn (str "index") t ∧ ¬ EndsIn (str "finish") t) ∧ ∀ c ∈ t, Plain c

instance (t : Bytes) : Decidable (Readable t) := inferInstanceAs (Decidable (_ ∧ _))

theorem isInt32_natCast {i : Nat} (h : i < 2 ^ 31) : IsInt32 (i : Int) := by
  unfold IsInt32
  omega

/-- If no text hides a key, the receiver waits for the last chunk and then has all texts, as it
    has read them. -/
theorem receive_numbered {ts : List Bytes}
    (hkeys : ∀ t ∈ ts, ¬ EndsIn (str "index") t ∧ ¬ EndsIn (str "finish") t) (last : Bytes)
    {held : List Bytes} {stream_buff : Map Int Bytes}
    (hheld : Reassembly.Holds stream_buff held) (hlen : held.length + ts.length < 2 ^ 31) :
    receive stream_buff ((numbered held.length (outputCalls ts last)).map Json.dump) =
      List.replicate ts.length (.ok (true, [])) ++
        [.ok (false, (held ++ ts.map readDelta).flatten)] := by
  induction ts generalizing held stream_buff with
  | nil =>
      have hins : Reassembly.Holds (stream_buff.insert held.length []) (held ++ [[]]) :=
        hheld.insert []
      have hjoin := hins.join (by simp at hlen ⊢; omega) 0
      rw [Nat.sub_zero, ← hins.size, List.drop_zero] at hjoin
      have hindex : IsInt32 (held.length : Int) := isInt32_natCast (by simpa using hlen)
      have hdecode := decode_output hindex [] true stream_buff
      have hread : readDelta [] = [] := rfl
      rw [if_neg (by decide), hread] at hdecode
      simp only [hjoin, or_true, if_true] at hdecode
      simp only [outputCalls, List.map_nil, List.nil_append, numbered, List.map_cons,
        dump_data_body, if_true, receive, hdecode]
      simp
  | cons t ts ih =>
      obtain ⟨hindex, hfinish⟩ := hkeys t (by simp)
      have hins := hheld.insert (readDelta t)
      have hnum : IsInt32 (held.length : Int) :=
        isInt32_natCast (by simp only [List.length_cons] at hlen; omega)
      have hdecode := decode_output hnum t false stream_buff
      rw [if_neg hindex] at hdecode
      simp only [hfinish, Bool.false_eq_true, or_self, if_false] at hdecode
      -- the text is held now, and the next chunk has the next number
      have hrest := ih (fun t' ht' => hkeys t' (by simp [ht'])) hins
        (by simp only [List.length_append, List.length_cons, List.length_nil] at hlen ⊢; omega)
      simp only [List.length_append, List.length_singleton] at hrest
      rw [show outputCalls (t :: ts) last = (t, false) :: outputCalls ts last from rfl, numbered,
        List.map_cons, dump_data_body, receive]
      simp only [Bool.false_eq_true, if_false, hdecode]
      rw [hrest]
      simp [List.replicate_succ]

/-- Conversely, a text that hides a key ends the reception early. -/
theorem keys_of_receive {ts : List Bytes} {last : Bytes} {i : Nat} {stream_buff : Map Int Bytes}
    (hlen : i + ts.length < 2 ^ 31) {result : Except Exn (Bool × Bytes)}
    (h : receive stream_buff ((numbered i (outputCalls ts last)).map Json.dump) =
      List.replicate ts.length (.ok (true, [])) ++ [result]) :
    ∀ t ∈ ts, ¬ EndsIn (str "index") t ∧ ¬ EndsIn (str "finish") t := by
  induction ts generalizing i stream_buff with
  | nil => simp
  | cons t ts ih =>
      have hnum : IsInt32 (i : Int) :=
        isInt32_natCast (by simp only [List.length_cons] at hlen; omega)
      have hdecode := decode_output hnum t false stream_buff
      rw [show outputCalls (t :: ts) last = (t, false) :: outputCalls ts last from rfl, numbered,
        List.map_cons, dump_data_body, receive] at h
      simp only [Bool.false_eq_true, if_false, List.length_cons, List.replicate_succ,
        List.cons_append, List.cons.injEq] at h
      obtain ⟨hfirst, hrest⟩ := h
      have hindex : ¬ EndsIn (str "index") t := by
        intro hends
        rw [if_pos hends] at hdecode
        rw [hdecode] at hfirst
        cases hfirst
      have hfinish : ¬ EndsIn (str "finish") t := by
        intro hends
        rw [if_neg hindex] at hdecode
        simp only [hends, true_or, if_true] at hdecode
        rw [hdecode] at hfirst
        split at hfirst <;> cases hfirst
      have hlen' : i + 1 + ts.length < 2 ^ 31 := by
        simp only [List.length_cons] at hlen
        omega
      intro t' ht'
      rcases List.mem_cons.mp ht' with rfl | ht'
      · exact ⟨hindex, hfinish⟩
      · exact ih hlen' hrest t' ht'

/-- What is read is as long as what was written only if nothing was escaped. -/
theorem plain_of_flatten {ts : List Bytes} (h : (ts.map readDelta).flatten = ts.flatten) :
    ∀ t ∈ ts, ∀ c ∈ t, Plain c := by
  have hlen : (ts.map readDelta).flatten.length ≤ ts.flatten.length := by rw [h]
  clear h
  have hle : ∀ ts : List Bytes, ts.flatten.length ≤ (ts.map readDelta).flatten.length := by
    intro ts
    induction ts with
    | nil => simp
    | cons t ts ih =>
        have := length_le_readDelta t
        simp only [List.flatten_cons, List.map_cons, List.length_append]
        omega
  induction ts with
  | nil => simp
  | cons t ts ih =>
      have hhead := length_le_readDelta t
      have htail := hle ts
      simp only [List.flatten_cons, List.map_cons, List.length_append] at hlen
      intro t' ht'
      rcases List.mem_cons.mp ht' with rfl | ht'
      · exact (length_readDelta_iff t').mp (by omega)
      · exact ih (by omega) t' ht'

/-- The chunks of an inference, numbered from 0, are reassembled to its whole output if and only
    if every text of it can be read back. -/
theorem receive_whole_iff {ts : List Bytes} (hlen : ts.length < 2 ^ 31) (last : Bytes) :
    receive ∅ ((numbered 0 (outputCalls ts last)).map Json.dump) =
        List.replicate ts.length (.ok (true, [])) ++ [.ok (false, ts.flatten)] ↔
      ∀ t ∈ ts, Readable t := by
  have hreceive : (∀ t ∈ ts, ¬ EndsIn (str "index") t ∧ ¬ EndsIn (str "finish") t) →
      receive ∅ ((numbered 0 (outputCalls ts last)).map Json.dump) =
        List.replicate ts.length (.ok (true, [])) ++ [.ok (false, (ts.map readDelta).flatten)] :=
    fun hkeys => receive_numbered hkeys last .empty (by simpa using hlen)
  constructor
  · intro h
    have hkeys := keys_of_receive (by simpa using hlen) h
    rw [hreceive hkeys] at h
    have htext : (ts.map readDelta).flatten = ts.flatten := by simpa using h
    intro t ht
    exact ⟨hkeys t ht, plain_of_flatten htext t ht⟩
  · intro h
    -- texts without escapes are read as they were written
    have hsame : ts.map readDelta = ts := by
      conv_rhs => rw [← List.map_id ts]
      exact List.map_congr_left fun t ht => readDelta_of_plain t (h t ht).2
    rw [hreceive fun t ht => (h t ht).1, hsame]

end DoubleTurnouts
