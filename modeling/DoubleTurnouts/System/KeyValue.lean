/-
  DoubleTurnouts.System.KeyValue

  A unit's `sys_sql_set` and the manager's `rpc_sql_set`.  The writer prints
  the pair with nlohmann's serialiser, which escapes the same bytes in the
  same way as the sample client's; the server reads both members back with the
  textual scanner, which undoes no escape.

  `stored_key` and `stored_val` are what the server ends up with for any pair.
  Below 2 GiB the casts of the scanner change nothing (`Sized.rpc_sql_set_eq`).
-/
import Mathlib.Tactic
import DoubleTurnouts.InfraController.SizedReader
import DoubleTurnouts.Sample.Dumps
import DoubleTurnouts.UnitManager.RemoteServer

namespace DoubleTurnouts

open Text Decimal

/-! ## The writer -/

/-- `out_body.dump()` for the two members, in key order. -/
def sqlSetText (key val : Bytes) : Bytes :=
  str "\x7b" ++ (find_key (str "key") ++ (str ":" ++ (literal key ++ (str "," ++
    (find_key (str "val") ++ (str ":" ++ (literal val ++ str "\x7d")))))))

/-- `StackFlow::sys_sql_set`; `dump` throws on a string that is not UTF-8. -/
def StackFlow.sys_sql_set (key val : Bytes) : Except Exn RpcCall :=
  if Utf8.Valid key ∧ Utf8.Valid val then
    .ok ⟨str "sys", str "sql_set", sqlSetText key val⟩
  else .error .type_error

/-! ## The reader -/

/-- The text of a string member as state 100 copies it: up to the closing quote, unless a
    backslash in front hides it. -/
theorem result_literal {s : Bytes} (h : s.getLast? ≠ some backslash) (post : Bytes) :
    (Scan.init.run (str ":" ++ (literal s ++ post))).result = escaped s := by
  have hread := @result_member_string [] [] (escaped s) post rfl rfl (noClose_escaped s quote)
    (mt (getLast?_escaped s).mp h)
  simpa [literal, str] using hread

/-- A backslash at the end hides the closing quote, and the next one ends the value. -/
theorem result_literal_hidden {s : Bytes} (h : s.getLast? = some backslash) {mid : Bytes}
    (hmid : quote ∉ mid) (hne : mid ≠ []) (hlast : mid.getLast? ≠ some backslash) (post : Bytes) :
    (Scan.init.run (str ":" ++ (literal s ++ (mid ++ quote :: post)))).result
      = escaped s ++ quote :: mid := by
  have hclose : Scan.noClose quote (escaped s ++ quote :: mid) = true := by
    rw [Scan.noClose_append, noClose_escaped, (getLast?_escaped s).mpr h]
    simp [Scan.noClose, Scan.noClose_of_not_mem hmid]
  have hend : (escaped s ++ quote :: mid).getLast? ≠ some backslash := by
    rw [List.getLast?_append_of_ne_nil _ (by simp), List.getLast?_cons_of_ne_nil hne]
    exact hlast
  have hread := @result_member_string [] [] (escaped s ++ quote :: mid) post rfl rfl hclose hend
  simpa [literal, str] using hread

/-- If no quote follows, the scan runs out inside the string and returns nothing. -/
theorem result_literal_open {s : Bytes} (h : s.getLast? = some backslash) {mid : Bytes}
    (hmid : quote ∉ mid) :
    (Scan.init.run (str ":" ++ (literal s ++ mid))).result = [] := by
  have hclose : Scan.noClose quote (escaped s ++ quote :: mid) = true := by
    rw [Scan.noClose_append, noClose_escaped, (getLast?_escaped s).mpr h]
    simp [Scan.noClose, Scan.noClose_of_not_mem hmid]
  -- the scan ends in state 100 with the flag set, which wipes the value
  have hopen := @run_member_string_open [] [] rfl rfl (escaped s ++ quote :: mid)
  have hcopy := @Scan.run_noClose ⟨.s100, quote, 1, []⟩ rfl _ hclose
  have htext : str ":" ++ (literal s ++ mid)
      = [] ++ ch ':' :: ([] ++ quote :: (escaped s ++ quote :: mid)) := by
    simp [literal, str]
  rw [htext, hopen]
  show (Scan.run ⟨.s100, quote, 1, []⟩ (escaped s ++ quote :: mid)).result = []
  rw [hcopy]
  rfl

/-- The key the server stores under. -/
def stored_key (key : Bytes) : Bytes :=
  escaped key ++ if key.getLast? = some backslash then str "\"," else []

/-- The value it stores: nothing, if the key's own text is taken for the member's name or the
    closing quote is hidden. -/
def stored_val (key val : Bytes) : Bytes :=
  if EndsIn (str "val") key ∨ val.getLast? = some backslash then [] else escaped val

theorem get_key_sqlSetText (key val : Bytes) :
    sample_json_str_get (sqlSetText key val) (str "key") = stored_key key := by
  have hafter : after (find_key (str "key")) (sqlSetText key val) =
      some (str ":" ++ (literal key ++ (str "," ++ (find_key (str "val") ++
        (str ":" ++ (literal val ++ str "\x7d")))))) := by
    have hopen : clear (find_key (str "key")) (str "\x7b") = true := by decide
    rw [sqlSetText, after_clear hopen, after_self_append]
  rw [sample_json_str_get_of_after hafter, stored_key]
  by_cases hlast : key.getLast? = some backslash
  · rw [if_pos hlast]
    exact @result_literal_hidden _ hlast (str ",") (by decide) (by decide) (by decide) _
  · rw [if_neg hlast, List.append_nil]
    exact result_literal hlast _

theorem get_val_sqlSetText (key val : Bytes) :
    sample_json_str_get (sqlSetText key val) (str "val") = stored_val key val := by
  have hval : ∀ c ∈ str "val", Plain c := by decide
  have hhead : clear (find_key (str "val")) (str "\x7b\"key\":") = true := by decide
  have htext : sqlSetText key val = str "\x7b\"key\":" ++ (literal key ++ (str "," ++
      (find_key (str "val") ++ (str ":" ++ (literal val ++ str "\x7d"))))) := rfl
  have hafter := after_literal hval key (str "," ++ (find_key (str "val") ++
    (str ":" ++ (literal val ++ str "\x7d"))))
  rw [sample_json_str_get_eq_after, htext, after_clear hhead, hafter, stored_val]
  by_cases hends : EndsIn (str "val") key
  · -- the scan starts at the comma
    simp only [hends, if_true, true_or]
    exact Scan.result_comma _
  · have hcomma : clear (find_key (str "val")) (str "\",") = true := by decide
    have hmember : after (find_key (str "val")) (quote :: (str "," ++ (find_key (str "val") ++
        (str ":" ++ (literal val ++ str "\x7d"))))) =
        some (str ":" ++ (literal val ++ str "\x7d")) := by
      have hsplit : quote :: (str "," ++ (find_key (str "val") ++
          (str ":" ++ (literal val ++ str "\x7d")))) = str "\"," ++ (find_key (str "val") ++
          (str ":" ++ (literal val ++ str "\x7d"))) := rfl
      rw [hsplit, after_clear hcomma, after_self_append]
    rw [if_neg hends, hmember]
    by_cases hlast : val.getLast? = some backslash
    · simp only [hlast, or_true, if_true]
      exact result_literal_open hlast (by decide)
    · simp only [hends, hlast, or_self, if_false]
      exact result_literal hlast _

/-- `rpc_sql_set` with the casts of its reader, which may throw. -/
def Sized.rpc_sql_set (m : Manager) (raw : Bytes) : Except Exn (Bytes × Manager) := do
  let key ← Sized.sample_json_str_get raw (str "key")
  let val ← Sized.sample_json_str_get raw (str "val")
  if key = [] then return (str "False", m) else return (str "Success", sys_sql_set m key val)

theorem Sized.rpc_sql_set_eq {raw : Bytes} (h : raw.length < 2 ^ 31) (m : Manager) :
    Sized.rpc_sql_set m raw = .ok (DoubleTurnouts.rpc_sql_set m raw) := by
  simp only [Sized.rpc_sql_set, DoubleTurnouts.rpc_sql_set, Sized.sample_json_str_get_eq h,
    Bind.bind, Except.bind]
  split <;> rfl

/-! ## Read your writes -/

/-- The pair has been written and served: the key reads as the value, every other key as
    before. -/
def ReadsItsWrite (m : Manager) (key val : Bytes) : Prop :=
  ∃ call, StackFlow.sys_sql_set key val = .ok call ∧
    (rpc_sql_select (rpc_sql_set m call.param).2 key).1 = val ∧
    ∀ key', key' ≠ key →
      (rpc_sql_select (rpc_sql_set m call.param).2 key').1 = (rpc_sql_select m key').1

theorem sql_select_after_set (m : Manager) (key val key' : Bytes) :
    sys_sql_select (sys_sql_set m key val) key' =
      if key' = key then val else sys_sql_select m key' := by
  by_cases hkey : key' = key
  · subst hkey
    simp [sys_sql_select, sys_sql_set, Any.string?]
  · simp [sys_sql_select, sys_sql_set, hkey, AList.lookup_insert_ne hkey]

/-- A pair written under one key is seen to have been written under another only if the store
    answered as it would have before. -/
theorem seen_written_iff (m : Manager) (written value key val : Bytes) :
    (sys_sql_select (sys_sql_set m written value) key = val ∧ ∀ key', key' ≠ key →
        sys_sql_select (sys_sql_set m written value) key' = sys_sql_select m key') ↔
      written = key ∧ value = val ∨
        written ≠ key ∧ sys_sql_select m key = val ∧ sys_sql_select m written = value := by
  simp only [sql_select_after_set]
  by_cases hkey : written = key
  · subst hkey
    constructor
    · rintro ⟨hread, -⟩
      rw [if_pos rfl] at hread
      exact .inl ⟨rfl, hread⟩
    · rintro (⟨-, hread⟩ | ⟨hne, -⟩)
      · refine ⟨(if_pos rfl).trans hread, ?_⟩
        intro key' hkey'
        exact if_neg hkey'
      · exact absurd rfl hne
  · rw [if_neg (Ne.symm hkey)]
    constructor
    · rintro ⟨hold, hothers⟩
      have hwritten := hothers written hkey
      rw [if_pos rfl] at hwritten
      exact .inr ⟨hkey, hold, hwritten.symm⟩
    · rintro (⟨heq, -⟩ | ⟨-, hold, hsame⟩)
      · exact absurd heq hkey
      · refine ⟨hold, ?_⟩
        intro key' _
        split
        · rename_i hk
          rw [hk, hsame]
        · rfl

theorem stored_key_ne_nil {key : Bytes} (h : key ≠ []) : stored_key key ≠ [] := by
  have hlen := length_le_escaped key
  have hpos := List.length_pos_of_ne_nil h
  intro hnil
  have hzero := congrArg List.length hnil
  rw [stored_key, List.length_append, List.length_nil] at hzero
  omega

/-- Serving the write is storing what was read. -/
theorem rpc_sql_set_sqlSetText (m : Manager) {key : Bytes} (h : key ≠ []) (val : Bytes) :
    (rpc_sql_set m (sqlSetText key val)).2 =
      sys_sql_set m (stored_key key) (stored_val key val) := by
  simp only [rpc_sql_set, get_key_sqlSetText, get_val_sqlSetText]
  rw [if_neg (stored_key_ne_nil h)]

/-- The server stores under the key itself exactly if nothing in it is escaped. -/
theorem stored_key_eq_iff (key : Bytes) : stored_key key = key ↔ ∀ c ∈ key, Plain c := by
  constructor
  · intro heq
    rw [← escaped_eq_self_iff]
    have hlen := length_le_escaped key
    have hsum := congrArg List.length heq
    rw [stored_key, List.length_append] at hsum
    -- escaping never shortens, so nothing can have been appended
    have htail : (if key.getLast? = some backslash then str "\"," else []) = [] := by
      apply List.eq_nil_of_length_eq_zero
      omega
    rw [stored_key, htail, List.append_nil] at heq
    exact heq
  · intro hplain
    have hlast : key.getLast? ≠ some backslash :=
      fun hl => (hplain _ (List.mem_of_getLast? hl)).2.1 rfl
    rw [stored_key, if_neg hlast, List.append_nil, escaped_of_plain hplain]

/-- Under a plain key the value is stored as it is exactly if nothing in it is escaped, and it
    is empty where the key is the other member's name. -/
theorem stored_val_eq_iff {key : Bytes} (hkey : ∀ c ∈ key, Plain c) (val : Bytes) :
    stored_val key val = val ↔ (∀ c ∈ val, Plain c) ∧ (key = str "val" → val = []) := by
  -- a plain key has no quote, so it hides the member only by being its name
  have hends : EndsIn (str "val") key ↔ key = str "val" := by
    constructor
    · rintro (heq | hsuffix)
      · exact heq
      · exact absurd rfl (hkey quote (hsuffix.subset (by simp))).1
    · exact Or.inl
  simp only [stored_val, hends]
  by_cases hval : key = str "val"
  · simp only [hval, true_or, if_true, forall_const]
    constructor
    · rintro rfl
      exact ⟨by simp, rfl⟩
    · rintro ⟨-, rfl⟩
      rfl
  · simp only [hval, false_or, false_implies, and_true]
    by_cases hlast : val.getLast? = some backslash
    · have hmem := List.mem_of_getLast? hlast
      rw [if_pos hlast]
      constructor
      · rintro rfl
        cases hmem
      · intro hplain
        exact absurd rfl (hplain _ hmem).2.1
    · rw [if_neg hlast, escaped_eq_self_iff]

/-- For every store, every non-empty key and every value: the write is read back and no other
    key changes, exactly if nothing in key and value is escaped and the value is empty under
    the key `val`; or if the key is escaped and the store answers already what the write
    would have it answer.  In a request below 2 GiB the server's casts make no difference. -/
theorem reads_its_write_iff (m : Manager) (key val : Bytes) (hkey : Utf8.Valid key)
    (hval : Utf8.Valid val) (hne : key ≠ []) :
    (ReadsItsWrite m key val ↔
      ((∀ c ∈ key, Plain c) ∧ (∀ c ∈ val, Plain c) ∧ (key = str "val" → val = [])) ∨
      ((∃ c ∈ key, ¬ Plain c) ∧ sys_sql_select m key = val ∧
        sys_sql_select m (stored_key key) = stored_val key val)) ∧
    ((sqlSetText key val).length < 2 ^ 31 →
      Sized.rpc_sql_set m (sqlSetText key val) = .ok (rpc_sql_set m (sqlSetText key val))) := by
  refine ⟨?_, fun hlen => Sized.rpc_sql_set_eq hlen m⟩
  have hcall : StackFlow.sys_sql_set key val
      = .ok ⟨str "sys", str "sql_set", sqlSetText key val⟩ := if_pos ⟨hkey, hval⟩
  have hreads : ReadsItsWrite m key val ↔
      sys_sql_select (sys_sql_set m (stored_key key) (stored_val key val)) key = val ∧
        ∀ key', key' ≠ key →
          sys_sql_select (sys_sql_set m (stored_key key) (stored_val key val)) key'
            = sys_sql_select m key' := by
    unfold ReadsItsWrite
    simp only [hcall, Except.ok.injEq, exists_eq_left', rpc_sql_select,
      rpc_sql_set_sqlSetText m hne]
  have hescaped : stored_key key ≠ key ↔ ∃ c ∈ key, ¬ Plain c := by
    rw [ne_eq, stored_key_eq_iff]
    push Not
    rfl
  rw [hreads, seen_written_iff, hescaped]
  refine or_congr_left ?_
  -- how the value is stored is known under a plain key
  rw [stored_key_eq_iff]
  exact and_congr_right fun hplain => stored_val_eq_iff hplain val

/-- A plain pair. -/
theorem reads_its_write_iff_plain :
    ReadsItsWrite (Manager.initial 5010 5555) (str "name") (str "llm.0") ∧
      Sized.rpc_sql_set (Manager.initial 5010 5555) (sqlSetText (str "name") (str "llm.0")) =
        .ok (rpc_sql_set (Manager.initial 5010 5555) (sqlSetText (str "name") (str "llm.0"))) := by
  obtain ⟨hiff, hsized⟩ := reads_its_write_iff (Manager.initial 5010 5555) (str "name")
    (str "llm.0") (by decide) (by decide) (by decide)
  exact ⟨hiff.mpr (.inl (by decide)), hsized (by decide)⟩

/-- A value with a quote comes back with a backslash in front of it. -/
theorem quoted_value_read_escaped :
    Utf8.Valid (str "name") ∧ Utf8.Valid (str "a\"b") ∧
      ¬ ReadsItsWrite (Manager.initial 5010 5555) (str "name") (str "a\"b") := by
  refine ⟨by decide, by decide, ?_⟩
  rintro ⟨call, hcall, hread, -⟩
  obtain rfl : ⟨str "sys", str "sql_set", sqlSetText (str "name") (str "a\"b")⟩ = call :=
    Except.ok.inj (Eq.trans (if_pos (by decide)).symm hcall)
  exact absurd hread (by decide +kernel)

end DoubleTurnouts
