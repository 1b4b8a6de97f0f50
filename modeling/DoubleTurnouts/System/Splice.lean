/-
  DoubleTurnouts.System.Splice

  The text an inference request is published as: `{"zmq_com":"<url>",` and the
  request without its first byte, written piece by piece into a buffer whose
  size is computed beforehand.  The size is right for every request
  (`inference_raw_data_eq`); the array the URL is rendered to has 128 bytes.

  The node searches the published text for quoted keys.  The search passes
  over what was put in front unless the URL itself is the key it looks for,
  and finds the inserted `zmq_com` before any other (`splice_transparent_iff`).
-/
import Mathlib.Tactic
import DoubleTurnouts.System.Parsers

namespace DoubleTurnouts

open Text Decimal JsonText

/-! ## Writing the message -/

/-- `memcpy(buf + post, data, data.length)`; `none` if it leaves the buffer. -/
def memcpy (buf : Bytes) (post : Nat) (data : Bytes) : Option Bytes :=
  if post + data.length ≤ buf.length then
    some (buf.take post ++ (data ++ buf.drop (post + data.length)))
  else none

/-- `sprintf(buf + post, "%s", text)`, with the zero at its end. -/
def sprintfAt (buf : Bytes) (post : Nat) (text : Bytes) : Option Bytes :=
  memcpy buf post (text ++ [0])

/-- The C string at the start of an array. -/
def c_str (buf : Bytes) : Bytes := buf.takeWhile (· ≠ 0)

/-- The `inference` branch of `unit_action_match` up to the push.  `data()` of a string has one
    byte more than its size; `none` stands for a write outside of an array. -/
def inference_raw_data (zmq_c_format : Bytes) (com_id : Int) (json_str : Bytes) :
    Option Bytes := do
  -- `char zmq_push_url[128]`, and `post` is what `sprintf` returns
  let zmq_push_url ← sprintfAt (List.replicate 128 0) 0 (sprintf zmq_c_format com_id)
  let size := (sprintf zmq_c_format com_id).length + json_str.length + 13
  let raw := List.replicate (size + 1) 0
  let raw ← sprintfAt raw 0 (str "\x7b\"zmq_com\":\"")
  let post := (str "\x7b\"zmq_com\":\"").length
  let raw ← sprintfAt raw post (c_str zmq_push_url)
  let post := post + (c_str zmq_push_url).length
  let raw ← sprintfAt raw post (str "\",")
  let post := post + (str "\",").length
  -- the request from its second byte on
  let raw ← memcpy raw post json_str.tail
  return raw.take size

/-! ## What is written -/

/-- The first `post` bytes of the buffer are `done`. -/
def Filled (buf : Bytes) (size post : Nat) (done : Bytes) : Prop :=
  buf.length = size ∧ done.length = post ∧ done <+: buf

theorem Filled.memcpy {buf : Bytes} {size post : Nat} {done : Bytes} (h : Filled buf size post done)
    (data : Bytes) (hfits : post + data.length ≤ size) :
    ∃ buf', DoubleTurnouts.memcpy buf post data = some buf' ∧
      Filled buf' size (post + data.length) (done ++ data) := by
  obtain ⟨hsize, hpost, ⟨rest, rfl⟩⟩ := h
  refine ⟨_, if_pos (by omega), ?_, ?_, ?_⟩
  · simp only [List.length_append, List.length_take, List.length_drop] at hsize ⊢
    omega
  · rw [List.length_append, hpost]
  · rw [← hpost, List.take_left, ← List.append_assoc]
    exact List.prefix_append _ _

/-- The zero behind a text is overwritten by what comes next. -/
theorem Filled.sprintfAt {buf : Bytes} {size post : Nat} {done : Bytes}
    (h : Filled buf size post done) (text : Bytes) (hfits : post + text.length < size) :
    ∃ buf', DoubleTurnouts.sprintfAt buf post text = some buf' ∧
      Filled buf' size (post + text.length) (done ++ text) := by
  have hfits' : post + (text ++ [0]).length ≤ size := by
    rw [List.length_append, List.length_singleton]
    omega
  obtain ⟨buf', hbuf, hsize, -, hpre⟩ := h.memcpy (text ++ [0]) hfits'
  refine ⟨buf', hbuf, hsize, ?_, ?_⟩
  · rw [List.length_append, h.2.1]
  · rw [← List.append_assoc] at hpre
    exact (List.prefix_append _ _).trans hpre

theorem Filled.take {buf : Bytes} {size post : Nat} {done : Bytes} (h : Filled buf size post done) :
    buf.take post = done := by
  obtain ⟨-, hpost, ⟨rest, rfl⟩⟩ := h
  rw [← hpost, List.take_left]

/-- A rendered format has no zero byte. -/
theorem zero_not_mem_sprintf (fmt : Bytes) (n : Int) : 0 ∉ sprintf fmt n := by
  fun_induction sprintf fmt n with
  | case1 => simp
  | case2 => simp
  | case3 f n hf => simpa using Ne.symm hf
  | case4 => simp
  | case5 f g fmt n hf hconv ih =>
      rw [List.mem_append, not_or]
      exact ⟨not_mem_to_string n (by decide) (by decide), ih⟩
  | case6 f g fmt n hf hconv ih =>
      rw [List.mem_cons, not_or]
      exact ⟨Ne.symm hf, ih⟩

theorem c_str_of_prefix {text buf : Bytes} (h : text ++ [0] <+: buf) (hzero : 0 ∉ text) :
    c_str buf = text := by
  obtain ⟨rest, rfl⟩ := h
  have hall : ∀ c ∈ text, (decide (c ≠ 0)) = true :=
    fun c hc => decide_eq_true fun hc0 => hzero (hc0 ▸ hc)
  rw [c_str, List.append_assoc, List.takeWhile_append_of_pos hall]
  simp

/-- The array of 128 bytes is left behind, or the buffer is filled to its end with the spliced
    text. -/
theorem inference_raw_data_eq (zmq_c_format : Bytes) (com_id : Int) {json_str : Bytes}
    (hne : json_str ≠ []) :
    inference_raw_data zmq_c_format com_id json_str =
      if (sprintf zmq_c_format com_id).length ≤ 127 then
        some (spliced (sprintf zmq_c_format com_id) json_str)
      else none := by
  generalize hurl : sprintf zmq_c_format com_id = url
  have hzero : 0 ∉ url := hurl ▸ zero_not_mem_sprintf zmq_c_format com_id
  have hrest : json_str.tail.length + 1 = json_str.length := by
    rw [List.length_tail]
    have := List.length_pos_of_ne_nil hne
    omega
  unfold inference_raw_data
  rw [hurl]
  by_cases hlen : url.length ≤ 127
  · rw [if_pos hlen]
    have harray : Filled (List.replicate 128 0) 128 0 [] := ⟨by simp, rfl, List.nil_prefix⟩
    obtain ⟨zmq_push_url, hpush, -, -, hpre⟩ :=
      harray.memcpy (url ++ [0]) (by simpa using Nat.lt_succ_of_le hlen)
    have hpush' : sprintfAt (List.replicate 128 0) 0 url = some zmq_push_url := hpush
    have hstr : c_str zmq_push_url = url := c_str_of_prefix hpre hzero
    -- four writes, each of them where the one before has ended
    let size := url.length + json_str.length + 13
    have hhead : (str "\x7b\"zmq_com\":\"").length = 12 := rfl
    have hsep : (str "\",").length = 2 := rfl
    have hbuf : Filled (List.replicate (size + 1) 0) (size + 1) 0 [] :=
      ⟨by simp, rfl, List.nil_prefix⟩
    obtain ⟨raw1, hraw1, hfill1⟩ := hbuf.sprintfAt (str "\x7b\"zmq_com\":\"") (by omega)
    rw [Nat.zero_add, List.nil_append] at hfill1
    obtain ⟨raw2, hraw2, hfill2⟩ := hfill1.sprintfAt url (by omega)
    obtain ⟨raw3, hraw3, hfill3⟩ := hfill2.sprintfAt (str "\",") (by omega)
    obtain ⟨raw4, hraw4, hfill4⟩ := hfill3.memcpy json_str.tail (by omega)
    have hall := hfill4.take
    have hsize : (str "\x7b\"zmq_com\":\"").length + url.length + (str "\",").length +
        json_str.tail.length = url.length + json_str.length + 13 := by
      omega
    rw [hsize] at hall
    simp only [hpush', hstr, Option.bind_eq_bind, Option.bind_some]
    simp only [show url.length + json_str.length + 13 = size from rfl] at hall ⊢
    simp only [hraw1, hraw2, hraw3, hraw4, Option.bind_some, hall, spliced, List.append_assoc]
    rfl
  · rw [if_neg hlen]
    have hleaves : sprintfAt (List.replicate 128 0) 0 url = none := by
      unfold sprintfAt memcpy
      rw [if_neg]
      simp
      omega
    rw [hleaves]
    rfl

/-! ## Searching the message -/

section Spliced

variable {url json_str : Bytes} (hquote : quote ∉ url) (hback : backslash ∉ url)

include hquote hback

/-- The inserted member is the first that the search finds. -/
theorem get_zmq_com_spliced (json_str : Bytes) :
    sample_json_str_get (spliced url json_str) (str "zmq_com") = url := by
  have hopen : clear (find_key (str "zmq_com")) (str "\x7b") = true := by decide
  have hafter : after (find_key (str "zmq_com")) (spliced url json_str) =
      some (ch ':' :: quote :: (url ++ quote :: (ch ',' :: json_str.tail))) := by
    rw [show spliced url json_str = str "\x7b" ++ (find_key (str "zmq_com") ++
      (ch ':' :: quote :: (url ++ quote :: (ch ',' :: json_str.tail)))) from rfl,
      after_clear hopen, after_self_append]
  have hlast : url.getLast? ≠ some backslash := fun h => hback (List.mem_of_getLast? h)
  rw [sample_json_str_get_of_after hafter]
  exact @result_member_string [] [] url _ rfl rfl (Scan.noClose_of_not_mem hquote quote) hlast

/-- Every other key is found where it stands in the request, unless it is the URL. -/
theorem get_spliced {k : Bytes} (hk : IsWordKey k) (hne : k ≠ str "zmq_com")
    (hstart : json_str.head? ≠ some quote) :
    sample_json_str_get (spliced url json_str) k =
      if url = k then [] else sample_json_str_get json_str k := by
  have hbody : isBody (str "zmq_com") = true := by decide
  have hcolon : isGap (str ":") = true := by decide
  have hcomma : isGap (str ",") = true := by decide
  have hname : quote ∉ str "zmq_com" := by decide
  -- the search passes the name and the URL, and stops at the URL if that is the key
  have hinserted : after (find_key k) (spliced url json_str) =
      if url = k then some (ch ',' :: json_str.tail) else after (find_key k) json_str.tail := by
    rw [show spliced url json_str = str "\x7b" ++ (quote :: (str "zmq_com" ++ quote :: (str ":" ++
      (quote :: (url ++ quote :: (str "," ++ json_str.tail)))))) from rfl, find_key,
      after_skip _ _ (by decide), ← find_key,
      after_part hk.isKey.plain hk.1 hk.isKey.word hbody hcolon,
      if_neg (mt (endsIn_iff hname).mp hne.symm),
      after_part hk.isKey.plain hk.1 hk.isKey.word (isBody_of_not_mem hquote hback) hcomma]
    simp only [endsIn_iff hquote]
    rfl
  -- the byte that is dropped is no quote, so no key starts there
  have hdropped : after (find_key k) json_str = after (find_key k) json_str.tail := by
    cases json_str with
    | nil => rfl
    | cons c rest =>
        have hc : quote ∉ [c] := by
          rw [List.mem_singleton]
          exact fun h => hstart (by rw [h]; rfl)
        exact after_skip [c] rest hc
  rw [sample_json_str_get_eq_after, hinserted, sample_json_str_get_eq_after, hdropped]
  by_cases hurl : url = k
  · rw [if_pos hurl, if_pos hurl]
    exact Scan.result_comma _
  · rw [if_neg hurl, if_neg hurl]

end Spliced

/-! ## Transparency -/

/-- simdjson finds members in objects only, so a text it takes does not begin with a quote. -/
def Simdjson.TakesObjects (sj : Simdjson) : Prop :=
  ∀ json_str r, sj.request json_str = some r → json_str.head? ≠ some quote

/-- The message is as long as was computed, carries the manager's URL, and every other key
    reads as it does in the request. -/
def Transparent (m : Manager) (com_id : Int) (json_str : Bytes) : Prop :=
  ∃ raw, inference_raw_data m.zmq_c_format com_id json_str = some raw ∧
    raw.length = (sprintf m.zmq_c_format com_id).length + json_str.length + 13 ∧
    sample_json_str_get raw (str "zmq_com") = sprintf m.zmq_c_format com_id ∧
    ∀ k, IsWordKey k → k ≠ str "zmq_com" →
      sample_json_str_get raw k = sample_json_str_get json_str k

/-- For every accepted inference request and every URL without quotes and backslashes: the
    splice is transparent if and only if the URL fits its array and is not itself a key the
    request has a value for. -/
theorem splice_transparent_iff (env : ManagerEnv) (hsj : env.sj.TakesObjects) (m : Manager)
    (com_id : Int) (json_str : Bytes) (r : Request) (hr : env.sj.request json_str = some r)
    (_haction : r.action = str "inference") (hquote : quote ∉ sprintf m.zmq_c_format com_id)
    (hback : backslash ∉ sprintf m.zmq_c_format com_id) :
    Transparent m com_id json_str ↔
      (sprintf m.zmq_c_format com_id).length ≤ 127 ∧
        (IsWordKey (sprintf m.zmq_c_format com_id) →
          sprintf m.zmq_c_format com_id ≠ str "zmq_com" →
          sample_json_str_get json_str (sprintf m.zmq_c_format com_id) = []) := by
  have hne : json_str ≠ [] := by
    rintro rfl
    have hparse := Simdjson.iterate_isSome_of_request hr
    rw [env.sj.iterate_nil] at hparse
    cases hparse
  have hstart := hsj json_str r hr
  have hread : ∀ k, IsWordKey k → k ≠ str "zmq_com" → _ :=
    fun k hk hzmq => get_spliced hquote hback hk hzmq hstart
  unfold Transparent
  rw [inference_raw_data_eq m.zmq_c_format com_id hne]
  generalize sprintf m.zmq_c_format com_id = url at *
  constructor
  · rintro ⟨raw, hraw, -, -, hkeys⟩
    split at hraw
    · next hlen =>
        obtain rfl := Option.some.inj hraw
        refine ⟨hlen, fun hword hzmq => ?_⟩
        -- behind the URL there is a comma, so nothing is read in the message
        rw [← hkeys url hword hzmq, hread url hword hzmq, if_pos rfl]
    · cases hraw
  · rintro ⟨hlen, hurl⟩
    refine ⟨spliced url json_str, if_pos hlen, ?_, get_zmq_com_spliced hquote hback json_str, ?_⟩
    · have hpos := List.length_pos_of_ne_nil hne
      simp only [spliced, List.length_append, List.length_tail]
      rw [show (str "\x7b\"zmq_com\":\"").length = 12 from rfl,
        show (str "\",").length = 2 from rfl]
      omega
    · intro k hk hzmq
      rw [hread k hk hzmq]
      split
      · next heq =>
          subst heq
          exact (hurl hk hzmq).symm
      · rfl

theorem Simdjson.takesObjects_table {text : Bytes} {members : List (Bytes × Bytes)}
    (hne : text ≠ []) (hvalid : ∀ p ∈ members, Utf8.Valid p.2) (h : text.head? ≠ some quote) :
    (Simdjson.table text members hne hvalid).TakesObjects := by
  intro json_str r hr
  have hparse := Simdjson.iterate_isSome_of_request hr
  have htext : json_str = text := by
    by_contra hother
    rw [show (Simdjson.table text members hne hvalid).iterate json_str = none from
      if_neg hother] at hparse
    cases hparse
  rw [htext]
  exact h

/-- The shipped formats, and a request to unit `llm.0`. -/
theorem splice_transparent_iff_shipped :
    sprintf (Manager.initial 8000 8010).zmq_c_format 8000 = str "ipc:///tmp/llm/8000.sock" ∧
      Transparent (.initial 8000 8010) 8000 inferText := by
  have hurl : sprintf (Manager.initial 8000 8010).zmq_c_format 8000 =
      str "ipc:///tmp/llm/8000.sock" := by
    decide +kernel
  have hobjects : (inferEnv .info).sj.TakesObjects :=
    Simdjson.takesObjects_table (by decide) (by decide) (by decide)
  refine ⟨hurl, (splice_transparent_iff (inferEnv .info) hobjects _ 8000 inferText inferRequest
    (by decide +kernel) rfl ?_ ?_).mpr ?_⟩
  all_goals
    rw [hurl]
    decide

/-- A manager that reaches its clients over TCP, at a host with a name of 120 letters. -/
def farClients : Manager :=
  { Manager.initial 8000 8010 with
    zmq_c_format := str "tcp://" ++ (List.replicate 120 (ch 'a') ++ str ":%i") }

/-- The URL is longer than the array it is rendered to. -/
theorem long_url_overruns_array :
    (inferEnv .info).sj.TakesObjects ∧ (inferEnv .info).sj.request inferText = some inferRequest ∧
      inferRequest.action = str "inference" ∧
      (quote ∉ sprintf farClients.zmq_c_format 8000 ∧
        backslash ∉ sprintf farClients.zmq_c_format 8000) ∧
      inference_raw_data farClients.zmq_c_format 8000 inferText = none ∧
      ¬ Transparent farClients 8000 inferText := by
  have hnone : inference_raw_data farClients.zmq_c_format 8000 inferText = none := by
    decide +kernel
  refine ⟨Simdjson.takesObjects_table (by decide) (by decide) (by decide), by decide +kernel, rfl,
    by decide +kernel, hnone, ?_⟩
  rintro ⟨raw, hraw, -⟩
  rw [hnone] at hraw
  cases hraw

end DoubleTurnouts
