/-
  DoubleTurnouts.UnitManager.Dispatch

  What the manager does with one client text: `unit_action_match` reads the
  three routing fields, publishes inference requests on the unit's PUB socket
  (`zmq_bus_publisher_push`) and forwards everything else to the unit's RPC
  server (`remote_call`, which parses the text a second time).

  simdjson and the RPC exchange are outside the repository and are parameters
  here.  An on-demand document is read through a cursor, so a field lookup
  takes a document and returns one.
-/
import Mathlib.Tactic
import DoubleTurnouts.Lib.Utf8
import DoubleTurnouts.UnitManager.RemoteServer

namespace DoubleTurnouts

open Text Decimal

/-! ## Parameters -/

/-- simdjson's on-demand front end.  `get_string doc key` is `doc[key].get_string()` with
    the document as the lookup leaves it.  An empty text has no document, and strings come
    back as well-formed UTF-8. -/
structure Simdjson where
  Doc : Type
  iterate : Bytes → Option Doc
  get_string : Doc → Bytes → Option Bytes × Doc
  iterate_nil : iterate [] = none
  get_string_valid : ∀ {doc key s}, (get_string doc key).1 = some s → Utf8.Valid s

/-- simdjson on one text whose top-level strings are listed: a lookup finds the member
    wherever the cursor stands, and every other text is malformed. -/
def Simdjson.table (text : Bytes) (members : List (Bytes × Bytes)) (hne : text ≠ [])
    (hvalid : ∀ p ∈ members, Utf8.Valid p.2) : Simdjson where
  Doc := Unit
  iterate s := if s = text then some () else none
  get_string _ key := ((members.find? (·.1 = key)).map Prod.snd, ())
  iterate_nil := if_neg (Ne.symm hne)
  get_string_valid := by
    intro _ key s hs
    obtain ⟨p, hp, rfl⟩ := Option.map_eq_some_iff.mp hs
    exact hvalid p (List.mem_of_find?_eq_some hp)

/-- `SAMPLE_LOG_LEVEL_E`. -/
inductive LogLevel
  | min
  | emergency
  | alert
  | critical
  | error
  | warn
  | notice
  | info
  | debug
  | max
  deriving DecidableEq, Repr

def LogLevel.toInt : LogLevel → Int
  | .min => -1
  | .emergency => 0
  | .alert => 1
  | .critical => 2
  | .error => 3
  | .warn => 4
  | .notice => 5
  | .info => 6
  | .debug => 7
  | .max => 8

/-- The condition of the `if` that `ALOGW` expands to. -/
def LogLevel.warns (log_level : LogLevel) : Prop := LogLevel.warn.toInt ≤ log_level.toInt

instance (log_level : LogLevel) : Decidable log_level.warns :=
  inferInstanceAs (Decidable (_ ≤ _))

/-- What the dispatcher runs against. -/
structure ManagerEnv where
  sj : Simdjson
  call_rpc_action : RpcCall → Int
  log_level : LogLevel

/-! ## Effects -/

/-- A parsed `error_msg` literal. -/
structure ErrorMsg where
  code : Int
  message : Bytes
  deriving DecidableEq, Repr

/-- The body `usr_print_error` sends, less its time stamp. -/
structure UsrError where
  request_id : Bytes
  work_id : Bytes
  error : ErrorMsg
  object : Bytes
  data : Bytes
  deriving DecidableEq, Repr

/-- What handling a request puts on the wire: messages on PUB sockets and error replies,
    each with its URL, and RPC calls. -/
structure Wire where
  published : List (Bytes × Bytes)
  replies : List (Bytes × UsrError)
  calls : List RpcCall
  deriving DecidableEq, Repr

def Wire.empty : Wire where
  published := []
  replies := []
  calls := []

abbrev Dispatch := EStateM Exn Wire

/-- `unit_data::send_msg`. -/
def UnitData.send_msg (unit_p : UnitData) (json_str : Bytes) : Dispatch Unit :=
  modify fun w => { w with published := w.published ++ [(unit_p.inference_url, json_str)] }

/-- `zmq_com_send`. -/
def zmq_com_send (m : Manager) (com_id : Int) (out : UsrError) : Dispatch Unit :=
  modify fun w => { w with replies := w.replies ++ [(sprintf m.zmq_c_format com_id, out)] }

/-- `usr_print_error`.  `dump` throws on a string that is not UTF-8; the two `"None"` and
    the message literal are ASCII. -/
def usr_print_error (m : Manager) (request_id work_id : Bytes) (error_msg : ErrorMsg)
    (zmq_out : Int) : Dispatch Unit := do
  if ¬ (Utf8.Valid request_id ∧ Utf8.Valid work_id) then throw .type_error
  zmq_com_send m zmq_out
    { request_id := request_id, work_id := work_id, error := error_msg,
      object := str "None", data := str "None" }

def json_format_error : ErrorMsg := ⟨-2, str "json format error"⟩

def inference_push_false : ErrorMsg := ⟨-4, str "inference data push false"⟩

def unit_call_false : ErrorMsg := ⟨-9, str "unit call false"⟩

/-! ## Dispatch -/

/-- `zmq_bus_publisher_push`.  The second `ALOGW` is itself an `if` without braces, so the
    `else` that follows it belongs to the log level and not to `unit_p`. -/
def zmq_bus_publisher_push (env : ManagerEnv) (m : Manager) (work_id json_str : Bytes) :
    Dispatch Int := do
  if work_id = [] then return -1
  match m.key_sql.unitAt work_id with
  | some unit_p => unit_p.send_msg json_str
  | none => pure ()
  -- reached with and without a unit: unit_p decides about the message only
  if env.log_level.warns then return 0 else return -1

/-- `remote_call`.  Its own parse starts from a fresh document; a field that cannot be read
    leaves its string empty, and the document of a text that does not parse has no
    iterator. -/
def remote_call (env : ManagerEnv) (m : Manager) (com_id : Int) (json_str : Bytes) :
    Dispatch Int := do
  match env.sj.iterate json_str with
  | none => throw .null_dereference
  | some doc =>
      let (work_id?, doc) := env.sj.get_string doc (str "work_id")
      let work_id := work_id?.getD []
      -- substr(0, find(".")), where npos takes all of it
      let work_unit := work_id.take ((find (str ".") work_id).getD work_id.length)
      let (action?, _) := env.sj.get_string doc (str "action")
      let action := action?.getD []
      -- the client's empty work id is not replaced by sys here
      if work_id = [] ∨ action = [] then throw .runtime_error
      let call : RpcCall :=
        ⟨work_unit, action, set_param (sprintf m.zmq_c_format com_id) json_str⟩
      modify fun w => { w with calls := w.calls ++ [call] }
      return env.call_rpc_action call

/-- The splitting loop of `unit_action_match`, with `fragment` so far. -/
def work_id_fragments : Bytes → Bytes → List Bytes
  -- no fragment behind a trailing dot
  | [], fragment => if fragment.length ≠ 0 then [fragment] else []
  | c :: s, fragment =>
      if c ≠ ch '.' then work_id_fragments s (fragment ++ [c])
      else fragment :: work_id_fragments s []

/-- `{"zmq_com":"<url>",` followed by the request without its first byte. -/
def spliced (zmq_push_url json_str : Bytes) : Bytes :=
  str "\x7b\"zmq_com\":\"" ++ (zmq_push_url ++ (str "\"," ++ json_str.tail))

/-- The last part of `unit_action_match`, after the three fields have been read. -/
def route (env : ManagerEnv) (m : Manager) (com_id : Int) (json_str : Bytes)
    (request_id work_id action : Bytes) : Dispatch Unit := do
  let work_id_fragment := work_id_fragments work_id []
  if action = str "inference" then
    let inference_raw_data := spliced (sprintf m.zmq_c_format com_id) json_str
    let ret ← zmq_bus_publisher_push env m work_id inference_raw_data
    if ret ≠ 0 then usr_print_error m request_id work_id inference_push_false com_id
  else
    match work_id_fragment with
    -- work_id_fragment[0] of an empty vector
    | [] => throw .out_of_bounds
    | fragment :: _ =>
        if fragment.length ≠ 0 then
          let ret ← remote_call env m com_id json_str
          if ret ≠ 0 then usr_print_error m request_id work_id unit_call_false com_id

def unit_action_match (env : ManagerEnv) (m : Manager) (com_id : Int) (json_str : Bytes) :
    Dispatch Unit :=
  let refuse := usr_print_error m (str "0") (str "sys") json_format_error com_id
  match env.sj.iterate json_str with
  | none => refuse
  | some doc =>
    let (request_id?, doc) := env.sj.get_string doc (str "request_id")
    match request_id? with
    | none => refuse
    | some request_id =>
      let (work_id?, doc) := env.sj.get_string doc (str "work_id")
      match work_id? with
      | none => refuse
      | some work_id =>
        -- only the local variable is replaced, not the text that is passed on
        let work_id := if work_id = [] then str "sys" else work_id
        let (action?, _) := env.sj.get_string doc (str "action")
        match action? with
        | none => refuse
        | some action => route env m com_id json_str request_id work_id action

/-! ## The fields of an accepted request -/

/-- `request_id`, `work_id` and `action` as simdjson returns them. -/
structure Request where
  request_id : Bytes
  work_id : Bytes
  action : Bytes
  deriving DecidableEq, Repr

/-- The work id the manager goes on with. -/
def Request.target (r : Request) : Bytes := if r.work_id = [] then str "sys" else r.work_id

/-- The fields `unit_action_match` reads, in its order; `none` when it refuses the text. -/
def Simdjson.request (sj : Simdjson) (json_str : Bytes) : Option Request := do
  let doc ← sj.iterate json_str
  let request_id ← (sj.get_string doc (str "request_id")).1
  let doc := (sj.get_string doc (str "request_id")).2
  let work_id ← (sj.get_string doc (str "work_id")).1
  let doc := (sj.get_string doc (str "work_id")).2
  let action ← (sj.get_string doc (str "action")).1
  return ⟨request_id, work_id, action⟩

/-- The two fields `remote_call` reads from its own document, empty when missing. -/
def Simdjson.reread (sj : Simdjson) (json_str : Bytes) : Bytes × Bytes :=
  match sj.iterate json_str with
  | none => ([], [])
  | some doc =>
      let work_id := sj.get_string doc (str "work_id")
      (work_id.1.getD [], (sj.get_string work_id.2 (str "action")).1.getD [])

/-- A text is refused with one message or routed with the fields read from it. -/
theorem unit_action_match_eq (env : ManagerEnv) (m : Manager) (com_id : Int)
    (json_str : Bytes) :
    unit_action_match env m com_id json_str =
      match env.sj.request json_str with
      | none => usr_print_error m (str "0") (str "sys") json_format_error com_id
      | some r => route env m com_id json_str r.request_id r.target r.action := by
  unfold unit_action_match Simdjson.request Request.target
  cases hdoc : env.sj.iterate json_str with
  | none => rfl
  | some doc =>
      cases hid : env.sj.get_string doc (str "request_id") with
      | mk request_id? doc1 =>
          cases request_id? with
          | none => simp [hid]
          | some request_id =>
              cases hwork : env.sj.get_string doc1 (str "work_id") with
              | mk work_id? doc2 =>
                  cases work_id? with
                  | none => simp [hid, hwork]
                  | some work_id =>
                      cases haction : (env.sj.get_string doc2 (str "action")).1 <;>
                        simp [hid, hwork, haction]

/-- What an accepted request consists of is well-formed UTF-8. -/
theorem Simdjson.request_valid {sj : Simdjson} {json_str : Bytes} {r : Request}
    (h : sj.request json_str = some r) : Utf8.Valid r.request_id ∧ Utf8.Valid r.target := by
  unfold Simdjson.request at h
  obtain ⟨doc, -, h⟩ := Option.bind_eq_some_iff.mp h
  obtain ⟨request_id, hid, h⟩ := Option.bind_eq_some_iff.mp h
  obtain ⟨work_id, hwork, h⟩ := Option.bind_eq_some_iff.mp h
  obtain ⟨action, -, h⟩ := Option.bind_eq_some_iff.mp h
  obtain rfl : (⟨request_id, work_id, action⟩ : Request) = r := by simpa using h
  refine ⟨sj.get_string_valid hid, ?_⟩
  unfold Request.target
  split
  · show Utf8.Valid (str "sys")
    decide
  · exact sj.get_string_valid hwork

/-! ## One lemma per function -/

/-- An error reply to well-formed ids is sent to the client's URL. -/
theorem usr_print_error_run {request_id work_id : Bytes} (hid : Utf8.Valid request_id)
    (hwork : Utf8.Valid work_id) (m : Manager) (error_msg : ErrorMsg) (com_id : Int)
    (w : Wire) :
    (usr_print_error m request_id work_id error_msg com_id).run w =
      .ok () { w with replies := w.replies ++ [(sprintf m.zmq_c_format com_id,
        ⟨request_id, work_id, error_msg, str "None", str "None"⟩)] } := by
  simp [usr_print_error, zmq_com_send, hid, hwork]

/-- The push for a non-empty work id: whether it publishes depends on the registry, what it
    returns on the log level. -/
theorem zmq_bus_publisher_push_run (env : ManagerEnv) (m : Manager) {work_id : Bytes}
    (hne : work_id ≠ []) (json_str : Bytes) (w : Wire) :
    (zmq_bus_publisher_push env m work_id json_str).run w =
      .ok (if env.log_level.warns then 0 else -1)
        { w with published := w.published ++
            (m.key_sql.unitAt work_id).toList.map fun u => (u.inference_url, json_str) } := by
  unfold zmq_bus_publisher_push
  cases m.key_sql.unitAt work_id <;> by_cases hlvl : env.log_level.warns <;>
    simp [hne, hlvl, UnitData.send_msg, -bind_pure_comp]

/-- The first fragment is the part before the first dot; a non-empty work id has one. -/
theorem work_id_fragments_eq {work_id fragment : Bytes} (hne : fragment ++ work_id ≠ []) :
    ∃ rest, work_id_fragments work_id fragment
      = (fragment ++ work_id.takeWhile (· ≠ ch '.')) :: rest := by
  induction work_id generalizing fragment with
  | nil =>
      have hfragment : fragment ≠ [] := by simpa using hne
      exact ⟨[], by simp [work_id_fragments, hfragment]⟩
  | cons c work_id ih =>
      by_cases hc : c = ch '.'
      · exact ⟨work_id_fragments work_id [], by simp [work_id_fragments, hc]⟩
      · obtain ⟨rest, hrest⟩ := @ih (fragment ++ [c]) (by simp)
        exact ⟨rest, by simp [work_id_fragments, hc, hrest]⟩

/-- So indexing the fragments is safe, and the first one is empty only behind a leading
    dot. -/
theorem work_id_fragments_cons {work_id : Bytes} (hne : work_id ≠ []) :
    ∃ fragment rest, work_id_fragments work_id [] = fragment :: rest ∧
      (fragment = [] ↔ work_id.head? = some (ch '.')) := by
  obtain ⟨rest, hrest⟩ := work_id_fragments_eq (show [] ++ work_id ≠ [] from hne)
  refine ⟨_, rest, hrest, ?_⟩
  cases work_id with
  | nil => exact absurd rfl hne
  -- takeWhile stops at once exactly at a leading dot
  | cons c s => by_cases hc : c = ch '.' <;> simp [hc]

theorem Request.target_ne_nil (r : Request) : r.target ≠ [] := by
  unfold Request.target
  split
  · decide
  · assumption

/-- The call `remote_call` makes for a text. -/
def Simdjson.forwarded (sj : Simdjson) (com_url json_str : Bytes) : RpcCall :=
  let (work_id, action) := sj.reread json_str
  ⟨work_id.take ((find (str ".") work_id).getD work_id.length), action,
    set_param com_url json_str⟩

/-- `remote_call` on a text that parses: it throws exactly when one of its two fields is
    empty, and otherwise makes one call and returns its answer. -/
theorem remote_call_run (env : ManagerEnv) (m : Manager) (com_id : Int) {json_str : Bytes}
    (hparse : (env.sj.iterate json_str).isSome) (w : Wire) :
    (remote_call env m com_id json_str).run w =
      let call := env.sj.forwarded (sprintf m.zmq_c_format com_id) json_str
      if (env.sj.reread json_str).1 = [] ∨ (env.sj.reread json_str).2 = [] then
        .error .runtime_error w
      else .ok (env.call_rpc_action call) { w with calls := w.calls ++ [call] } := by
  obtain ⟨doc, hdoc⟩ := Option.isSome_iff_exists.mp hparse
  simp only [remote_call, Simdjson.forwarded, Simdjson.reread, hdoc]
  -- both parses of the text start from the same document
  split_ifs with hempty <;> rfl

theorem Simdjson.iterate_isSome_of_request {sj : Simdjson} {json_str : Bytes} {r : Request}
    (h : sj.request json_str = some r) : (sj.iterate json_str).isSome := by
  unfold Simdjson.request at h
  obtain ⟨doc, hdoc, -⟩ := Option.bind_eq_some_iff.mp h
  simp [hdoc]

/-! ## Inference requests -/

/-- The spliced request went out on the unit's channel, and nothing was sent back. -/
def Delivered (m : Manager) (com_url json_str work_id : Bytes) (w : Wire) : Prop :=
  ∃ u, m.key_sql.unitAt work_id = some u ∧
    w.published = [(u.inference_url, spliced com_url json_str)] ∧ w.replies = []

/-- There is no unit; the client got one error with code -4 and nothing else happened. -/
def Refused (m : Manager) (com_url work_id : Bytes) (w : Wire) : Prop :=
  m.key_sql.unitAt work_id = none ∧ w.published = [] ∧
    ∃ body, w.replies = [(com_url, body)] ∧ body.error.code = -4

/-- The push reports a missing unit to its caller. -/
def PushReports (env : ManagerEnv) (m : Manager) (work_id : Bytes) : Prop :=
  m.key_sql.unitAt work_id = none → ∀ json_str w, ∃ ret w',
    (zmq_bus_publisher_push env m work_id json_str).run w = .ok ret w' ∧ ret ≠ 0

/-- The wire after an inference request has been routed. -/
theorem route_inference_run (env : ManagerEnv) (m : Manager) (com_id : Int)
    (json_str : Bytes) {request_id work_id : Bytes} (hid : Utf8.Valid request_id)
    (hwork : Utf8.Valid work_id) (hne : work_id ≠ []) (w : Wire) :
    (route env m com_id json_str request_id work_id (str "inference")).run w =
      .ok () { w with
        published := w.published ++ (m.key_sql.unitAt work_id).toList.map fun u =>
          (u.inference_url, spliced (sprintf m.zmq_c_format com_id) json_str)
        replies := w.replies ++ if env.log_level.warns then [] else
          [(sprintf m.zmq_c_format com_id,
            ⟨request_id, work_id, inference_push_false, str "None", str "None"⟩)] } := by
  simp only [route, if_true, EStateM.run_bind, zmq_bus_publisher_push_run env m hne]
  -- The return value, and with it the reply, depends on the log level only.
  by_cases hlvl : env.log_level.warns
  · simp [hlvl]
  · simp only [hlvl, if_false, ne_eq, show ¬ ((-1 : Int) = 0) by decide, not_false_eq_true,
      if_true, usr_print_error_run hid hwork]

/-- Exactly one of delivery and refusal, and a push that reports a missing unit. -/
def DeliveredOrRefused (env : ManagerEnv) (m : Manager) (com_id : Int) (json_str : Bytes)
    (r : Request) : Prop :=
  (∃ w, (unit_action_match env m com_id json_str).run .empty = .ok () w ∧
    Xor (Delivered m (sprintf m.zmq_c_format com_id) json_str r.target w)
      (Refused m (sprintf m.zmq_c_format com_id) r.target w)) ∧
    PushReports env m r.target

/-- For every registry, log level and accepted inference request, the request is delivered
    or refused exactly when the unit is registered if and only if warnings are logged. -/
theorem inference_delivered_or_refused_iff (env : ManagerEnv) (m : Manager) (com_id : Int)
    (json_str : Bytes) (r : Request) (hr : env.sj.request json_str = some r)
    (haction : r.action = str "inference") :
    DeliveredOrRefused env m com_id json_str r
      ↔ ((m.key_sql.unitAt r.target).isSome ↔ env.log_level.warns) := by
  obtain ⟨hid, htarget⟩ := Simdjson.request_valid hr
  unfold DeliveredOrRefused
  rw [unit_action_match_eq, hr]
  simp only [haction, route_inference_run env m com_id json_str hid htarget r.target_ne_nil,
    Wire.empty, List.nil_append, PushReports, zmq_bus_publisher_push_run env m r.target_ne_nil,
    EStateM.Result.ok.injEq, true_and, exists_eq_left', Delivered, Refused, Xor]
  cases hunit : m.key_sql.unitAt r.target with
  | none =>
      by_cases hlvl : env.log_level.warns
      · -- Nothing was sent and the push returned zero.
        simp [hlvl]
      · simp [hlvl, inference_push_false]
  | some u =>
      by_cases hlvl : env.log_level.warns <;> simp [hlvl]

/-- A client's inference request to unit `llm.0`, and the manager's view of it. -/
def inferText : Bytes :=
  str "\x7b\"request_id\":\"1\",\"work_id\":\"llm.0\",\"action\":\"inference\"\x7d"

def inferRequest : Request := ⟨str "1", str "llm.0", str "inference"⟩

/-- The members of a text as simdjson finds them. -/
def Request.members (r : Request) : List (Bytes × Bytes) :=
  [(str "request_id", r.request_id), (str "work_id", r.work_id), (str "action", r.action)]

def inferEnv (log_level : LogLevel) : ManagerEnv where
  sj := .table inferText inferRequest.members (by decide) (by decide)
  call_rpc_action _ := 0
  log_level := log_level

/-- At the default log level, a request to a registered unit. -/
theorem inference_delivered_or_refused_iff_registered :
    DeliveredOrRefused (inferEnv .info)
      (sys_allocate_unit ⟨0, 0⟩ (.initial 8000 8010) (str "llm")).2 8000 inferText
      inferRequest :=
  (inference_delivered_or_refused_iff (inferEnv .info) _ 8000 inferText inferRequest
    (by decide +kernel) (by decide)).mpr (by decide +kernel)

/-- At the same level, without a unit: the push returns 0 and the client hears nothing. -/
theorem inference_unregistered_dropped :
    (inferEnv .info).sj.request inferText = some inferRequest ∧
      inferRequest.action = str "inference" ∧
      ¬ DeliveredOrRefused (inferEnv .info) (.initial 8000 8010) 8000 inferText inferRequest := by
  refine ⟨by decide +kernel, by decide, ?_⟩
  rintro ⟨-, hpush⟩
  have hnone : (Manager.initial 8000 8010).key_sql.unitAt inferRequest.target = none := by
    decide +kernel
  obtain ⟨ret, w', hrun, hret⟩ := hpush hnone [] .empty
  rw [zmq_bus_publisher_push_run _ _ inferRequest.target_ne_nil] at hrun
  have hzero : (0 : Int) = ret := by
    simpa [show (inferEnv .info).log_level.warns by decide] using
      (EStateM.Result.ok.inj hrun).1
  exact hret hzero.symm

/-! ## No exception leaves the dispatcher -/

/-- Handling the text ends without an exception. -/
def Returns (env : ManagerEnv) (m : Manager) (com_id : Int) (json_str : Bytes) (w : Wire) :
    Prop :=
  ∃ w', (unit_action_match env m com_id json_str).run w = .ok () w'

/-- `remote_call` is reached and finds one of its two fields empty. -/
def Misread (sj : Simdjson) (json_str : Bytes) (r : Request) : Prop :=
  r.action ≠ str "inference" ∧ r.target.head? ≠ some (ch '.') ∧
    ((sj.reread json_str).1 = [] ∨ (sj.reread json_str).2 = [])

instance (sj : Simdjson) (json_str : Bytes) (r : Request) : Decidable (Misread sj json_str r) :=
  inferInstanceAs (Decidable (_ ∧ _))

/-- Routing any other request: it throws exactly when `remote_call` is reached and throws. -/
theorem route_call_returns_iff (env : ManagerEnv) (m : Manager) (com_id : Int)
    {json_str : Bytes} {r : Request} (hr : env.sj.request json_str = some r)
    (haction : r.action ≠ str "inference") (w : Wire) :
    (∃ w', (route env m com_id json_str r.request_id r.target r.action).run w = .ok () w') ↔
      ¬ Misread env.sj json_str r := by
  obtain ⟨hid, htarget⟩ := Simdjson.request_valid hr
  obtain ⟨fragment, rest, hfragments, hdot⟩ := work_id_fragments_cons r.target_ne_nil
  -- an accepted text parses, so remote_call never meets a null document
  have hcall := remote_call_run env m com_id (Simdjson.iterate_isSome_of_request hr) w
  unfold Misread route
  simp only [haction, hfragments, if_false, ne_eq, not_false_eq_true, true_and, ← hdot,
    List.length_eq_zero_iff]
  by_cases hfragment : fragment = []
  · simp [hfragment]
  · simp only [hfragment, not_false_eq_true, if_true, true_and, EStateM.run_bind, hcall]
    by_cases hempty : (env.sj.reread json_str).1 = [] ∨ (env.sj.reread json_str).2 = []
    · simp [hempty]
    · -- The call was made; a non-zero answer is reported to the client.
      simp only [hempty, if_false, not_false_eq_true, iff_true]
      split_ifs
      · exact ⟨_, rfl⟩
      · exact ⟨_, usr_print_error_run hid htarget _ _ _ _⟩

/-- For every text, registry and wire, `unit_action_match` returns normally exactly when
    `remote_call` does not reread an accepted request as one without work id or action. -/
theorem unit_action_match_returns_iff (env : ManagerEnv) (m : Manager) (com_id : Int)
    (json_str : Bytes) (w : Wire) :
    Returns env m com_id json_str w ↔
      ∀ r, env.sj.request json_str = some r → ¬ Misread env.sj json_str r := by
  unfold Returns
  rw [unit_action_match_eq]
  cases hr : env.sj.request json_str with
  | none =>
      have hid : Utf8.Valid (str "0") := by decide
      have hsys : Utf8.Valid (str "sys") := by decide
      have hrun := usr_print_error_run hid hsys m json_format_error com_id w
      exact ⟨fun _ r h => absurd h (by simp), fun _ => ⟨_, hrun⟩⟩
  | some r =>
      obtain ⟨hid, htarget⟩ := Simdjson.request_valid hr
      by_cases haction : r.action = str "inference"
      · have hrun := route_inference_run env m com_id json_str hid htarget r.target_ne_nil w
        have hok : ¬ Misread env.sj json_str r := fun h => h.1 haction
        simp only [haction, Option.some.injEq, forall_eq', hok, not_false_eq_true, iff_true]
        exact ⟨_, hrun⟩
      · simpa using route_call_returns_iff env m com_id hr haction w

/-- A setup request that leaves its work id empty. -/
def sysSetupText : Bytes :=
  str "\x7b\"request_id\":\"1\",\"work_id\":\"\",\"action\":\"setup\"\x7d"

def sysSetupRequest : Request := ⟨str "1", [], str "setup"⟩

def sysSetupEnv : ManagerEnv where
  sj := .table sysSetupText sysSetupRequest.members (by decide) (by decide)
  call_rpc_action _ := 0
  log_level := .info

/-- The first parse goes on with `sys`, the second one throws. -/
theorem unit_action_match_throws_on_empty_work_id :
    ¬ Returns sysSetupEnv (.initial 8000 8010) 8000 sysSetupText .empty := by
  have hr : sysSetupEnv.sj.request sysSetupText = some sysSetupRequest := by
    decide +kernel
  have haction : sysSetupRequest.action ≠ str "inference" := by decide
  have hmisread : Misread sysSetupEnv.sj sysSetupText sysSetupRequest :=
    ⟨haction, by decide, by decide +kernel⟩
  unfold Returns
  rw [unit_action_match_eq, hr]
  rw [route_call_returns_iff sysSetupEnv _ _ hr haction]
  exact not_not_intro hmisread

end DoubleTurnouts
