/-
  DoubleTurnouts.InfraController.StackFlow

  The base class of a unit: control events, the node-wide reply context
  `request_id_` / `out_zmq_url_`, the channel table and the calls to the
  manager.  The derived class's state is the type parameter `τ`, its virtual
  functions are a `Handlers` record.

  Handlers run in `FlowM`: the object is the state and an exception keeps the
  changes made before it.  What goes out is recorded in the state: `outs` are
  the messages on PUSH and PUB sockets, `rpcs` the calls to the manager.
-/
import Mathlib.Tactic
import DoubleTurnouts.Lib.Run
import DoubleTurnouts.HybridComm.PzmqData
import DoubleTurnouts.InfraController.Channel

namespace DoubleTurnouts

open Text Decimal

/-- A `StackFlow` object, its derived part and what it has sent. -/
structure StackFlow (τ : Type) where
  unit_name_ : Bytes
  request_id_ : Bytes
  out_zmq_url_ : Bytes
  status_ : Int
  llm_task_channel_ : Map Int Channel
  self : τ
  outs : List Out
  rpcs : List RpcCall

abbrev FlowM (τ : Type) := EStateM Exn (StackFlow τ)

/-- The virtual functions with three arguments. -/
structure Handlers (τ : Type) where
  setup : (work_id object data : Bytes) → FlowM τ Int
  exit : (work_id object data : Bytes) → FlowM τ Int
  pause : (work_id object data : Bytes) → FlowM τ Unit
  taskinfo : (work_id object data : Bytes) → FlowM τ Unit

namespace StackFlow

variable {τ α : Type}

/-- `llm_task_channel_.at(n)`. -/
def get_channel (n : Int) : FlowM τ Channel := do
  match (← get).llm_task_channel_.lookup n with
  | some channel => pure channel
  | none => throw .out_of_range

/-- The channel object behind the shared pointer changes. -/
def set_channel (n : Int) (channel : Channel) : FlowM τ Unit :=
  modify fun s => { s with llm_task_channel_ := s.llm_task_channel_.insert n channel }

/-- `StackFlow::send`.  Without a URL of its own the message goes to the requester of the
    last control event. -/
def send (env : NodeEnv) (object : Bytes) (data error_msg : Json) (work_id zmq_url : Bytes) :
    FlowM τ Unit := do
  let error_msg ← liftExcept (env.error_msg error_msg)
  let s ← get
  let out_body : OutBody :=
    { request_id := s.request_id_
      work_id := work_id
      object := object
      data := data
      error := error_member error_msg }
  liftExcept (env.dump out_body)
  -- dump has not thrown: only now is anything sent
  let url := if zmq_url = [] then s.out_zmq_url_ else zmq_url
  modify fun s => { s with outs := s.outs ++ [⟨.push, url, out_body⟩] }

/-- `send("None", "None", error_body, work_id)`. -/
def send_error (env : NodeEnv) (code : Int) (message work_id : Bytes) : FlowM τ Unit :=
  send env (str "None") LLM_NONE (error_body code message) work_id []

/-! ## Calls to the manager -/

section Messages

-- how the parameters of a message are read
variable (get_param : Bytes → Int → Bytes → Except Exn Bytes)

/-- What `sys_register_unit` reads from the reply: the number and the two URLs. -/
def decode_registerWith (reply : Bytes) : Except Exn (Int × Bytes × Bytes) := do
  let str_port ← get_param reply 1 []
  let out_port ← get_param reply 0 str_port
  let inference_port ← get_param reply 1 str_port
  -- str_port is used again: it held the pair of URLs, now it is the number
  let str_port ← get_param reply 0 []
  let work_id_number ← stoi str_port
  return (work_id_number, out_port, inference_port)

/-- `sys_register_unit`, with the manager's reply. -/
def sys_register_unitWith (reply : Bytes) : FlowM τ Int := do
  modify fun s =>
    -- the call is made whatever the reply turns out to be
    { s with rpcs := s.rpcs ++ [⟨str "sys", str "register_unit", s.unit_name_⟩] }
  let (work_id_number, out_port, inference_port) ←
    liftExcept (decode_registerWith get_param reply)
  set_channel work_id_number (.new out_port inference_port)
  return work_id_number

end Messages

def decode_register (reply : Bytes) : Except Exn (Int × Bytes × Bytes) :=
  decode_registerWith get_param reply

def sys_register_unit (reply : Bytes) : FlowM τ Int := sys_register_unitWith get_param reply

/-- `sys_release_unit(work_id_num, work_id)`. -/
def sys_release_unit (work_id_num : Int) (work_id : Bytes) : FlowM τ Unit := do
  let s ← get
  -- exit passes -1 and the work id, a failed setup passes both
  let _work_id := if work_id = [] then sample_get_work_id work_id_num s.unit_name_ else work_id
  let _work_id_num ←
    if work_id = [] then pure work_id_num else liftExcept (sample_get_work_id_num work_id)
  modify fun s =>
    { s with
      rpcs := s.rpcs ++ [⟨str "sys", str "release_unit", _work_id⟩]
      llm_task_channel_ := s.llm_task_channel_.erase _work_id_num }

/-! ## Control events -/

/-- The default of every virtual function. -/
def not_have_unit_action (env : NodeEnv) (work_id : Bytes) : FlowM τ Unit :=
  send_error env (-18) (str "not have unit action!") work_id

/-- `setup(zmq_url, raw)`, with the manager's reply to `register_unit`. -/
def setup (vt : Handlers τ) (reply zmq_url raw : Bytes) : FlowM τ Unit := do
  let workid_num ← sys_register_unit reply
  let work_id := sample_get_work_id workid_num (← get).unit_name_
  let task_channel ← get_channel workid_num
  set_channel workid_num
    { task_channel.set_push_url zmq_url with
      request_id_ := sample_json_str_get raw (str "request_id")
      work_id_ := work_id }
  let ret ← vt.setup work_id (sample_json_str_get raw (str "object"))
    (sample_json_str_get raw (str "data"))
  -- a unit that refuses the setup gives its number back
  if ret ≠ 0 then sys_release_unit workid_num work_id

/-- The `try` block of the other three: the channel the work id names, if there is one,
    pushes to the requester from now on. -/
def try_set_push_url (zmq_url work_id : Bytes) : FlowM τ Unit :=
  tryCatch
    (do
      let n ← liftExcept (sample_get_work_id_num work_id)
      let task_channel ← get_channel n
      set_channel n (task_channel.set_push_url zmq_url))
    fun _ => pure ()

/-- `exit(zmq_url, raw)`. -/
def exit (vt : Handlers τ) (zmq_url raw : Bytes) : FlowM τ Unit := do
  let work_id := sample_json_str_get raw (str "work_id")
  try_set_push_url zmq_url work_id
  let ret ← vt.exit work_id (sample_json_str_get raw (str "object"))
    (sample_json_str_get raw (str "data"))
  -- the converse of setup: 0 is what releases
  if ret = 0 then sys_release_unit (-1) work_id

/-- `pause(zmq_url, raw)` and `taskinfo(zmq_url, raw)`. -/
def inform (handler : (work_id object data : Bytes) → FlowM τ Unit) (zmq_url raw : Bytes) :
    FlowM τ Unit := do
  let work_id := sample_json_str_get raw (str "work_id")
  try_set_push_url zmq_url work_id
  handler work_id (sample_json_str_get raw (str "object"))
    (sample_json_str_get raw (str "data"))

def pause (vt : Handlers τ) : (zmq_url raw : Bytes) → FlowM τ Unit := inform vt.pause

def taskinfo (vt : Handlers τ) : (zmq_url raw : Bytes) → FlowM τ Unit := inform vt.taskinfo

/-- The end of every event handler: the reply context is set and the handler called. -/
def handle (zmq_url data : Bytes) (handler : (zmq_url raw : Bytes) → FlowM τ Unit) :
    FlowM τ Unit := do
  modify fun s =>
    { s with
      request_id_ := sample_json_str_get data (str "request_id")
      out_zmq_url_ := zmq_url }
  if (← get).status_ ≠ 0 then handler zmq_url data

section Messages

variable (get_param : Bytes → Int → Bytes → Except Exn Bytes)
  (handler : (zmq_url raw : Bytes) → FlowM τ Unit)

/-- `_setup`, `_exit` and `_taskinfo` up to the handler they call. -/
def _eventWith (msg : Bytes) : FlowM τ Unit := do
  let zmq_url ← liftExcept (get_param msg 0 [])
  let data ← liftExcept (get_param msg 1 [])
  handle zmq_url data handler

/-- `_pause` takes parameter 0, the URL, for its data as well. -/
def _pauseWith (msg : Bytes) : FlowM τ Unit := do
  let zmq_url ← liftExcept (get_param msg 0 [])
  let data ← liftExcept (get_param msg 0 [])
  handle zmq_url data handler

end Messages

def _event (handler : (zmq_url raw : Bytes) → FlowM τ Unit) (msg : Bytes) : FlowM τ Unit :=
  _eventWith get_param handler msg

def _setup (vt : Handlers τ) (reply : Bytes) : (msg : Bytes) → FlowM τ Unit :=
  _event (setup vt reply)

def _exit (vt : Handlers τ) : (msg : Bytes) → FlowM τ Unit := _event (exit vt)

def _taskinfo (vt : Handlers τ) : (msg : Bytes) → FlowM τ Unit := _event (taskinfo vt)

def _pause (vt : Handlers τ) (msg : Bytes) : FlowM τ Unit := _pauseWith get_param (pause vt) msg

/-! ## One equation per function

What each function does to a state, exceptions included.  The unit's proofs use these and
do not unfold the definitions above. -/

@[simp] theorem throw_run (e : Exn) (s : StackFlow τ) :
    (throw e : FlowM τ α).run s = .error e s := rfl

@[simp] theorem tryCatch_run (x : FlowM τ α) (handler : Exn → FlowM τ α) (s : StackFlow τ) :
    (tryCatch x handler).run s =
      match x.run s with
      | .ok a s' => .ok a s'
      | .error e s' => (handler e).run s' := by
  simp only [tryCatch, tryCatchThe, MonadExceptOf.tryCatch, EStateM.tryCatch, EStateM.run]
  cases x s <;> rfl

@[simp] theorem liftExcept_run (x : Except Exn α) (s : StackFlow τ) :
    (liftExcept x : FlowM τ α).run s =
      match x with
      | .ok a => .ok a s
      | .error e => .error e s := by
  cases x <;> rfl

/-- The body `send` builds, or what it throws on the way. -/
def body (env : NodeEnv) (s : StackFlow τ) (object : Bytes) (data error_msg : Json)
    (work_id : Bytes) : Except Exn OutBody :=
  match env.error_msg error_msg with
  | .error e => .error e
  | .ok error_msg =>
      let out_body : OutBody := ⟨s.request_id_, work_id, object, data, error_member error_msg⟩
      match env.dump out_body with
      | .error e => .error e
      | .ok _ => .ok out_body

/-- The message has gone to the requester of the last control event. -/
def replied (s : StackFlow τ) (out_body : OutBody) : StackFlow τ :=
  { s with outs := s.outs ++ [⟨.push, s.out_zmq_url_, out_body⟩] }

theorem send_run (env : NodeEnv) (object : Bytes) (data error_msg : Json) (work_id : Bytes)
    (s : StackFlow τ) :
    (send env object data error_msg work_id []).run s =
      match body env s object data error_msg work_id with
      | .ok out_body => .ok () (s.replied out_body)
      | .error e => .error e s := by
  -- cases as send itself throws: the error object first, then dump
  unfold send body
  cases env.error_msg error_msg with
  | error e => simp
  | ok error =>
      cases hdump : env.dump ⟨s.request_id_, work_id, object, data, error_member error⟩ with
      | error e => simp [hdump]
      | ok u => simp [hdump, replied]

/-- `send` and the rest of a handler. -/
theorem send_bind_run (env : NodeEnv) (object : Bytes) (data error_msg : Json)
    (work_id : Bytes) (k : Unit → FlowM τ α) (s : StackFlow τ) :
    (send env object data error_msg work_id [] >>= k).run s =
      match body env s object data error_msg work_id with
      | .ok out_body => (k ()).run (s.replied out_body)
      | .error e => .error e s := by
  rw [EStateM.run_bind, send_run]
  cases body env s object data error_msg work_id <;> rfl

/-- Read as emitting, `send` always emits. -/
theorem body_emit {env : NodeEnv} (h : env.mode = .emit) (s : StackFlow τ) (object : Bytes)
    (data error_msg : Json) (work_id : Bytes) :
    body env s object data error_msg work_id =
      .ok ⟨s.request_id_, work_id, object, data, error_member error_msg⟩ := by
  simp [body, NodeEnv.error_msg_emit h, NodeEnv.dump_emit h]

/-- With nlohmann's conversions no error object ever leaves `send`. -/
theorem body_error_convert {env : NodeEnv} (h : env.mode = .convert) (s : StackFlow τ)
    (object : Bytes) (data : Json) (code : Int) (message work_id : Bytes) :
    body env s object data (error_body code message) work_id = .error .type_error := by
  simp [body, NodeEnv.error_msg, h, error_body]

/-- A reply without error is sent exactly if its texts are UTF-8. -/
theorem body_no_error_convert {env : NodeEnv} (h : env.mode = .convert) (s : StackFlow τ)
    (object : Bytes) (data : Json) (work_id : Bytes) :
    body env s object data LLM_NO_ERROR work_id =
      if Utf8.Valid s.request_id_ ∧ Utf8.Valid work_id ∧ Utf8.Valid object ∧
          ∀ t ∈ data.strings, Utf8.Valid t then
        .ok ⟨s.request_id_, work_id, object, data, error_body 0 []⟩
      else .error .type_error := by
  -- the error member is ASCII, so it adds no condition
  have hzero : ∀ t ∈ (error_body 0 []).strings, Utf8.Valid t := by decide
  have hstrings : (∀ t ∈ (OutBody.mk s.request_id_ work_id object data
      (error_body 0 [])).strings, Utf8.Valid t) ↔ Utf8.Valid s.request_id_ ∧
      Utf8.Valid work_id ∧ Utf8.Valid object ∧ ∀ t ∈ data.strings, Utf8.Valid t := by
    rw [OutBody.strings_valid_iff]
    exact ⟨fun ⟨hid, hwork, hobject, hdata, _⟩ => ⟨hid, hwork, hobject, hdata⟩,
      fun ⟨hid, hwork, hobject, hdata⟩ => ⟨hid, hwork, hobject, hdata, hzero⟩⟩
  simp only [body, LLM_NO_ERROR, NodeEnv.error_msg_string, error_member,
    NodeEnv.dump_convert h, hstrings]
  split_ifs <;> rfl

theorem get_channel_run (n : Int) (s : StackFlow τ) :
    (get_channel n : FlowM τ Channel).run s =
      match s.llm_task_channel_.lookup n with
      | some channel => .ok channel s
      | none => .error .out_of_range s := by
  unfold get_channel
  cases h : s.llm_task_channel_.lookup n <;> simp [h]

/-- The table with one channel replaced. -/
def withChannel (s : StackFlow τ) (n : Int) (channel : Channel) : StackFlow τ :=
  { s with llm_task_channel_ := s.llm_task_channel_.insert n channel }

@[simp] theorem set_channel_run (n : Int) (channel : Channel) (s : StackFlow τ) :
    (set_channel n channel).run s = .ok () (s.withChannel n channel) := rfl

/-- The manager has been told, and the channel is gone. -/
def released (s : StackFlow τ) (n : Int) (work_id : Bytes) : StackFlow τ :=
  { s with
    rpcs := s.rpcs ++ [⟨str "sys", str "release_unit", work_id⟩]
    llm_task_channel_ := s.llm_task_channel_.erase n }

theorem sys_release_unit_run {n : Int} {work_id : Bytes} (hne : work_id ≠ [])
    (hn : sample_get_work_id_num work_id = .ok n) (m : Int) (s : StackFlow τ) :
    (sys_release_unit m work_id).run s = .ok () (s.released n work_id) := by
  simp [sys_release_unit, hne, hn, released]

theorem isInt32_of_decode_register {reply : Bytes} {n : Int} {urls : Bytes × Bytes}
    (h : decode_register reply = .ok (n, urls)) : IsInt32 n := by
  unfold decode_register decode_registerWith at h
  obtain ⟨_, -, h⟩ := exists_of_bind_eq_ok h
  obtain ⟨_, -, h⟩ := exists_of_bind_eq_ok h
  obtain ⟨_, -, h⟩ := exists_of_bind_eq_ok h
  obtain ⟨_, -, h⟩ := exists_of_bind_eq_ok h
  obtain ⟨m, hm, h⟩ := exists_of_bind_eq_ok h
  cases h
  exact isInt32_of_stoi hm

theorem sys_register_unit_run (reply : Bytes) (s : StackFlow τ) :
    (sys_register_unit reply).run s =
      let s' := { s with rpcs := s.rpcs ++ [⟨str "sys", str "register_unit", s.unit_name_⟩] }
      match decode_register reply with
      | .ok (n, out_port, inference_port) =>
          .ok n (s'.withChannel n (.new out_port inference_port))
      | .error e => .error e s' := by
  simp only [sys_register_unit, sys_register_unitWith, decode_register, EStateM.run_bind,
    EStateM.run_modify, liftExcept_run]
  cases decode_registerWith get_param reply with
  | error e => rfl
  | ok r => rfl

/-- The channel a setup opens: it answers the requester and carries the new work id. -/
def openedChannel (work_id out_port inference_port zmq_url raw : Bytes) : Channel :=
  { (Channel.new out_port inference_port).set_push_url zmq_url with
    request_id_ := sample_json_str_get raw (str "request_id")
    work_id_ := work_id }

/-- The state in which the unit decides about a setup. -/
def opened (s : StackFlow τ) (n : Int) (out_port inference_port zmq_url raw : Bytes) :
    StackFlow τ :=
  { s with
    rpcs := s.rpcs ++ [⟨str "sys", str "register_unit", s.unit_name_⟩]
    llm_task_channel_ := s.llm_task_channel_.insert n
      (openedChannel (sample_get_work_id n s.unit_name_) out_port inference_port zmq_url raw) }

@[simp] theorem opened_unit_name (s : StackFlow τ) (n : Int)
    (out_port inference_port zmq_url raw : Bytes) :
    (s.opened n out_port inference_port zmq_url raw).unit_name_ = s.unit_name_ := rfl

/-- `setup(zmq_url, raw)` up to the virtual call, and the release after it. -/
theorem setup_opened_run (vt : Handlers τ) {reply out_port inference_port : Bytes} {n : Int}
    (hreply : decode_register reply = .ok (n, out_port, inference_port))
    (zmq_url raw : Bytes) (s : StackFlow τ) :
    (setup vt reply zmq_url raw).run s =
      let work_id := sample_get_work_id n s.unit_name_
      match (vt.setup work_id (sample_json_str_get raw (str "object"))
          (sample_json_str_get raw (str "data"))).run
          (s.opened n out_port inference_port zmq_url raw) with
      | .ok ret s' => if ret ≠ 0 then (sys_release_unit n work_id).run s' else .ok () s'
      | .error e s' => .error e s' := by
  simp only [setup, EStateM.run_bind, sys_register_unit_run, hreply, set_channel_run,
    EStateM.run_get, get_channel_run, withChannel, AList.lookup_insert, AList.insert_insert,
    opened, openedChannel]
  -- the virtual call is any computation from the opened state
  generalize EStateM.run (vt.setup _ _ _) _ = result
  cases result with
  | error e s' => rfl
  | ok ret s' => by_cases hret : ret = 0 <;> simp [hret]

/-- The release of a work id that has a number only tells the manager and drops a channel. -/
theorem sys_release_unit_ok {n : Int} {work_id : Bytes}
    (hn : sample_get_work_id_num work_id = .ok n) (m : Int) (s : StackFlow τ) :
    ∃ m' work_id', (sys_release_unit m work_id).run s = .ok () (s.released m' work_id') := by
  by_cases hempty : work_id = []
  · exact ⟨m, sample_get_work_id m s.unit_name_, by simp [sys_release_unit, hempty, released]⟩
  · exact ⟨n, work_id, sys_release_unit_run hempty hn m s⟩

/-- The `try` block: it never throws. -/
def pushedTo (s : StackFlow τ) (zmq_url work_id : Bytes) : StackFlow τ :=
  match sample_get_work_id_num work_id with
  | .error _ => s
  | .ok n =>
      match s.llm_task_channel_.lookup n with
      | none => s
      | some channel => s.withChannel n (channel.set_push_url zmq_url)

/-- The block touches the channel table only. -/
theorem pushedTo_frame (s : StackFlow τ) (zmq_url work_id : Bytes) :
    ∃ channels, s.pushedTo zmq_url work_id = { s with llm_task_channel_ := channels } := by
  unfold pushedTo
  split
  · exact ⟨_, rfl⟩
  · split <;> exact ⟨_, rfl⟩

/-- In the table it touches the push socket of one channel. -/
theorem pushedTo_lookup (s : StackFlow τ) (zmq_url work_id : Bytes) (m : Int) :
    (s.pushedTo zmq_url work_id).llm_task_channel_.lookup m =
      (s.llm_task_channel_.lookup m).map fun channel =>
        if sample_get_work_id_num work_id = .ok m then channel.set_push_url zmq_url
        else channel := by
  unfold pushedTo
  cases hn : sample_get_work_id_num work_id with
  | error e => simp
  | ok n =>
      cases hc : s.llm_task_channel_.lookup n with
      | none =>
          rcases eq_or_ne m n with rfl | hne
          · simp [hc]
          · simp [hc, hne.symm]
      | some channel =>
          rcases eq_or_ne m n with rfl | hne
          · simp [hc, withChannel]
          · simp [hc, withChannel, AList.lookup_insert_ne hne, hne.symm]

theorem try_set_push_url_run (zmq_url work_id : Bytes) (s : StackFlow τ) :
    (try_set_push_url zmq_url work_id).run s = .ok () (s.pushedTo zmq_url work_id) := by
  unfold try_set_push_url pushedTo
  cases hn : sample_get_work_id_num work_id with
  | error e => rfl
  | ok n =>
      rw [tryCatch_run]
      cases hc : s.llm_task_channel_.lookup n <;> simp [get_channel_run, hc]

/-- `exit(zmq_url, raw)` around the virtual call. -/
theorem exit_virtual_run (vt : Handlers τ) (zmq_url raw : Bytes) (s : StackFlow τ) :
    (exit vt zmq_url raw).run s =
      let work_id := sample_json_str_get raw (str "work_id")
      match (vt.exit work_id (sample_json_str_get raw (str "object"))
          (sample_json_str_get raw (str "data"))).run (s.pushedTo zmq_url work_id) with
      | .ok ret s' => if ret = 0 then (sys_release_unit (-1) work_id).run s' else .ok () s'
      | .error e s' => .error e s' := by
  simp only [exit, EStateM.run_bind, try_set_push_url_run]
  generalize EStateM.run (vt.exit _ _ _) _ = result
  cases result with
  | error e s' => rfl
  | ok ret s' => by_cases hret : ret = 0 <;> simp [hret]

/-- `pause` and `taskinfo` up to the virtual call. -/
theorem inform_run (handler : Bytes → Bytes → Bytes → FlowM τ Unit) (zmq_url raw : Bytes)
    (s : StackFlow τ) :
    (inform handler zmq_url raw).run s =
      let work_id := sample_json_str_get raw (str "work_id")
      (handler work_id (sample_json_str_get raw (str "object"))
        (sample_json_str_get raw (str "data"))).run (s.pushedTo zmq_url work_id) := by
  simp [inform, try_set_push_url_run]

/-- The reply context a control event sets. -/
def addressed (s : StackFlow τ) (zmq_url data : Bytes) : StackFlow τ :=
  { s with
    request_id_ := sample_json_str_get data (str "request_id")
    out_zmq_url_ := zmq_url }

/-- The end of an event handler. -/
theorem handle_run (zmq_url data : Bytes)
    (handler : (zmq_url raw : Bytes) → FlowM τ Unit) (s : StackFlow τ) :
    (handle zmq_url data handler).run s =
      if s.status_ ≠ 0 then (handler zmq_url data).run (s.addressed zmq_url data)
      else .ok () (s.addressed zmq_url data) := by
  unfold handle
  by_cases hs : s.status_ = 0
  · simp [hs, addressed]
  · simp [hs, addressed]

theorem _event_run {zmq_url : Bytes} (hlen : zmq_url.length ≤ 127) (data : Bytes)
    (handler : Bytes → Bytes → FlowM τ Unit) {s : StackFlow τ} (hs : s.status_ ≠ 0) :
    (_event handler (set_param zmq_url data)).run s =
      (handler zmq_url data).run (s.addressed zmq_url data) := by
  simp [_event, _eventWith, handle, get_param_zero_set_param hlen, get_param_one_set_param hlen, hs,
    addressed]

/-- A pause never sees the request: its handler gets the URL in the request's place. -/
theorem _pause_run {zmq_url : Bytes} (hlen : zmq_url.length ≤ 127) (data : Bytes)
    (vt : Handlers τ) {s : StackFlow τ} (hs : s.status_ ≠ 0) :
    (_pause vt (set_param zmq_url data)).run s =
      (pause vt zmq_url zmq_url).run (s.addressed zmq_url zmq_url) := by
  simp [_pause, _pauseWith, handle, get_param_zero_set_param hlen, hs, addressed]

end StackFlow

end DoubleTurnouts
