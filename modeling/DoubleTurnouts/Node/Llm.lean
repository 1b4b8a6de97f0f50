/-
  DoubleTurnouts.Node.Llm

  The llm unit: `llm_task` and `llm_llm`, with the two function-local statics
  (`stream_buff` of `task_user_data`, `count` of `task_output`) that all tasks
  of the process share.

  The callbacks hold weak pointers to a task and its channel.  The node's two
  tables own both objects, and a channel has its subscription only while the
  task of the same number is in the table, so locking the pointers is looking
  the number up.
-/
import Mathlib.Tactic
import DoubleTurnouts.Lib.Effect
import DoubleTurnouts.Lib.Run
import DoubleTurnouts.InfraController.StackFlow

namespace DoubleTurnouts

open Text Decimal

/-- `llm_task`, less its callback. -/
structure Task where
  model_ : Bytes
  response_format_ : Bytes
  inputs_ : List Bytes
  enoutput_ : Bool
  enstream_ : Bool
  deriving DecidableEq, Repr

/-- The `input` part of `parse_config`: a string, an array of strings, or nothing of use. -/
def parse_inputs : Option Json → Option (List Bytes)
  | some (.string s) => some [s]
  | some (.array items) => items.mapM Json.string?
  | _ => some []

/-- `parse_config`; `none` is the `catch` branch. -/
def parse_config (config_body : Json) : Option Task := do
  let model_ ← (← config_body.at? (str "model")).string?
  let response_format_ ← (← config_body.at? (str "response_format")).string?
  let enoutput_ ← (← config_body.at? (str "enoutput")).bool?
  let inputs_ ← parse_inputs (config_body.at? (str "input"))
  return { model_, response_format_, inputs_, enoutput_,
           enstream_ := (find (str "stream") response_format_).isSome }

/-- The derived part of an `llm_llm` object, the two statics, and the calls of
    `llm_task::inference` with the task's number. -/
structure Llm where
  task_count_ : Int
  llm_task_ : Map Int Task
  stream_buff : Map Int Bytes
  count : Int
  inferences : List (Int × Bytes)

abbrev Node := StackFlow Llm

abbrev LlmM := FlowM Llm

namespace Llm

open StackFlow

/-! ## Inference -/

/-- `llm_channel->send(..)`. -/
def channel_send (env : NodeEnv) (n : Int) (object : Bytes) (data : Json) : LlmM Unit := do
  let channel ← get_channel n
  let (channel, outs) ← liftExcept (channel.send env object data LLM_NO_ERROR [])
  set_channel n channel
  modify fun s => { s with outs := s.outs ++ outs }

/-- A chunk of streamed output. -/
def data_body (index : Int) (data : Bytes) (finish : Bool) : Json :=
  .object [(str "delta", .string (if finish then [] else data)), (str "finish", .bool finish),
    (str "index", .int index)]

def task_output (env : NodeEnv) (n : Int) (data : Bytes) (finish : Bool) : LlmM Unit := do
  let s ← get
  match s.self.llm_task_.lookup n, s.llm_task_channel_.lookup n with
  | some llm_task_obj, some llm_channel =>
      if llm_channel.enstream_ then
        -- one count for all tasks, and all their streams
        let index := s.self.count
        modify fun s =>
          { s with self.count := if finish then 0 else wrap32 (index + 1) }
        channel_send env n llm_task_obj.response_format_ (data_body index data finish)
      -- without streaming only the last call is sent, with its own data
      else if finish then
        channel_send env n llm_task_obj.response_format_ (.string data)
  | _, _ => pure ()

/-- `llm_task::inference` of task `n`. -/
def inference (env : NodeEnv) (n : Int) (msg : Bytes) : LlmM Unit := do
  modify fun s => { s with self.inferences := s.self.inferences ++ [(n, msg)] }
  task_output env n msg false
  task_output env n (str "hello") false
  task_output env n [] true

/-- `task_user_data` bound to task `n`. -/
def task_user_data (env : NodeEnv) (n : Int) (object data : Bytes) : LlmM Unit := do
  let s ← get
  match s.self.llm_task_.lookup n, s.llm_task_channel_.lookup n with
  | some _, some _ =>
      if data = [] ∨ data = str "None" then
        send_error env (-24) (str "The inference data is empty.") s.unit_name_
      else if (find (str "stream") object).isSome then
        -- one buffer for all tasks as well
        match decode_stream data s.self.stream_buff with
        | (.ok (true, _), stream_buff) =>
            modify fun s => { s with self.stream_buff := stream_buff }
        | (.ok (false, tmp_msg), stream_buff) => do
            modify fun s => { s with self.stream_buff := stream_buff }
            inference env n tmp_msg
        | (.error _, _) => do
            modify fun s => { s with self.stream_buff := ∅ }
            send_error env (-25) (str "Stream data index error.") s.unit_name_
      else inference env n data
  | _, _ => send_error env (-11) (str "Model run failed.") s.unit_name_

/-- `subscriber_event_call` of channel `n`. -/
def subscriber_event_call (env : NodeEnv) (n : Int) (_raw : Bytes) : LlmM Unit := do
  let channel ← get_channel n
  set_channel n (channel.take_user _raw)
  task_user_data env n (sample_json_str_get _raw (str "object"))
    (sample_json_str_get _raw (str "data"))

/-! ## Control -/

/-- `setup(work_id, object, data)`. -/
def setup (env : NodeEnv) (work_id _object data : Bytes) : LlmM Int := do
  let s ← get
  -- the channel of this very setup is in the table already
  if (Map.size s.llm_task_channel_ : Int) - 1 = s.self.task_count_ then
    send_error env (-21) (str "task full") s.unit_name_
    return -1
  let work_id_num ← liftExcept (sample_get_work_id_num work_id)
  let llm_channel ← get_channel work_id_num
  match env.json_parse data with
  | none =>
      send_error env (-2) (str "json format error.") s.unit_name_
      return -2
  | some config_body =>
      match parse_config config_body with
      | none =>
          send_error env (-5) (str "Model loading failed.") s.unit_name_
          return -1
      | some llm_task_obj =>
          let llm_channel :=
            { llm_channel with enoutput_ := true, enstream_ := llm_task_obj.enstream_ }
          -- An empty work id is the task's own subscription, which asks nobody for a URL.
          let (_, llm_channel) ← liftExcept (llm_channel.subscriber_work_id (fun _ => []) [])
          set_channel work_id_num llm_channel
          modify fun s =>
            { s with self.llm_task_ := s.self.llm_task_.insert work_id_num llm_task_obj }
          send env (str "None") LLM_NONE LLM_NO_ERROR work_id []
          return 0

/-- The body of a task's description. -/
def taskinfo_body (task : Task) : Json :=
  .object [(str "enoutput", .bool task.enoutput_),
    (str "inputs", .array (task.inputs_.map .string)), (str "model", .string task.model_),
    (str "response_format", .string task.response_format_)]

/-- `taskinfo(work_id, object, data)`. -/
def taskinfo (env : NodeEnv) (work_id _object _data : Bytes) : LlmM Unit := do
  let s ← get
  let work_id_num ← liftExcept (sample_get_work_id_num work_id)
  -- a work id without a number asks for the list
  if work_id_num = WORK_ID_NONE then
    let task_list := s.llm_task_channel_.entries.map fun e => Json.string e.2.work_id_
    send env (str "llm.tasklist") (.array task_list) LLM_NO_ERROR work_id []
  else
    match s.self.llm_task_.lookup work_id_num with
    | none => send_error env (-6) (str "Unit Does Not Exist") work_id
    | some llm_task_obj =>
        send env (str "llm.taskinfo") (taskinfo_body llm_task_obj) LLM_NO_ERROR work_id []

/-- `exit(work_id, object, data)`. -/
def exit (env : NodeEnv) (work_id _object _data : Bytes) : LlmM Int := do
  let s ← get
  let work_id_num ← liftExcept (sample_get_work_id_num work_id)
  match s.self.llm_task_.lookup work_id_num with
  | none =>
      send_error env (-6) (str "Unit Does Not Exist") work_id
      return -1
  | some _ =>
      let llm_channel ← get_channel work_id_num
      -- an empty URL stops all sockets of the channel
      set_channel work_id_num (llm_channel.stop_subscriber [])
      modify fun s => { s with self.llm_task_ := s.self.llm_task_.erase work_id_num }
      send env (str "None") LLM_NONE LLM_NO_ERROR work_id []
      return 0

/-- `llm_llm` overrides everything but `pause`. -/
def handlers (env : NodeEnv) : Handlers Llm where
  setup := Llm.setup env
  exit := Llm.exit env
  pause work_id _ _ := not_have_unit_action env work_id
  taskinfo := Llm.taskinfo env

end Llm

/-! ## The unit as a transition system -/

/-- What reaches the node: control events with their payload, a setup together with the
    manager's answer to the registration it causes, and a message on a task's inference
    channel. -/
inductive NodeEvent
  | setup (msg reply : Bytes)
  | exit (msg : Bytes)
  | pause (msg : Bytes)
  | taskinfo (msg : Bytes)
  | inference (n : Int) (raw : Bytes)
  deriving DecidableEq, Repr

/-- A channel receives inference messages once its own subscription is there. -/
def Channel.subscribed (channel : Channel) : Prop := ((channel.slot 0).1).isSome

instance (channel : Channel) : Decidable channel.subscribed :=
  inferInstanceAs (Decidable (_ = true))

def NodeEvent.handle (env : NodeEnv) : NodeEvent → LlmM Unit
  | .setup msg reply => StackFlow._setup (Llm.handlers env) reply msg
  | .exit msg => StackFlow._exit (Llm.handlers env) msg
  | .pause msg => StackFlow._pause (Llm.handlers env) msg
  | .taskinfo msg => StackFlow._taskinfo (Llm.handlers env) msg
  | .inference n raw => do
      match (← get).llm_task_channel_.lookup n with
      | none => pure ()
      | some channel => if channel.subscribed then Llm.subscriber_event_call env n raw

/-- The process: an exception that leaves a handler ends it. -/
structure NodeProcess where
  node : Node
  alive : Bool

namespace NodeProcess

/-- A node right after `main` has constructed it. -/
def initial : NodeProcess where
  node :=
    { unit_name_ := str "llm", request_id_ := [], out_zmq_url_ := [], status_ := 1,
      llm_task_channel_ := ∅,
      self := { task_count_ := 3, llm_task_ := ∅, stream_buff := ∅, count := 0,
                inferences := [] },
      outs := [], rpcs := [] }
  alive := true

def step (env : NodeEnv) (p : NodeProcess) (e : NodeEvent) : NodeProcess :=
  if p.alive then
    match (e.handle env).run p.node with
    | .ok _ node => ⟨node, true⟩
    | .error _ node => ⟨node, false⟩
  else p

/-- The node a step leaves behind. -/
theorem step_node (env : NodeEnv) (p : NodeProcess) (e : NodeEvent) :
    (step env p e).node = if p.alive then Effect.final (e.handle env) p.node else p.node := by
  unfold step Effect.final
  cases p.alive with
  | false => rfl
  | true => cases (e.handle env).run p.node <;> rfl

end NodeProcess

end DoubleTurnouts
