/-
  DoubleTurnouts.Node.Control

  What one control event does to the llm unit.  A setup is decided by
  `verdict`, a function of the state after registration and the configuration
  text; an exit and a taskinfo by the number their work id is read as.  Each
  handler then has one equation (`setup_run`, `exit_run`, `taskinfo_run`) that
  gives the final state or the exception, and the results about runs of the
  unit are read off these.
-/
import Mathlib.Tactic
import DoubleTurnouts.Node.Llm

namespace DoubleTurnouts

open Text Decimal

namespace Llm

open StackFlow

/-! ## Setup -/

/-- What the unit makes of a configuration: a refusal with its return value, code and
    message, or a task. -/
inductive Verdict
  | refuse (ret code : Int) (message : Bytes)
  | accept (task : Task)

/-- The decision of `llm_llm::setup`, in the order of its checks. -/
def verdict (env : NodeEnv) (s : Node) (data : Bytes) : Verdict :=
  if (Map.size s.llm_task_channel_ : Int) - 1 = s.self.task_count_ then
    .refuse (-1) (-21) (str "task full")
  else
    match env.json_parse data with
    | none => .refuse (-2) (-2) (str "json format error.")
    | some config_body =>
        match parse_config config_body with
        | none => .refuse (-1) (-5) (str "Model loading failed.")
        | some task => .accept task

theorem verdict_refuse_ne_zero {env : NodeEnv} {s : Node} {data : Bytes} {ret code : Int}
    {message : Bytes} (h : verdict env s data = .refuse ret code message) :
    ret ≠ 0 ∧ code ≠ 0 := by
  unfold verdict at h
  split at h
  · cases h; decide
  · split at h
    · cases h; decide
    · split at h
      · cases h; decide
      · cases h

/-- The channel of an accepted task: output on, and its own subscription. -/
def serving (channel : Channel) (task : Task) : Channel :=
  { channel with
    enoutput_ := true
    enstream_ := task.enstream_
    zmq_ := channel.zmq_.insert 0 (some ⟨channel.inference_url_, .sub⟩) }

/-- The tables after a task has been accepted under a number. -/
def withTask (s : Node) (n : Int) (channel : Channel) (task : Task) : Node :=
  { s.withChannel n (serving channel task) with
    self.llm_task_ := s.self.llm_task_.insert n task }

/-- `llm_llm::setup` for a work id whose channel is in the table. -/
theorem llm_setup_run (env : NodeEnv) {s : Node} {work_id : Bytes} {n : Int}
    {channel : Channel} (hn : sample_get_work_id_num work_id = .ok n)
    (hc : s.llm_task_channel_.lookup n = some channel) (object data : Bytes) :
    (Llm.setup env work_id object data).run s =
      match verdict env s data with
      | .refuse ret code message =>
          match body env s (str "None") LLM_NONE (error_body code message) s.unit_name_ with
          | .ok out_body => .ok ret (s.replied out_body)
          | .error e => .error e s
      | .accept task =>
          let s' := withTask s n channel task
          match body env s' (str "None") LLM_NONE LLM_NO_ERROR work_id with
          | .ok out_body => .ok 0 (s'.replied out_body)
          | .error e => .error e s' := by
  unfold Llm.setup verdict
  -- the checks in the order of the source: limit, JSON text, configuration
  by_cases hfull : (Map.size s.llm_task_channel_ : Int) - 1 = s.self.task_count_
  · simp only [hfull, if_true, EStateM.run_bind, EStateM.run_get, send_error]
    exact send_bind_run env _ _ _ _ (fun _ => pure (-1)) s
  · simp only [hfull, if_false, hn, get_channel_run, hc, EStateM.run_bind, EStateM.run_get,
      liftExcept_run]
    cases env.json_parse data with
    | none => exact send_bind_run env _ _ _ _ (fun _ => pure (-2)) s
    | some config_body =>
        cases htask : parse_config config_body with
        | none =>
            simp only [htask]
            exact send_bind_run env _ _ _ _ (fun _ => pure (-1)) s
        | some task =>
            simp only [htask]
            exact send_bind_run env _ _ _ _ (fun _ => pure 0) (withTask s n channel task)

/-- A setup, from the registration to its release if the unit refuses. -/
theorem setup_run (env : NodeEnv) {s : Node} (hname : ch '.' ∉ s.unit_name_)
    (reply zmq_url raw : Bytes) :
    (StackFlow.setup (handlers env) reply zmq_url raw).run s =
      match decode_register reply with
      | .error e =>
          .error e
            { s with rpcs := s.rpcs ++ [⟨str "sys", str "register_unit", s.unit_name_⟩] }
      | .ok (n, out_port, inference_port) =>
          let work_id := sample_get_work_id n s.unit_name_
          let s' := opened s n out_port inference_port zmq_url raw
          match verdict env s' (sample_json_str_get raw (str "data")) with
          | .refuse _ code message =>
              match body env s' (str "None") LLM_NONE (error_body code message) s.unit_name_ with
              | .ok out_body => .ok () ((s'.replied out_body).released n work_id)
              | .error e => .error e s'
          | .accept task =>
              let s'' := withTask s' n
                (openedChannel work_id out_port inference_port zmq_url raw) task
              match body env s'' (str "None") LLM_NONE LLM_NO_ERROR work_id with
              | .ok out_body => .ok () (s''.replied out_body)
              | .error e => .error e s'' := by
  cases hreply : decode_register reply with
  | error e => simp [StackFlow.setup, sys_register_unit_run, hreply]
  | ok p =>
      obtain ⟨n, out_port, inference_port⟩ := p
      -- the unit's name has no dot, so the handler finds the channel registered above
      have hn : sample_get_work_id_num (sample_get_work_id n s.unit_name_) = .ok n :=
        sample_get_work_id_num_work_id (isInt32_of_decode_register hreply) hname
      have hne : sample_get_work_id n s.unit_name_ ≠ [] := by simp [sample_get_work_id]
      rw [setup_opened_run (handlers env) hreply]
      simp only [handlers]
      rw [llm_setup_run env hn (AList.lookup_insert _)]
      simp only [opened_unit_name]
      cases hverdict : verdict env (opened s n out_port inference_port zmq_url raw)
          (sample_json_str_get raw (str "data")) with
      | refuse ret code message =>
          have hret := (verdict_refuse_ne_zero hverdict).1
          simp only
          generalize body env _ _ _ (error_body code message) _ = result
          cases result with
          | error e => rfl
          | ok out_body => simp [hret, sys_release_unit_run hne hn]
      | accept task =>
          simp only
          generalize body env _ _ _ LLM_NO_ERROR _ = result
          cases result <;> rfl

/-! ## Exit -/

/-- The node after a task has been stopped: its channel has no sockets left and the task is
    out of its table. -/
def stopped (s : Node) (n : Int) (channel : Channel) : Node :=
  { s.withChannel n (channel.stop_subscriber []) with
    self.llm_task_ := s.self.llm_task_.erase n }

/-- `llm_llm::exit`: the number the work id is read as decides. -/
theorem llm_exit_run (env : NodeEnv) (s : Node) (work_id object data : Bytes) :
    (Llm.exit env work_id object data).run s =
      match sample_get_work_id_num work_id with
      | .error e => .error e s
      | .ok n =>
          match s.self.llm_task_.lookup n with
          | none =>
              match body env s (str "None") LLM_NONE
                  (error_body (-6) (str "Unit Does Not Exist")) work_id with
              | .ok out_body => .ok (-1) (s.replied out_body)
              | .error e => .error e s
          | some _ =>
              match s.llm_task_channel_.lookup n with
              | none => .error .out_of_range s
              | some channel =>
                  let s' := stopped s n channel
                  match body env s' (str "None") LLM_NONE LLM_NO_ERROR work_id with
                  | .ok out_body => .ok 0 (s'.replied out_body)
                  | .error e => .error e s' := by
  unfold Llm.exit
  simp only [EStateM.run_bind, EStateM.run_get, liftExcept_run]
  cases sample_get_work_id_num work_id with
  | error e => rfl
  | ok n =>
      cases htask : s.self.llm_task_.lookup n with
      | none =>
          simp only [htask]
          exact send_bind_run env _ _ _ _ (fun _ => pure (-1)) s
      | some task =>
          simp only [htask, EStateM.run_bind, get_channel_run]
          cases s.llm_task_channel_.lookup n with
          | none => rfl
          | some channel => exact send_bind_run env _ _ _ _ (fun _ => pure 0) (stopped s n channel)

/-- An exit event, with the release after a task was stopped. -/
theorem exit_run (env : NodeEnv) (s : Node) (zmq_url raw : Bytes) :
    (StackFlow.exit (handlers env) zmq_url raw).run s =
      let work_id := sample_json_str_get raw (str "work_id")
      let s' := s.pushedTo zmq_url work_id
      match sample_get_work_id_num work_id with
      | .error e => .error e s'
      | .ok n =>
          match s'.self.llm_task_.lookup n with
          | none =>
              match body env s' (str "None") LLM_NONE
                  (error_body (-6) (str "Unit Does Not Exist")) work_id with
              | .ok out_body => .ok () (s'.replied out_body)
              | .error e => .error e s'
          | some _ =>
              match s'.llm_task_channel_.lookup n with
              | none => .error .out_of_range s'
              | some channel =>
                  let s'' := stopped s' n channel
                  match body env s'' (str "None") LLM_NONE LLM_NO_ERROR work_id with
                  | .ok out_body => (sys_release_unit (-1) work_id).run (s''.replied out_body)
                  | .error e => .error e s'' := by
  rw [StackFlow.exit_virtual_run]
  -- the virtual call ends with 0 only after a task was stopped
  simp only [handlers, llm_exit_run]
  generalize s.pushedTo zmq_url (sample_json_str_get raw (str "work_id")) = s'
  cases sample_get_work_id_num (sample_json_str_get raw (str "work_id")) with
  | error e => rfl
  | ok n =>
      simp only
      cases s'.self.llm_task_.lookup n with
      | none =>
          simp only
          generalize body env _ _ _ _ _ = result
          cases result <;> rfl
      | some task =>
          cases s'.llm_task_channel_.lookup n with
          | none => rfl
          | some channel =>
              simp only
              generalize body env _ _ _ _ _ = result
              cases result <;> rfl

/-! ## Taskinfo -/

/-- The reply to a taskinfo about everything: the work ids of the channels. -/
def task_list (s : Node) : Json :=
  .array (s.llm_task_channel_.entries.map fun e => .string e.2.work_id_)

/-- A taskinfo event. -/
theorem taskinfo_run (env : NodeEnv) (s : Node) (zmq_url raw : Bytes) :
    (StackFlow.taskinfo (handlers env) zmq_url raw).run s =
      let work_id := sample_json_str_get raw (str "work_id")
      let s' := s.pushedTo zmq_url work_id
      match sample_get_work_id_num work_id with
      | .error e => .error e s'
      | .ok n =>
          let reply :=
            if n = WORK_ID_NONE then
              body env s' (str "llm.tasklist") (task_list s') LLM_NO_ERROR work_id
            else
              match s'.self.llm_task_.lookup n with
              | none =>
                  body env s' (str "None") LLM_NONE
                    (error_body (-6) (str "Unit Does Not Exist")) work_id
              | some task =>
                  body env s' (str "llm.taskinfo") (taskinfo_body task) LLM_NO_ERROR work_id
          match reply with
          | .ok out_body => .ok () (s'.replied out_body)
          | .error e => .error e s' := by
  rw [StackFlow.taskinfo, StackFlow.inform_run]
  simp only [handlers, Llm.taskinfo, EStateM.run_bind, EStateM.run_get, liftExcept_run]
  generalize s.pushedTo zmq_url (sample_json_str_get raw (str "work_id")) = s'
  cases sample_get_work_id_num (sample_json_str_get raw (str "work_id")) with
  | error e => rfl
  | ok n =>
      by_cases hnone : n = WORK_ID_NONE
      · simp only [hnone, if_true, send_run]
        rfl
      · simp only [hnone, if_false]
        cases s'.self.llm_task_.lookup n with
        | none => exact send_run env _ _ _ _ s'
        | some task => exact send_run env _ _ _ _ s'

end Llm

/-! ## Control requests -/

/-- The action of a control request; a setup comes with the manager's answer. -/
inductive ControlAction
  | setup (reply : Bytes)
  | exit
  | pause
  | taskinfo
  deriving DecidableEq, Repr

/-- A request as the manager forwards it: the client's URL and text. -/
structure ControlRequest where
  action : ControlAction
  url : Bytes
  text : Bytes
  deriving DecidableEq, Repr

namespace ControlRequest

def event (r : ControlRequest) : NodeEvent :=
  let msg := set_param r.url r.text
  match r.action with
  | .setup reply => .setup msg reply
  | .exit => .exit msg
  | .pause => .pause msg
  | .taskinfo => .taskinfo msg

def request_id (r : ControlRequest) : Bytes := sample_json_str_get r.text (str "request_id")

def work_id (r : ControlRequest) : Bytes := sample_json_str_get r.text (str "work_id")

def data (r : ControlRequest) : Bytes := sample_json_str_get r.text (str "data")

end ControlRequest

/-- A client's configuration, and nlohmann on its text. -/
def configText : Bytes :=
  str "\x7b\"model\":\"m\",\"response_format\":\"llm.utf-8\",\"enoutput\":true\x7d"

def configBody : Json :=
  .object [(str "model", .string (str "m")), (str "response_format", .string (str "llm.utf-8")),
    (str "enoutput", .bool true)]

def configEnv (mode : SendMode) : NodeEnv where
  json_parse text := if text = configText then some configBody else none
  json_parse_valid := by
    intro text j h
    split_ifs at h
    cases h
    decide
  mode := mode

/-- A setup request with that configuration, answered with number 0. -/
def setupRequest : ControlRequest where
  action := .setup (set_param (str "0") (set_param (str "ipc://out") (str "ipc://inf")))
  url := str "ipc:///tmp/llm/8000.sock"
  text := str "\x7b\"request_id\":\"1\",\"work_id\":\"llm\",\"action\":\"setup\",\"data\":"
    ++ (configText ++ str "\x7d")

end DoubleTurnouts
