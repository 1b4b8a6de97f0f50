/-
  DoubleTurnouts.InfraController.ControlPath

  The way of a control request through a unit: the RPC thread finds its action
  in the table and puts the payload into the event queue, the event thread
  takes it out, decodes URL and text, sets the reply context and calls the
  virtual function of the action.  These functions are a parameter, so "the
  handler is invoked with u and j" is an equation that holds for all of them.

  Three of the four decoders agree.  `_pause` takes the URL for the text as
  well (`control_decoded_iff`).  None of them, and nothing that calls them,
  handles what `get_param` throws (`get_param_safe_iff`).
-/
import Mathlib.Tactic
import DoubleTurnouts.Lib.Effect
import DoubleTurnouts.HybridComm.RpcServer
import DoubleTurnouts.HybridComm.SizedParam
import DoubleTurnouts.InfraController.StackFlow

namespace DoubleTurnouts

open Text Decimal Effect

/-- `LOCAL_EVENT`. -/
inductive LocalEvent
  | none
  | setup
  | exit
  | pause
  | taskinfo
  deriving DecidableEq, Repr

/-- The virtual functions with two arguments. -/
structure RawHandlers (τ : Type) where
  setup : (zmq_url raw : Bytes) → FlowM τ Unit
  exit : (zmq_url raw : Bytes) → FlowM τ Unit
  pause : (zmq_url raw : Bytes) → FlowM τ Unit
  taskinfo : (zmq_url raw : Bytes) → FlowM τ Unit

variable {τ : Type}

/-! ## The event thread -/

namespace Sized

open StackFlow

/-- The decoders with the casts of `get_param`. -/
def _event (handler : (zmq_url raw : Bytes) → FlowM τ Unit) (msg : Bytes) : FlowM τ Unit :=
  _eventWith get_param handler msg

def _setup (vt : RawHandlers τ) : (msg : Bytes) → FlowM τ Unit := _event vt.setup

def _exit (vt : RawHandlers τ) : (msg : Bytes) → FlowM τ Unit := _event vt.exit

def _taskinfo (vt : RawHandlers τ) : (msg : Bytes) → FlowM τ Unit := _event vt.taskinfo

def _pause (vt : RawHandlers τ) (msg : Bytes) : FlowM τ Unit := _pauseWith get_param vt.pause msg

def decode_register (reply : Bytes) : Except Exn (Int × Bytes × Bytes) :=
  decode_registerWith get_param reply

/-- `sys_register_unit`, up to the number it returns. -/
def sys_register_unit (reply : Bytes) : FlowM τ Unit :=
  discard (sys_register_unitWith get_param reply)

/-- On messages below 2 GiB the decoders are those of `StackFlow`. -/
theorem _event_eq (handler : Bytes → Bytes → FlowM τ Unit) {msg : Bytes}
    (h : msg.length < 2 ^ 31 - 128) : _event handler msg = StackFlow._event handler msg := by
  rw [_event, _eventWith, get_param_eq h, get_param_eq h]
  rfl

theorem decode_register_eq {reply : Bytes} (h : reply.length < 2 ^ 31 - 128) :
    decode_register reply = StackFlow.decode_register reply := by
  simp only [decode_register, StackFlow.decode_register, decode_registerWith, get_param_eq h]
  cases hport : DoubleTurnouts.get_param reply 1 [] with
  | error e => simp only [Bind.bind, Except.bind]
  | ok str_port =>
      -- the inner pair is part of the message, or empty and the message is read again
      have hinner : ∀ index, get_param reply index str_port =
          DoubleTurnouts.get_param reply index str_port := by
        intro index
        by_cases hempty : str_port = []
        · rw [hempty, get_param_eq h]
        · have hlen := length_le_of_get_param hport
          rw [get_param_idata reply index hempty, DoubleTurnouts.get_param_idata reply index hempty,
            get_param_eq (by omega)]
      simp only [Bind.bind, Except.bind, hinner]

end Sized

/-- The listeners of the event queue. -/
def listener (vt : RawHandlers τ) : LocalEvent → (msg : Bytes) → FlowM τ Unit
  | .none, _ => pure ()
  | .setup, msg => Sized._setup vt msg
  | .exit, msg => Sized._exit vt msg
  | .pause, msg => Sized._pause vt msg
  | .taskinfo, msg => Sized._taskinfo vt msg

/-! ## The two threads -/

/-- The object and its event queue. -/
structure FlowQueue (τ : Type) where
  flow : StackFlow τ
  event_queue_ : List (LocalEvent × Bytes)

/-- The four RPC functions: the payload is queued, and the caller told `None`. -/
def enqueue (event : LocalEvent) : rpc_callback_fun (FlowQueue τ) := fun t data =>
  (some (str "None"), { t with event_queue_ := t.event_queue_ ++ [(event, data)] })

def _rpc_setup : rpc_callback_fun (FlowQueue τ) := enqueue .setup

def _rpc_exit : rpc_callback_fun (FlowQueue τ) := enqueue .exit

def _rpc_pause : rpc_callback_fun (FlowQueue τ) := enqueue .pause

def _rpc_taskinfo : rpc_callback_fun (FlowQueue τ) := enqueue .taskinfo

/-- The RPC server after the constructor, with what `zmq_bind` returned. -/
def constructed (flow : StackFlow τ) (bound : Int) : RpcServer (FlowQueue τ) :=
  let rpc_ctx_ := RpcServer.start ⟨flow, []⟩ (str "setup") _rpc_setup bound
  let rpc_ctx_ := (rpc_ctx_.register_rpc_action (str "pause") _rpc_pause 0).2
  let rpc_ctx_ := (rpc_ctx_.register_rpc_action (str "exit") _rpc_exit 0).2
  (rpc_ctx_.register_rpc_action (str "taskinfo") _rpc_taskinfo 0).2

/-- A request the RPC thread serves, or the event thread's turn. -/
inductive FlowInput
  | rpc (action data : Bytes)
  | process

namespace FlowQueue

/-- The event thread takes one event.  An exception ends the process. -/
def process (vt : RawHandlers τ) (r : RpcServer (FlowQueue τ)) : RpcServer (FlowQueue τ) :=
  match r.app.event_queue_ with
  | [] => r
  | (event, msg) :: rest =>
      -- `process` has taken the event out before its listener runs
      match (listener vt event msg).run r.app.flow with
      | .ok _ flow => { r with app := ⟨flow, rest⟩ }
      | .error _ flow => { r with app := ⟨flow, rest⟩, terminated := true }

def step (vt : RawHandlers τ) (r : RpcServer (FlowQueue τ)) (i : FlowInput) :
    RpcServer (FlowQueue τ) :=
  if r.terminated then r
  else
    match i with
    | .rpc action data => { r with app := (r.tryCall action data).2 }
    | .process => process vt r

end FlowQueue

/-! ## Control requests -/

inductive FlowAction
  | setup
  | exit
  | pause
  | taskinfo
  deriving DecidableEq, Repr

namespace FlowAction

def name : FlowAction → Bytes
  | .setup => str "setup"
  | .exit => str "exit"
  | .pause => str "pause"
  | .taskinfo => str "taskinfo"

def event : FlowAction → LocalEvent
  | .setup => .setup
  | .exit => .exit
  | .pause => .pause
  | .taskinfo => .taskinfo

/-- The virtual function of the action. -/
def handler (vt : RawHandlers τ) : FlowAction → (zmq_url raw : Bytes) → FlowM τ Unit
  | .setup => vt.setup
  | .exit => vt.exit
  | .pause => vt.pause
  | .taskinfo => vt.taskinfo

/-- All four. -/
def all : List FlowAction := [.setup, .exit, .pause, .taskinfo]

/-- The action with this name. -/
def ofName? (action : Bytes) : Option FlowAction := all.find? (·.name = action)

end FlowAction

/-- What the RPC thread has been asked to queue. -/
def requested : List FlowInput → List (LocalEvent × Bytes)
  | [] => []
  | .process :: ins => requested ins
  | .rpc action data :: ins =>
      ((FlowAction.ofName? action).toList.map fun a => (a.event, data)) ++ requested ins

/-- The handler is invoked with `u` and `j` in the reply context of this request, whatever the
    virtual functions are. -/
def DecodedAlike (flow : StackFlow τ) (a : FlowAction) (u j : Bytes) : Prop :=
  ∀ vt : RawHandlers τ, (listener vt a.event (set_param u j)).run flow =
    (a.handler vt u j).run
      { flow with request_id_ := sample_json_str_get j (str "request_id"), out_zmq_url_ := u }

/-- The condition: the unit has been started, the text's size is an `int`, and a pause has its
    URL for a text. -/
def Decodable (flow : StackFlow τ) (a : FlowAction) (u j : Bytes) : Prop :=
  flow.status_ ≠ 0 ∧ j.length < 2 ^ 31 ∧ (a = .pause → u = j)

/-- `P` holds of the request that the event thread is about to handle. -/
def Next (P : StackFlow τ → FlowAction → Bytes → Bytes → Prop) (r : RpcServer (FlowQueue τ))
    (i : FlowInput) : Prop :=
  match i with
  | .rpc _ _ => True
  | .process => r.terminated = false → ∀ a u j, u.length ≤ 127 →
      r.app.event_queue_.head? = some (a.event, set_param u j) → P r.app.flow a u j

/-! ## Decoding one request -/

/-- An outcome of decoding is right for all virtual functions only if it is the text and the
    unit has been started. -/
theorem decoded_right_iff (flow : StackFlow τ) (u j : Bytes) (data : Except Exn Bytes) :
    (∀ handler : Bytes → Bytes → FlowM τ Unit,
      (liftExcept data >>= fun data => StackFlow.handle u data handler).run flow =
        (handler u j).run (flow.addressed u j)) ↔ flow.status_ ≠ 0 ∧ data = .ok j := by
  constructor
  · intro h
    cases hdata : data with
    | error e =>
        -- a handler that does nothing tells a failed decoding apart
        have hpure := h fun _ _ => pure ()
        rw [hdata] at hpure
        cases hpure
    | ok text =>
        -- one that throws on `j` only tells all else apart
        have hthrow := h fun _ raw => if raw = j then throw .runtime_error else pure ()
        rw [hdata, EStateM.run_bind, StackFlow.liftExcept_run] at hthrow
        simp only [StackFlow.handle_run, if_true, StackFlow.throw_run] at hthrow
        by_cases hstatus : flow.status_ = 0
        · rw [if_neg (by simpa using hstatus)] at hthrow
          cases hthrow
        · refine ⟨hstatus, ?_⟩
          rw [if_pos hstatus] at hthrow
          by_cases htext : text = j
          · rw [htext]
          · rw [if_neg htext] at hthrow
            cases hthrow
  · rintro ⟨hstatus, rfl⟩ handler
    rw [EStateM.run_bind, StackFlow.liftExcept_run]
    simp only [StackFlow.handle_run, if_pos hstatus]

theorem get_param_zero_run {u : Bytes} (hu : u.length ≤ 127) (j : Bytes)
    (k : Bytes → FlowM τ Unit) (flow : StackFlow τ) :
    (liftExcept (Sized.get_param (set_param u j) 0 []) >>= k).run flow = (k u).run flow := by
  rw [Sized.get_param_even _ rfl, get_param_zero_set_param hu]
  rfl

/-- The text an action's decoder takes out of the message. -/
def decodedText (a : FlowAction) (u j : Bytes) : Except Exn Bytes :=
  if a = .pause then .ok u else Sized.get_param (set_param u j) 1 []

theorem _event_decoded_run (handler : Bytes → Bytes → FlowM τ Unit) {u : Bytes}
    (hu : u.length ≤ 127) (j : Bytes) (flow : StackFlow τ) :
    (Sized._event handler (set_param u j)).run flow =
      (liftExcept (Sized.get_param (set_param u j) 1 []) >>= fun data =>
        StackFlow.handle u data handler).run flow :=
  get_param_zero_run hu j (fun zmq_url => liftExcept (Sized.get_param (set_param u j) 1 []) >>=
    fun data => StackFlow.handle zmq_url data handler) flow

theorem listener_run (vt : RawHandlers τ) (a : FlowAction) {u : Bytes} (hu : u.length ≤ 127)
    (j : Bytes) (flow : StackFlow τ) :
    (listener vt a.event (set_param u j)).run flow =
      (liftExcept (decodedText a u j) >>= fun data =>
        StackFlow.handle u data (a.handler vt)).run flow := by
  cases a with
  | setup =>
      rw [decodedText, if_neg (by decide)]
      exact _event_decoded_run vt.setup hu j flow
  | exit =>
      rw [decodedText, if_neg (by decide)]
      exact _event_decoded_run vt.exit hu j flow
  | taskinfo =>
      rw [decodedText, if_neg (by decide)]
      exact _event_decoded_run vt.taskinfo hu j flow
  | pause =>
      -- the second read is the first one again
      have hfirst := get_param_zero_run hu j (fun zmq_url =>
        liftExcept (Sized.get_param (set_param u j) 0 []) >>= fun data =>
          StackFlow.handle zmq_url data vt.pause) flow
      exact hfirst.trans
        (get_param_zero_run hu j (fun data => StackFlow.handle u data vt.pause) flow)

theorem decodedAlike_iff (flow : StackFlow τ) (a : FlowAction) {u : Bytes}
    (hu : u.length ≤ 127) (j : Bytes) : DecodedAlike flow a u j ↔ Decodable flow a u j := by
  have hright := decoded_right_iff flow u j (decodedText a u j)
  -- one virtual function is called, so all four may be taken to be the same
  have hall : DecodedAlike flow a u j ↔ ∀ handler : Bytes → Bytes → FlowM τ Unit,
      (liftExcept (decodedText a u j) >>= fun data => StackFlow.handle u data handler).run flow =
        (handler u j).run (flow.addressed u j) := by
    constructor
    · intro h handler
      have hvt := h ⟨handler, handler, handler, handler⟩
      rw [listener_run _ a hu] at hvt
      cases a <;> exact hvt
    · intro h vt
      rw [listener_run vt a hu]
      exact h (a.handler vt)
  have htext : decodedText a u j = .ok j ↔ j.length < 2 ^ 31 ∧ (a = .pause → u = j) := by
    unfold decodedText
    split
    · rename_i hpause
      rw [Except.ok.injEq]
      refine ⟨fun huj => ⟨by rw [← huj]; omega, fun _ => huj⟩, fun h => h.2 hpause⟩
    · rename_i hpause
      rw [get_param_odd_set_param_iff hu j (by decide)]
      exact ⟨fun h => ⟨h, fun hp => absurd hp hpause⟩, And.left⟩
  rw [hall, hright, htext, Decodable]

/-! ## Whole runs -/

/-- The table the constructor leaves. -/
def flowActions : Map Bytes (ZmqFun (FlowQueue τ)) :=
  (((((∅ : Map Bytes (ZmqFun (FlowQueue τ))).insert (str "list_action") .list_action).insert
    (str "setup") (.user _rpc_setup)).insert (str "pause") (.user _rpc_pause)).insert
      (str "exit") (.user _rpc_exit)).insert (str "taskinfo") (.user _rpc_taskinfo)

theorem constructed_zmq_fun (flow : StackFlow τ) (bound : Int) :
    (constructed flow bound).zmq_fun_ = flowActions := rfl

/-- A call through this table queues the payload of a control action, and nothing else. -/
theorem tryCall_flowActions {r : RpcServer (FlowQueue τ)} (h : r.zmq_fun_ = flowActions)
    (action data : Bytes) :
    (r.tryCall action data).2 = { r.app with
      event_queue_ := r.app.event_queue_ ++
        (FlowAction.ofName? action).toList.map fun a => (a.event, data) } := by
  rw [RpcServer.tryCall, h]
  by_cases htaskinfo : action = str "taskinfo"
  · subst htaskinfo
    rfl
  by_cases hexit : action = str "exit"
  · subst hexit
    rfl
  by_cases hpause : action = str "pause"
  · subst hpause
    rfl
  by_cases hsetup : action = str "setup"
  · subst hsetup
    rfl
  -- `list_action` and unknown names leave the queue alone
  have hnone : FlowAction.ofName? action = none := by
    simp [FlowAction.ofName?, FlowAction.all, FlowAction.name, Ne.symm htaskinfo,
      Ne.symm hexit, Ne.symm hpause, Ne.symm hsetup]
  rw [hnone, flowActions, AList.lookup_insert_ne htaskinfo, AList.lookup_insert_ne hexit,
    AList.lookup_insert_ne hpause, AList.lookup_insert_ne hsetup]
  by_cases hlist : action = str "list_action"
  · subst hlist
    rw [AList.lookup_insert]
    simp [ZmqFun.call]
  · rw [AList.lookup_insert_ne hlist, AList.lookup_empty]
    simp

namespace FlowQueue

variable {vt : RawHandlers τ}

theorem process_zmq_fun (r : RpcServer (FlowQueue τ)) : (process vt r).zmq_fun_ = r.zmq_fun_ := by
  unfold process
  split
  · rfl
  · split <;> rfl

theorem process_queue (r : RpcServer (FlowQueue τ)) :
    (process vt r).app.event_queue_ = r.app.event_queue_.tail := by
  unfold process
  split
  · rename_i hqueue
    rw [hqueue]
    rfl
  · rename_i hqueue
    rw [hqueue]
    split <;> rfl

theorem exec_terminated {r : RpcServer (FlowQueue τ)} (h : r.terminated = true)
    (ins : List FlowInput) : Run.exec (step vt) r ins = r := by
  induction ins with
  | nil => rfl
  | cons i ins ih =>
      have hstep : step vt r i = r := if_pos h
      rw [Run.exec_cons, hstep]
      exact ih

/-- While the process runs, its queue is the last part of what was requested. -/
theorem exec_queue {r : RpcServer (FlowQueue τ)} (hfun : r.zmq_fun_ = flowActions)
    (ins : List FlowInput) (h : (Run.exec (step vt) r ins).terminated = false) :
    ∃ served, r.app.event_queue_ ++ requested ins =
      served ++ (Run.exec (step vt) r ins).app.event_queue_ := by
  induction ins generalizing r with
  | nil => exact ⟨[], by simp [requested]⟩
  | cons i ins ih =>
      -- a run that ends with the process up had it up in between
      have hrunning : ¬ r.terminated = true := by
        intro hdead
        rw [exec_terminated hdead, hdead] at h
        cases h
      cases i with
      | rpc action data =>
          have hstep : step vt r (.rpc action data) =
              { r with app := (r.tryCall action data).2 } := if_neg hrunning
          obtain ⟨served, hserved⟩ := @ih (step vt r (.rpc action data))
            (by rw [hstep]; exact hfun) h
          refine ⟨served, ?_⟩
          rw [Run.exec_cons, ← hserved, hstep, tryCall_flowActions hfun]
          simp [requested]
      | process =>
          have hstep : step vt r .process = process vt r := if_neg hrunning
          obtain ⟨served, hserved⟩ := @ih (step vt r .process)
            (by rw [hstep, process_zmq_fun]; exact hfun) h
          rw [hstep, process_queue] at hserved
          -- the event taken out, if any, is one more that was served
          refine ⟨r.app.event_queue_.head?.toList ++ served, ?_⟩
          rw [Run.exec_cons, hstep, List.append_assoc, ← hserved, requested, ← List.append_assoc]
          congr 1
          cases r.app.event_queue_ <;> rfl

/-- Requests are handled in the order in which they were made, and their decoding is right in a
    run exactly if each of them meets the condition when its turn comes. -/
theorem control_decoded_iff (vt : RawHandlers τ) (flow : StackFlow τ) (bound : Int)
    (ins : List FlowInput) :
    ((Run.exec (step vt) (constructed flow bound) ins).terminated = false →
      ∃ served, requested ins =
        served ++ (Run.exec (step vt) (constructed flow bound) ins).app.event_queue_) ∧
      (Run.AllSteps (step vt) (Next DecodedAlike) (constructed flow bound) ins ↔
        Run.AllSteps (step vt) (Next Decodable) (constructed flow bound) ins) := by
  refine ⟨fun h => exec_queue (constructed_zmq_fun flow bound) ins h, ?_⟩
  refine Run.AllSteps.iff_of_guarded (I := fun _ => True) (W := fun _ => True)
    (fun _ _ _ _ _ => trivial) ?_ trivial fun _ _ => trivial
  intro r i _ _
  cases i with
  | rpc action data => exact Iff.rfl
  | process =>
      constructor
      · intro h hrunning a u j hu hhead
        exact (decodedAlike_iff r.app.flow a hu j).mp (h hrunning a u j hu hhead)
      · intro h hrunning a u j hu hhead
        exact (decodedAlike_iff r.app.flow a hu j).mpr (h hrunning a u j hu hhead)

end FlowQueue

/-- A started unit of a class without state of its own. -/
def bareFlow : StackFlow Unit where
  unit_name_ := str "llm"
  request_id_ := []
  out_zmq_url_ := []
  status_ := 1
  llm_task_channel_ := ∅
  self := ()
  outs := []
  rpcs := []

def bareHandlers : RawHandlers Unit := ⟨fun _ _ => pure (), fun _ _ => pure (), fun _ _ => pure (),
  fun _ _ => pure ()⟩

def pauseUrl : Bytes := str "ipc:///tmp/llm/5000.sock"

def pauseText : Bytes :=
  str "\x7b\"request_id\": \"7\", \"work_id\": \"llm.0\", \"action\": \"pause\"\x7d"

/-- A pause is handled with its URL in the place of its text, and the request id is lost. -/
theorem pause_decoded_wrongly :
    pauseUrl.length ≤ 127 ∧
    (Run.exec (FlowQueue.step bareHandlers) (constructed bareFlow 0)
      [.rpc (str "pause") (set_param pauseUrl pauseText), .process]).app.flow.request_id_ = [] ∧
    sample_json_str_get pauseText (str "request_id") = str "7" ∧
    ¬ Run.AllSteps (FlowQueue.step bareHandlers) (Next DecodedAlike) (constructed bareFlow 0)
      [.rpc (str "pause") (set_param pauseUrl pauseText), .process] := by
  refine ⟨by decide, by decide +kernel, by decide +kernel, ?_⟩
  rintro ⟨-, hnext, -⟩
  have halike := hnext rfl .pause pauseUrl pauseText (by decide) rfl
  rw [decodedAlike_iff _ _ (by decide)] at halike
  exact absurd (halike.2.2 rfl) (by decide)

/-! ## Untrusted payloads -/

/-- The functions that read parameter `index` of a message, by its parity. -/
def paramReaders (vt : RawHandlers τ) (index : Int) : List (Bytes → FlowM τ Unit) :=
  if index % 2 = 0 then
    [Sized._setup vt, Sized._exit vt, Sized._pause vt, Sized._taskinfo vt, Sized.sys_register_unit]
  else [Sized._setup vt, Sized._exit vt, Sized._taskinfo vt, Sized.sys_register_unit]

/-- A part of the message comes back, or an error after which the reader goes on. -/
def ParamSafe (reader : Bytes → FlowM τ Unit) (s : StackFlow τ) (m : Bytes) (index : Int) : Prop :=
  (∃ part, Sized.get_param m index [] = .ok part ∧ part <:+: m) ∨
    (∃ e, Sized.get_param m index [] = .error e) ∧ ∃ s', (reader m).run s = .ok () s'

/-- The first byte, as a `char`, leaves room for what is asked for: for the first component it is
    a length inside the message; for the second one it may be -1, and the rest of the message is
    an `int`'s size up to a multiple of 2^32. -/
def ParamInside (m : Bytes) (index : Int) : Prop :=
  ∃ c rest, m = c :: rest ∧ signedChar c < m.length ∧
    if index % 2 = 0 then 0 ≤ signedChar c
    else -1 ≤ signedChar c ∧ ((m.length : Int) - signedChar c - 1) % 2 ^ 32 < 2 ^ 31

theorem stringAt_inside_iff (data : Bytes) (off n : Int) :
    (∃ part, stringAt data off n = .ok part ∧ part <:+: data) ↔
      0 ≤ n ∧ 0 ≤ off ∧ off + n ≤ data.length := by
  constructor
  · rintro ⟨part, hpart, -⟩
    unfold stringAt at hpart
    split at hpart
    · cases hpart
    · split at hpart
      · cases hpart
      · omega
  · rintro ⟨hn, hoff, hend⟩
    refine ⟨(data.drop off.toNat).take n.toNat, ?_, ?_⟩
    · rw [stringAt, if_neg (by omega), if_neg (by omega)]
    · exact (List.take_prefix _ _).isInfix.trans (List.drop_suffix _ _).isInfix

theorem wrap32_nonneg_iff (n : Int) : 0 ≤ wrap32 n ↔ n % 2 ^ 32 < 2 ^ 31 := by
  rw [wrap32, Int.bmod_def]
  split <;> omega

theorem get_param_inside_iff (m : Bytes) (index : Int) :
    (∃ part, Sized.get_param m index [] = .ok part ∧ part <:+: m) ↔ ParamInside m index := by
  cases m with
  | nil =>
      constructor
      · rintro ⟨part, hpart, -⟩
        cases hpart
      · rintro ⟨c, rest, hnil, -⟩
        cases hnil
  | cons c rest =>
      have hcons : ParamInside (c :: rest) index ↔ signedChar c < (c :: rest).length ∧
          if index % 2 = 0 then 0 ≤ signedChar c
          else -1 ≤ signedChar c ∧
            (((c :: rest).length : Int) - signedChar c - 1) % 2 ^ 32 < 2 ^ 31 := by
        constructor
        · rintro ⟨c', rest', hm, h⟩
          obtain ⟨rfl, rfl⟩ := List.cons.inj hm
          exact h
        · intro h
          exact ⟨c, rest, rfl, h⟩
      rw [hcons]
      by_cases hindex : index % 2 = 0
      · have hread : Sized.get_param (c :: rest) index [] =
            stringAt (c :: rest) 1 (signedChar c) := by
          simp [Sized.get_param, get_paramIn, hindex]
        rw [hread, stringAt_inside_iff, if_pos hindex]
        omega
      · have hnonneg := wrap32_nonneg_iff ((c :: rest).length - signedChar c - 1)
        have hrange := isInt32_wrap32 ((c :: rest).length - signedChar c - 1)
        -- a size that is not negative is the rest of the message, less a multiple of 2^32
        have hvalue : 0 ≤ wrap32 ((c :: rest).length - signedChar c - 1) →
            wrap32 ((c :: rest).length - signedChar c - 1) =
              ((c :: rest).length - signedChar c - 1) % 2 ^ 32 := by
          intro hpos
          rw [wrap32, Int.bmod_def] at hpos ⊢
          split at hpos <;> rename_i hlt
          · rw [if_pos hlt]
            rfl
          · omega
        rw [Sized.get_param_odd c rest hindex, stringAt_inside_iff, if_neg hindex, hnonneg]
        omega

/-- Only the parity of the number matters. -/
theorem get_param_parity (m : Bytes) (index : Int) :
    Sized.get_param m index [] = Sized.get_param m (index % 2) [] := by
  rcases Int.emod_two_eq_zero_or_one index with h | h
  · rw [h, Sized.get_param_even m h, Sized.get_param_even m rfl]
  · rw [h]
    cases m with
    | nil => rfl
    | cons c rest =>
        rw [Sized.get_param_odd c rest (by omega), Sized.get_param_odd c rest (by decide)]

theorem liftExcept_error_run {α : Type} {x : Except Exn α} {e : Exn} (h : x = .error e)
    (k : α → FlowM τ Unit) (s : StackFlow τ) : (liftExcept x >>= k).run s = .error e s := by
  rw [h]
  rfl

/-- An event handler passes on what either read throws. -/
theorem _event_error (handler : Bytes → Bytes → FlowM τ Unit) {m : Bytes} {index : Int} {e : Exn}
    (hindex : index = 0 ∨ index = 1) (h : Sized.get_param m index [] = .error e)
    (s : StackFlow τ) : ∃ e' s', (Sized._event handler m).run s = .error e' s' := by
  cases hfirst : Sized.get_param m 0 [] with
  | error e' => exact ⟨e', s, liftExcept_error_run hfirst _ s⟩
  | ok u =>
      rcases hindex with rfl | rfl
      · rw [hfirst] at h
        cases h
      · refine ⟨e, s, ?_⟩
        rw [Sized._event, StackFlow._eventWith, hfirst, h]
        rfl

/-- So does the registration. -/
theorem decode_register_error {m : Bytes} {index : Int} {e : Exn} (hindex : index = 0 ∨ index = 1)
    (h : Sized.get_param m index [] = .error e) : ∃ e', Sized.decode_register m = .error e' := by
  cases hdecode : Sized.decode_register m with
  | error e' => exact ⟨e', rfl⟩
  | ok r =>
      -- a decoding that succeeds has read both components
      unfold Sized.decode_register StackFlow.decode_registerWith at hdecode
      obtain ⟨_, hone, hdecode⟩ := exists_of_bind_eq_ok hdecode
      obtain ⟨_, -, hdecode⟩ := exists_of_bind_eq_ok hdecode
      obtain ⟨_, -, hdecode⟩ := exists_of_bind_eq_ok hdecode
      obtain ⟨_, hzero, -⟩ := exists_of_bind_eq_ok hdecode
      rcases hindex with rfl | rfl
      · rw [hzero] at h
        cases h
      · rw [hone] at h
        cases h

theorem sys_register_unit_error {m : Bytes} {index : Int} {e : Exn}
    (hindex : index = 0 ∨ index = 1) (h : Sized.get_param m index [] = .error e)
    (s : StackFlow τ) : ∃ e' s', (Sized.sys_register_unit m).run s = .error e' s' := by
  obtain ⟨e', he'⟩ := decode_register_error hindex h
  refine ⟨e', { s with rpcs := s.rpcs ++ [⟨str "sys", str "register_unit", s.unit_name_⟩] }, ?_⟩
  rw [Sized.decode_register] at he'
  rw [Sized.sys_register_unit, StackFlow.sys_register_unitWith, he']
  rfl

/-- No reader goes on after an error. -/
theorem reader_error {vt : RawHandlers τ} {index : Int} {reader : Bytes → FlowM τ Unit}
    (hreader : reader ∈ paramReaders vt index) {m : Bytes} {e : Exn}
    (h : Sized.get_param m index [] = .error e) (s : StackFlow τ) :
    ∃ e' s', (reader m).run s = .error e' s' := by
  rw [get_param_parity] at h
  have hparity := Int.emod_two_eq_zero_or_one index
  unfold paramReaders at hreader
  split at hreader
  · -- `_pause` is among the readers of an even number only
    rename_i heven
    simp only [List.mem_cons, List.not_mem_nil, or_false] at hreader
    rcases hreader with rfl | rfl | rfl | rfl | rfl
    · exact _event_error vt.setup hparity h s
    · exact _event_error vt.exit hparity h s
    · rw [heven] at h
      exact ⟨e, s, liftExcept_error_run h _ s⟩
    · exact _event_error vt.taskinfo hparity h s
    · exact sys_register_unit_error hparity h s
  · simp only [List.mem_cons, List.not_mem_nil, or_false] at hreader
    rcases hreader with rfl | rfl | rfl | rfl
    · exact _event_error vt.setup hparity h s
    · exact _event_error vt.exit hparity h s
    · exact _event_error vt.taskinfo hparity h s
    · exact sys_register_unit_error hparity h s

/-- For every message and every number: reading is safe for each of its readers if and only if the
    first byte fits.  Below 2 GiB the readers are those that the unit's model uses. -/
theorem get_param_safe_iff (vt : RawHandlers τ) (s : StackFlow τ) (m : Bytes) (index : Int)
    (reader : Bytes → FlowM τ Unit) (hreader : reader ∈ paramReaders vt index) :
    (ParamSafe reader s m index ↔ ParamInside m index) ∧
      (m.length < 2 ^ 31 - 128 → Sized.decode_register m = StackFlow.decode_register m ∧
        ∀ handler : Bytes → Bytes → FlowM τ Unit,
          Sized._event handler m = StackFlow._event handler m) := by
  refine ⟨?_, fun hlen => ⟨Sized.decode_register_eq hlen, fun handler =>
    Sized._event_eq handler hlen⟩⟩
  rw [← get_param_inside_iff]
  constructor
  · rintro (hpart | ⟨⟨e, he⟩, s', hrun⟩)
    · exact hpart
    · obtain ⟨e', s'', herror⟩ := reader_error hreader he s
      rw [hrun] at herror
      cases herror
  · exact fun hpart => .inl hpart

theorem get_param_safe_iff_pair :
    ParamSafe (Sized._taskinfo bareHandlers) bareFlow (set_param (str "u") (str "j")) 3 := by
  refine (get_param_safe_iff bareHandlers bareFlow _ 3 _ ?_).1.mpr ?_
  · rw [paramReaders, if_neg (by decide)]
    simp
  · exact ⟨1, str "uj", rfl, by decide, by decide⟩

/-- The empty message of a call that timed out, and a length byte above 127. -/
theorem hostile_payloads_unsafe :
    ¬ ParamSafe Sized.sys_register_unit bareFlow [] 1 ∧
      ¬ ParamSafe (Sized._exit bareHandlers) bareFlow (200 :: str "ipc://x") 0 := by
  constructor
  · rintro (⟨part, hpart, -⟩ | ⟨-, s', hrun⟩)
    · cases hpart
    · cases hrun
  · rintro (⟨part, hpart, -⟩ | ⟨-, s', hrun⟩)
    · cases hpart
    · cases hrun

end DoubleTurnouts
