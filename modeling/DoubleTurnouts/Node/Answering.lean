/-
  DoubleTurnouts.Node.Answering

  One inference of the llm unit while its event thread goes on.  The
  inference runs in the receiver thread of its channel and makes its calls of
  `task_output` one by one; between two of them the event thread handles
  control events.  Exit, pause and taskinfo set the push URL of the channel
  they name before anything is checked, so their handlers are cut there
  (`before`, `virtual`) and a call may come in between.

  While it runs, the inference owns its task and channel (`task_user_data` has
  locked both).  They stay what they are when the tables get other entries;
  `attached` says that the channel is still the table's.  An exit of the task
  itself waits in `stop_subscriber` for the thread the inference runs in.
-/
import Mathlib.Tactic
import DoubleTurnouts.Node.Replies

namespace DoubleTurnouts

open Text Decimal Effect StackFlow

/-! ## Control events in two parts -/

/-- The events that set a push URL first. -/
inductive Inquiry
  | exit
  | pause
  | taskinfo
  deriving DecidableEq, Repr

namespace Inquiry

def event (q : Inquiry) (msg : Bytes) : NodeEvent :=
  match q with
  | .exit => .exit msg
  | .pause => .pause msg
  | .taskinfo => .taskinfo msg

/-- The URL and the text a handler gets; `_pause` takes the URL for both. -/
def read (q : Inquiry) (msg : Bytes) : Except Exn (Bytes × Bytes) := do
  let zmq_url ← get_param msg 0 []
  let raw ← match q with
    -- the slip of _pause
    | .pause => get_param msg 0 []
    | .exit | .taskinfo => get_param msg 1 []
  return (zmq_url, raw)

/-- The handler up to the virtual function, with the text it hands on. -/
def before (q : Inquiry) (msg : Bytes) : LlmM (Option Bytes) := do
  let (zmq_url, raw) ← liftExcept (q.read msg)
  modify fun s =>
    { s with
      request_id_ := sample_json_str_get raw (str "request_id")
      out_zmq_url_ := zmq_url }
  if (← get).status_ ≠ 0 then
    try_set_push_url zmq_url (sample_json_str_get raw (str "work_id"))
    return some raw
  return none

/-- The virtual function, and the release after an exit. -/
def virtual (env : NodeEnv) (q : Inquiry) (raw : Bytes) : LlmM Unit := do
  let work_id := sample_json_str_get raw (str "work_id")
  let object := sample_json_str_get raw (str "object")
  let data := sample_json_str_get raw (str "data")
  match q with
  | .exit => do
      let ret ← Llm.exit env work_id object data
      if ret = 0 then sys_release_unit (-1) work_id
  | .pause => not_have_unit_action env work_id
  | .taskinfo => Llm.taskinfo env work_id object data

/-- The handler behind the event. -/
def handler (env : NodeEnv) (q : Inquiry) : (zmq_url raw : Bytes) → LlmM Unit :=
  match q with
  | .exit => StackFlow.exit (Llm.handlers env)
  | .pause => StackFlow.pause (Llm.handlers env)
  | .taskinfo => StackFlow.taskinfo (Llm.handlers env)

theorem event_run (env : NodeEnv) (q : Inquiry) (msg : Bytes) (s : Node) :
    ((q.event msg).handle env).run s =
      match q.read msg with
      | .error e => .error e s
      | .ok (zmq_url, raw) => (StackFlow.handle zmq_url raw (q.handler env)).run s := by
  cases q with
  | exit =>
      simp only [event, NodeEvent.handle, _exit, _event, _eventWith, read, EStateM.run_bind,
        liftExcept_run]
      cases get_param msg 0 [] with
      | error e => rfl
      | ok zmq_url => cases get_param msg 1 [] <;> rfl
  | pause =>
      simp only [event, NodeEvent.handle, _pause, _pauseWith, read, EStateM.run_bind,
        liftExcept_run]
      cases get_param msg 0 [] <;> rfl
  | taskinfo =>
      simp only [event, NodeEvent.handle, _taskinfo, _event, _eventWith, read, EStateM.run_bind,
        liftExcept_run]
      cases get_param msg 0 [] with
      | error e => rfl
      | ok zmq_url => cases get_param msg 1 [] <;> rfl

theorem handler_run (env : NodeEnv) (q : Inquiry) (zmq_url raw : Bytes) (s : Node) :
    (q.handler env zmq_url raw).run s =
      (q.virtual env raw).run (s.pushedTo zmq_url (sample_json_str_get raw (str "work_id"))) := by
  cases q with
  | exit =>
      simp only [handler, StackFlow.exit, EStateM.run_bind, try_set_push_url_run]
      simp only [virtual, EStateM.run_bind]
      rfl
  | pause => exact inform_run _ _ _ _
  | taskinfo => exact inform_run _ _ _ _

theorem before_run (q : Inquiry) (msg : Bytes) (s : Node) :
    (q.before msg).run s =
      match q.read msg with
      | .error e => .error e s
      | .ok (zmq_url, raw) =>
          let s' := s.addressed zmq_url raw
          if s.status_ ≠ 0 then
            .ok (some raw) (s'.pushedTo zmq_url (sample_json_str_get raw (str "work_id")))
          else .ok none s' := by
  unfold before
  simp only [EStateM.run_bind, liftExcept_run]
  cases q.read msg with
  | error e => rfl
  | ok p =>
      obtain ⟨zmq_url, raw⟩ := p
      by_cases hs : s.status_ = 0
      · simp [hs, addressed]
      · simp only [EStateM.run_modify, EStateM.run_get, EStateM.run_bind, ne_eq, hs,
          not_false_eq_true, if_true, try_set_push_url_run]
        rfl

/-- The two parts, one after the other, are the handler. -/
theorem handle_run (env : NodeEnv) (q : Inquiry) (msg : Bytes) (s : Node) :
    ((q.event msg).handle env).run s =
      match (q.before msg).run s with
      | .error e s' => .error e s'
      | .ok (some raw) s' => (q.virtual env raw).run s'
      | .ok none s' => .ok () s' := by
  rw [before_run, event_run]
  cases q.read msg with
  | error e => rfl
  | ok p =>
      obtain ⟨zmq_url, raw⟩ := p
      simp only
      rw [StackFlow.handle_run, handler_run]
      split <;> rfl

end Inquiry

/-! ## An inference and the event thread -/

/-- What may happen next: the inference makes its next call, or the event thread handles a
    setup, starts with another event, or goes on with the one it has started. -/
inductive Turn
  | chunk
  | setup (msg reply : Bytes)
  | before (q : Inquiry) (msg : Bytes)
  | virtual
  deriving DecidableEq, Repr

/-- The inference of task `n`: the objects it owns, the calls it has still to make, and what
    the calls have sent.  `inHand` is the event the event thread has started with. -/
structure Answering where
  node : Node
  alive : Bool
  n : Int
  task : Task
  channel : Channel
  attached : Bool
  calls : List (Bytes × Bool)
  inHand : Option (Inquiry × Bytes)
  sent : List Out

namespace Answering

/-- `llm_task::inference`. -/
def inferenceCalls (msg : Bytes) : List (Bytes × Bool) :=
  [(msg, false), (str "hello", false), ([], true)]

/-- A message that runs the model of a subscribed channel: `subscriber_event_call` up to the
    first call of `task_output`. -/
def start (s : Node) (n : Int) (raw : Bytes) : Option Answering :=
  match s.llm_task_channel_.lookup n, s.self.llm_task_.lookup n with
  | some channel, some task =>
      if channel.subscribed then
        match Llm.intake s n (sample_json_str_get raw (str "object"))
            (sample_json_str_get raw (str "data")) with
        | .infer msg stream_buff =>
            let channel := channel.take_user raw
            let s := Llm.withBuff (s.withChannel n channel) stream_buff
            some
              { node := { s with self.inferences := s.self.inferences ++ [(n, msg)] }
                alive := true
                n := n
                task := task
                channel := channel
                attached := true
                calls := inferenceCalls msg
                inHand := none
                sent := [] }
        | _ => none
      else none
  | _, _ => none

/-- `llm_channel->send(..)` of `task_output`, on the channel the inference owns. -/
def channel_send (env : NodeEnv) (s : Answering) (object : Bytes) (data : Json) : Answering :=
  match s.channel.send env object data LLM_NO_ERROR [] with
  | .error _ => { s with alive := false }
  | .ok (channel, outs) =>
      -- a channel that has left the table is still sent through
      let node := if s.attached then s.node.withChannel s.n channel else s.node
      { s with
        channel := channel
        node := { node with outs := node.outs ++ outs }
        sent := s.sent ++ outs }

def task_output (env : NodeEnv) (s : Answering) (data : Bytes) (finish : Bool) : Answering :=
  if s.channel.enstream_ then
    let index := s.node.self.count
    let node := { s.node with self.count := if finish then 0 else wrap32 (index + 1) }
    channel_send env { s with node := node } s.task.response_format_
      (Llm.data_body index data finish)
  else if finish then channel_send env s s.task.response_format_ (.string data)
  else s

/-- The tables after the event thread has worked on them. -/
def withNode (s : Answering) (node : Node) : Answering :=
  if s.attached then
    match node.llm_task_channel_.lookup s.n with
    | some channel => { s with node := node, channel := channel }
    -- the entry is gone: the inference keeps its own pointer
    | none => { s with node := node, attached := false }
  else { s with node := node }

/-- A setup that is given the number of the running task puts a new channel in the table. -/
def replaces (s : Answering) (reply : Bytes) : Bool :=
  match decode_register reply with
  | .ok (n, _, _) => n = s.n
  | .error _ => false

def detached (s : Answering) (reply : Bytes) : Answering :=
  if s.replaces reply then { s with attached := false } else s

/-- An exit of the task waits for the thread the inference runs in. -/
def waits (s : Answering) (q : Inquiry) (raw : Bytes) : Bool :=
  q = .exit ∧ s.attached ∧ s.calls ≠ [] ∧
    (sample_get_work_id_num (sample_json_str_get raw (str "work_id"))).toOption = some s.n

def step (env : NodeEnv) (s : Answering) (t : Turn) : Answering :=
  if !s.alive then s
  else
    match t with
    | .chunk =>
        match s.calls with
        | [] => s
        | (data, finish) :: rest => task_output env { s with calls := rest } data finish
    | .setup msg reply =>
        if s.inHand.isSome then s
        else
          -- the new channel is entered before the unit decides
          let s := s.detached reply
          match (_setup (Llm.handlers env) reply msg).run s.node with
          | .ok _ node => s.withNode node
          | .error _ node => { s.withNode node with alive := false }
    | .before q msg =>
        if s.inHand.isSome then s
        else
          match (q.before msg).run s.node with
          | .ok raw node => { s.withNode node with inHand := raw.map (q, ·) }
          | .error _ node => { s.withNode node with alive := false }
    | .virtual =>
        match s.inHand with
        | none => s
        | some (q, raw) =>
            if s.waits q raw then s
            else
              match (q.virtual env raw).run s.node with
              | .ok _ node => { s.withNode node with inHand := none }
              | .error _ node => { s.withNode node with alive := false }

/-- The condition on a turn: an event that names the running task asks for its answer at the
    same URL. -/
def Undisturbed (url : Bytes) (s : Answering) : Turn → Prop
  | .before q msg => ∀ p ∈ (q.read msg).toOption, s.attached = true →
      (sample_get_work_id_num (sample_json_str_get p.2 (str "work_id"))).toOption = some s.n →
      p.1 = url
  | _ => True

/-- While the tables have its task and channel, a call acts on them as `task_output` does. -/
theorem task_output_node (env : NodeEnv) {s : Answering} (hattached : s.attached = true)
    (hchannel : s.node.llm_task_channel_.lookup s.n = some s.channel)
    (htask : s.node.self.llm_task_.lookup s.n = some s.task) (data : Bytes) (finish : Bool) :
    (s.task_output env data finish).node =
      final (Llm.task_output env s.n data finish) s.node := by
  -- sending through the owned channel and sending through the table are the same
  have hsend : ∀ (s : Answering) (object : Bytes) (body : Json), s.attached = true →
      s.node.llm_task_channel_.lookup s.n = some s.channel →
      (s.channel_send env object body).node =
        final (Llm.channel_send env s.n object body) s.node := by
    intro s object body hattached hchannel
    unfold channel_send final
    rw [Llm.channel_send_run env hchannel]
    cases s.channel.send env object body LLM_NO_ERROR [] with
    | error e => rfl
    | ok p => simp [hattached, withChannel]
  unfold task_output final Llm.task_output
  simp only [EStateM.run_bind, EStateM.run_get, htask, hchannel]
  by_cases hstream : s.channel.enstream_ = true
  · simp only [hstream, if_true, EStateM.run_bind, EStateM.run_modify]
    exact hsend _ _ _ hattached hchannel
  · simp only [hstream]
    cases finish with
    | false => rfl
    | true => exact hsend _ _ _ hattached hchannel

end Answering

/-! ## What the event thread leaves alone -/

/-- The unit keeps its name, and, if `c`, the channel under `n` stays as it is or is gone. -/
structure Leaves (n : Int) (c : Prop) (s s' : Node) : Prop where
  unit_name_ : s'.unit_name_ = s.unit_name_
  channel : c → s'.llm_task_channel_.lookup n = s.llm_task_channel_.lookup n ∨
    s'.llm_task_channel_.lookup n = none

instance (n : Int) (c : Prop) : IsPreorder Node (Leaves n c) where
  refl _ := ⟨rfl, fun _ => .inl rfl⟩
  trans := by
    rintro s s' s'' ⟨hname, hchannel⟩ ⟨hname', hchannel'⟩
    refine ⟨hname'.trans hname, fun hc => ?_⟩
    rcases hchannel' hc with hsame | hgone
    · rw [hsame]
      exact hchannel hc
    · exact .inr hgone

namespace Leaves

variable {n : Int} {c : Prop}

theorem of_same {s s' : Node} (hname : s'.unit_name_ = s.unit_name_)
    (hchannels : s'.llm_task_channel_ = s.llm_task_channel_) : Leaves n c s s' :=
  ⟨hname, fun _ => .inl (by rw [hchannels])⟩

theorem withChannel {m : Int} (h : c → m ≠ n) (s : Node) (channel : Channel) :
    Leaves n c s (s.withChannel m channel) :=
  ⟨rfl, fun hc => .inl (AList.lookup_insert_ne (h hc).symm)⟩

theorem released (s : Node) (m : Int) (work_id : Bytes) : Leaves n c s (s.released m work_id) := by
  refine ⟨rfl, fun _ => ?_⟩
  show (s.llm_task_channel_.erase m).lookup n = _ ∨ (s.llm_task_channel_.erase m).lookup n = none
  rcases eq_or_ne n m with rfl | hne
  · exact .inr (AList.lookup_erase _ _)
  · exact .inl (AList.lookup_erase_ne hne)

theorem send (env : NodeEnv) (object : Bytes) (data error_msg : Json) (work_id : Bytes) :
    Within (Leaves n c) (StackFlow.send env object data error_msg work_id [] : LlmM Unit) := by
  intro s
  unfold final
  rw [send_run]
  cases body env s object data error_msg work_id <;> exact of_same rfl rfl

theorem sys_release_unit (m : Int) (work_id : Bytes) :
    Within (Leaves n c) (StackFlow.sys_release_unit m work_id : LlmM Unit) := by
  intro s
  cases hn : sample_get_work_id_num work_id with
  | ok k =>
      obtain ⟨m', work_id', hrun⟩ := sys_release_unit_ok hn m s
      unfold final
      rw [hrun]
      exact released s m' work_id'
  | error e =>
      -- an empty work id is released by the number, any other that has none throws
      by_cases hempty : work_id = []
      · have hrun : (StackFlow.sys_release_unit m work_id).run s =
            .ok () (s.released m (sample_get_work_id m s.unit_name_)) := by
          simp [StackFlow.sys_release_unit, hempty, StackFlow.released]
        unfold final
        rw [hrun]
        exact released s m _
      · have hrun : (StackFlow.sys_release_unit m work_id).run s = .error e s := by
          simp [StackFlow.sys_release_unit, hempty, hn]
        unfold final
        rw [hrun]
        exact refl_of (Leaves n c) s

theorem llm_exit (env : NodeEnv) {work_id : Bytes}
    (h : c → sample_get_work_id_num work_id ≠ .ok n) (object data : Bytes) :
    Within (Leaves n c) (Llm.exit env work_id object data) := by
  intro s
  unfold final
  rw [Llm.llm_exit_run]
  cases hm : sample_get_work_id_num work_id with
  | error e => exact refl_of (Leaves n c) s
  | ok m =>
      simp only
      cases s.self.llm_task_.lookup m with
      | none =>
          simp only
          generalize body env _ _ _ _ _ = result
          cases result <;> exact of_same rfl rfl
      | some task =>
          cases s.llm_task_channel_.lookup m with
          | none => exact refl_of (Leaves n c) s
          | some channel =>
              have hset := withChannel (n := n) (c := c) (fun hc heq => h hc (heq ▸ hm)) s
                (channel.stop_subscriber [])
              simp only
              generalize body env _ _ _ _ _ = result
              cases result <;> exact ⟨hset.unit_name_, hset.channel⟩

theorem llm_taskinfo (env : NodeEnv) (work_id object data : Bytes) :
    Within (Leaves n c) (Llm.taskinfo env work_id object data) := by
  refine .bind .get fun s => .bind (.liftExcept _) fun m => .ite (send env _ _ _ _) ?_
  split
  · exact send env _ _ _ _
  · exact send env _ _ _ _

/-- A setup that is given another number. -/
theorem setup (env : NodeEnv) {reply : Bytes}
    (h : c → ∀ m urls, decode_register reply = .ok (m, urls) → m ≠ n) {s : Node}
    (hname : ch '.' ∉ s.unit_name_) (zmq_url raw : Bytes) :
    Leaves n c s (final (StackFlow.setup (Llm.handlers env) reply zmq_url raw) s) := by
  unfold final
  rw [Llm.setup_run env hname]
  cases hreply : decode_register reply with
  | error e => exact of_same rfl rfl
  | ok p =>
      obtain ⟨m, out_port, inference_port⟩ := p
      have hopened : Leaves n c s (s.opened m out_port inference_port zmq_url raw) := by
        have hset := withChannel (fun hc => h hc m _ hreply) s
          (openedChannel (sample_get_work_id m s.unit_name_) out_port inference_port zmq_url raw)
        exact ⟨hset.unit_name_, hset.channel⟩
      simp only
      generalize s.opened m out_port inference_port zmq_url raw = s' at hopened ⊢
      cases Llm.verdict env s' (sample_json_str_get raw (str "data")) with
      | refuse ret code message =>
          simp only
          generalize body env _ _ _ _ _ = result
          cases result with
          | error e => exact hopened
          | ok out_body =>
              have hreleased : Leaves n c s' ((s'.replied out_body).released m
                  (sample_get_work_id m s.unit_name_)) := by
                have hgone := released (n := n) (c := c) (s'.replied out_body) m
                  (sample_get_work_id m s.unit_name_)
                exact ⟨hgone.unit_name_, hgone.channel⟩
              exact trans_of (Leaves n c) hopened hreleased
      | accept task =>
          have hset := withChannel (fun hc => h hc m _ hreply) s' (Llm.serving
            (openedChannel (sample_get_work_id m s.unit_name_) out_port inference_port zmq_url raw)
            task)
          have hwith : Leaves n c s' (Llm.withTask s' m
              (openedChannel (sample_get_work_id m s.unit_name_) out_port inference_port zmq_url
                raw) task) := ⟨hset.unit_name_, hset.channel⟩
          have htask := trans_of (Leaves n c) hopened hwith
          simp only
          generalize body env _ _ _ _ _ = result
          cases result with
          | error e => exact htask
          | ok out_body => exact ⟨htask.unit_name_, htask.channel⟩

theorem _setup (env : NodeEnv) {reply : Bytes}
    (h : c → ∀ m urls, decode_register reply = .ok (m, urls) → m ≠ n) {s : Node}
    (hname : ch '.' ∉ s.unit_name_) (msg : Bytes) :
    Leaves n c s (final (StackFlow._setup (Llm.handlers env) reply msg) s) := by
  unfold final StackFlow._setup _event _eventWith
  simp only [EStateM.run_bind, liftExcept_run]
  cases get_param msg 0 [] with
  | error e => exact refl_of (Leaves n c) s
  | ok zmq_url =>
      cases get_param msg 1 [] with
      | error e => exact refl_of (Leaves n c) s
      | ok raw =>
          have haddressed : Leaves n c s (s.addressed zmq_url raw) := of_same rfl rfl
          simp only [StackFlow.handle_run]
          split_ifs
          · exact trans_of (Leaves n c) haddressed
              (setup (s := s.addressed zmq_url raw) env h hname zmq_url raw)
          · exact haddressed

/-- The second part of an event that is no exit of the task. -/
theorem virtual (env : NodeEnv) {q : Inquiry} {raw : Bytes}
    (h : c → q = .exit →
      sample_get_work_id_num (sample_json_str_get raw (str "work_id")) ≠ .ok n) :
    Within (Leaves n c) (q.virtual env raw) := by
  cases q with
  | exit =>
      refine .bind (llm_exit env (fun hc => h hc rfl) _ _) fun ret => ?_
      exact .ite (sys_release_unit _ _) (.pure ())
  | pause => exact send env _ _ _ _
  | taskinfo =>
      exact llm_taskinfo env _ (sample_json_str_get raw (str "object"))
        (sample_json_str_get raw (str "data"))

end Leaves

namespace Answering

/-! ## The invariant -/

/-- The channel the inference owns pushes to `url`, and it is the table's as long as it is
    attached. -/
structure Held (url : Bytes) (s : Answering) : Prop where
  push : s.channel.PushOk
  output : s.channel.output_url_ = url
  entry : s.attached = true → s.node.llm_task_channel_.lookup s.n = some s.channel

/-- As long as there are calls to make the channel pushes to `url`, and what the calls so far
    have pushed went there. -/
structure Inv (url : Bytes) (s : Answering) : Prop where
  name : ch '.' ∉ s.node.unit_name_
  held : s.calls ≠ [] → s.Held url
  sent : ∀ o ∈ s.sent, o.kind = .push → o.url = url

section Steps

variable {env : NodeEnv} {url : Bytes} {s : Answering}

/-- The event thread leaves the channel alone. -/
theorem Held.withNode (h : s.Held url) {node : Node}
    (hleaves : s.attached = true →
      node.llm_task_channel_.lookup s.n = s.node.llm_task_channel_.lookup s.n ∨
        node.llm_task_channel_.lookup s.n = none) : (s.withNode node).Held url := by
  unfold Answering.withNode
  by_cases hattached : s.attached = true
  · rw [if_pos hattached]
    cases hlookup : node.llm_task_channel_.lookup s.n with
    | none => exact ⟨h.push, h.output, fun hat => absurd hat (by simp)⟩
    | some channel =>
        have hsame : channel = s.channel := by
          rcases hleaves hattached with hsame | hgone
          · rw [hlookup, h.entry hattached] at hsame
            exact Option.some.inj hsame
          · rw [hlookup] at hgone
            cases hgone
        subst hsame
        exact ⟨h.push, h.output, fun _ => hlookup⟩
  · rw [if_neg hattached]
    exact ⟨h.push, h.output, fun hat => absurd hat hattached⟩

theorem withNode_same (s : Answering) (node : Node) :
    (s.withNode node).node = node ∧ (s.withNode node).calls = s.calls ∧
      (s.withNode node).sent = s.sent := by
  unfold Answering.withNode
  split
  · split <;> exact ⟨rfl, rfl, rfl⟩
  · exact ⟨rfl, rfl, rfl⟩

/-- The event thread has worked, and has gone on or ended the process. -/
theorem Inv.withNode (h : Inv url s) {node : Node}
    (hleaves : Leaves s.n (s.attached = true ∧ s.calls ≠ []) s.node node) (alive : Bool)
    (inHand : Option (Inquiry × Bytes)) :
    Inv url { s.withNode node with alive := alive, inHand := inHand } := by
  obtain ⟨hnode, hcalls, hsent⟩ := s.withNode_same node
  refine ⟨?_, ?_, ?_⟩
  · show ch '.' ∉ (s.withNode node).node.unit_name_
    rw [hnode, hleaves.unit_name_]
    exact h.name
  · intro hne
    have hne : s.calls ≠ [] := hcalls ▸ hne
    have hheld := (h.held hne).withNode fun hattached => hleaves.channel ⟨hattached, hne⟩
    exact ⟨hheld.push, hheld.output, hheld.entry⟩
  · show ∀ o ∈ (s.withNode node).sent, o.kind = .push → o.url = url
    rw [hsent]
    exact h.sent

theorem Held.channel_send (h : s.Held url) (hname : ch '.' ∉ s.node.unit_name_)
    (hsent : ∀ o ∈ s.sent, o.kind = .push → o.url = url) (object : Bytes) (data : Json) :
    Inv url (s.channel_send env object data) := by
  unfold Answering.channel_send
  split
  · exact ⟨hname, fun _ => ⟨h.push, h.output, h.entry⟩, hsent⟩
  · rename_i channel outs hsend
    obtain ⟨hpush, -, hurl, hrouted⟩ := Channel.send_spec hsend h.push
    refine ⟨?_, fun _ => ⟨hpush, hurl.trans h.output, ?_⟩, ?_⟩
    · dsimp only
      split <;> exact hname
    · intro hattached
      have hattached : s.attached = true := hattached
      simp only [hattached, if_true]
      exact AList.lookup_insert _
    · intro o ho hkind
      rcases List.mem_append.mp ho with ho | ho
      · exact hsent o ho hkind
      · rw [← h.output]
        exact (hrouted o ho hkind).1

/-- A call of `task_output` pushes to `url`. -/
theorem Held.task_output (h : s.Held url) (hname : ch '.' ∉ s.node.unit_name_)
    (hsent : ∀ o ∈ s.sent, o.kind = .push → o.url = url) (data : Bytes) (finish : Bool) :
    Inv url (s.task_output env data finish) := by
  unfold Answering.task_output
  split
  · apply Held.channel_send
    · exact ⟨h.push, h.output, h.entry⟩
    · exact hname
    · exact hsent
  · split
    · exact h.channel_send hname hsent _ _
    · exact ⟨hname, fun _ => h, hsent⟩

/-- The first part of an event leaves the channel alone when it names another task, or asks
    for its answer at the URL the channel pushes to. -/
theorem Inv.before (h : Inv url s) {q : Inquiry} {msg : Bytes}
    (hundisturbed : s.Undisturbed url (.before q msg)) :
    Leaves s.n (s.attached = true ∧ s.calls ≠ []) s.node (final (q.before msg) s.node) := by
  unfold final
  rw [Inquiry.before_run]
  cases hread : q.read msg with
  | error e => exact refl_of (Leaves _ _) _
  | ok p =>
      obtain ⟨zmq_url, raw⟩ := p
      simp only
      split_ifs
      · refine ⟨?_, fun ⟨hattached, hne⟩ => .inl ?_⟩
        · obtain ⟨channels, hpushed⟩ := StackFlow.pushedTo_frame (s.node.addressed zmq_url raw)
            zmq_url (sample_json_str_get raw (str "work_id"))
          rw [hpushed]
          rfl
        · have hentry := (h.held hne).entry hattached
          have haddressed : (s.node.addressed zmq_url raw).llm_task_channel_.lookup s.n =
              some s.channel := hentry
          rw [StackFlow.pushedTo_lookup, haddressed, hentry, Option.map_some]
          split
          · rename_i hnumber
            have hsame : zmq_url = url :=
              hundisturbed (zmq_url, raw) (by simp [hread, Except.toOption]) hattached
                (by simp [hnumber, Except.toOption])
            rw [Channel.set_push_url_of_eq ((h.held hne).output.trans hsame.symm)]
          · rfl
      · exact .of_same rfl rfl

/-- A new channel in the table leaves the old one to the inference alone. -/
theorem Inv.detached (h : Inv url s) (reply : Bytes) : Inv url (s.detached reply) := by
  unfold Answering.detached
  split
  · exact ⟨h.name, fun hne => ⟨(h.held hne).push, (h.held hne).output,
      fun hat => absurd hat (by simp)⟩, h.sent⟩
  · exact h

theorem leaves_setup (env : NodeEnv) (hname : ch '.' ∉ s.node.unit_name_) (msg reply : Bytes) :
    Leaves (s.detached reply).n ((s.detached reply).attached = true ∧ (s.detached reply).calls ≠ [])
      (s.detached reply).node
      (final (_setup (Llm.handlers env) reply msg) (s.detached reply).node) := by
  apply Leaves._setup env
  · rintro ⟨hattached, -⟩ m urls hreply
    unfold Answering.detached at hattached ⊢
    split at hattached
    · cases hattached
    · rename_i hreplaces
      rw [if_neg hreplaces]
      intro heq
      simp [replaces, hreply, heq] at hreplaces
  · unfold Answering.detached
    split <;> exact hname

/-- An event that does not wait is no exit of a running task. -/
theorem leaves_virtual (env : NodeEnv) {q : Inquiry} {raw : Bytes}
    (hwaits : s.waits q raw = false) :
    Leaves s.n (s.attached = true ∧ s.calls ≠ []) s.node (final (q.virtual env raw) s.node) := by
  refine Leaves.virtual env ?_ s.node
  rintro ⟨hattached, hne⟩ rfl hnumber
  simp [waits, hattached, hne, hnumber, Except.toOption] at hwaits

/-- Every turn that meets the condition keeps the invariant. -/
theorem Inv.step (h : Inv url s) (t : Turn) (hundisturbed : s.Undisturbed url t) :
    Inv url (s.step env t) := by
  -- in each case the turn is not taken, or it leaves the channel alone
  cases t with
  | setup msg reply =>
      have hleaves := leaves_setup env h.name msg reply
      unfold final at hleaves
      unfold Answering.step
      split
      · exact h
      · dsimp only
        split
        · exact h
        · split
          · rename_i hrun
            rw [hrun] at hleaves
            exact (h.detached reply).withNode hleaves _ _
          · rename_i hrun
            rw [hrun] at hleaves
            exact (h.detached reply).withNode hleaves _ _
  | chunk =>
      unfold Answering.step
      split
      · exact h
      · dsimp only
        split
        · exact h
        · rename_i data finish rest hcalls
          -- a call is outstanding, so the answering thread still holds its channel
          have hheld := h.held (by simp [hcalls])
          apply Held.task_output
          · exact ⟨hheld.push, hheld.output, hheld.entry⟩
          · exact h.name
          · exact h.sent
  | before q msg =>
      have hleaves := h.before hundisturbed
      unfold final at hleaves
      unfold Answering.step
      split
      · exact h
      · dsimp only
        split
        · exact h
        · split
          · rename_i hrun
            rw [hrun] at hleaves
            exact h.withNode hleaves _ _
          · rename_i hrun
            rw [hrun] at hleaves
            exact h.withNode hleaves _ _
  | virtual =>
      unfold Answering.step
      split
      · exact h
      · dsimp only
        split
        · exact h
        · rename_i q raw hinHand
          split
          · exact h
          · rename_i hwaits
            have hleaves := leaves_virtual env (Bool.eq_false_iff.mpr hwaits)
            unfold final at hleaves
            split
            · rename_i hrun
              rw [hrun] at hleaves
              exact h.withNode hleaves _ _
            · rename_i hrun
              rw [hrun] at hleaves
              exact h.withNode hleaves _ _

end Steps

/-- A message with a `zmq_com` starts an inference whose channel pushes there. -/
theorem inv_start {s : Node} (hs : Sound s) {n : Int} {raw : Bytes}
    (hwf : (NodeRequest.inference n raw).WellFormed) {a : Answering}
    (ha : start s n raw = some a) : Inv (sample_json_str_get raw (str "zmq_com")) a := by
  unfold start at ha
  split at ha
  · rename_i channel task hchannel htask
    split at ha
    · split at ha
      · obtain ⟨-, hurl⟩ := channel.take_user_context hwf.1 hwf.2
        cases ha
        refine ⟨hs.dot_not_mem, fun _ => ⟨?_, hurl, fun _ => AList.lookup_insert _⟩, by simp⟩
        exact (hs.push n channel hchannel).take_user raw
      · cases ha
    · cases ha
  · cases ha

/-! ## Whole inferences -/

/-- From every reachable state: what an inference pushes goes to the `zmq_com` of its request,
    in every interleaving with events that name another task or ask for their answer at the
    same URL. -/
theorem inference_undiverted (env : NodeEnv) (es : List NodeEvent) (n : Int) (raw : Bytes)
    (hwf : (NodeRequest.inference n raw).WellFormed) (a : Answering)
    (ha : start (Run.exec (NodeProcess.step env) .initial es).node n raw = some a)
    (ts : List Turn)
    (hts : Run.AllSteps (step env) (Undisturbed (sample_json_str_get raw (str "zmq_com"))) a ts) :
    ∀ o ∈ (Run.exec (step env) a ts).sent,
      o.kind = .push → o.url = sample_json_str_get raw (str "zmq_com") := by
  have hinv : Inv (sample_json_str_get raw (str "zmq_com")) (Run.exec (step env) a ts) := by
    refine Run.exec_invariant (I := Inv (sample_json_str_get raw (str "zmq_com"))) ?_
      (inv_start (Sound.run env es) hwf ha) hts
    intro s t h ht
    exact h.step t ht
  exact hinv.sent

instance (url : Bytes) (s : Answering) (t : Turn) : Decidable (s.Undisturbed url t) :=
  match t with
  | .before q msg => inferInstanceAs (Decidable (∀ p ∈ (q.read msg).toOption, s.attached = true →
      (sample_get_work_id_num (sample_json_str_get p.2 (str "work_id"))).toOption = some s.n →
      p.1 = url))
  | .chunk | .setup _ _ | .virtual => inferInstanceAs (Decidable True)

/-- A taskinfo of a third client, between the calls of the inference of the second. -/
def askedMeanwhile (work_id : String) : List Turn :=
  [.chunk,
    .before .taskinfo (set_param (str "ipc:///tmp/llm/8002.sock")
      (str "\x7b\"request_id\":\"3\",\"work_id\":\"" ++ str work_id ++ str "\"\x7d")),
    .chunk, .virtual, .chunk]

/-- The task of the first client is there for the second. -/
theorem start_secondClient :
    (start (Run.exec (NodeProcess.step (configEnv .emit)) .initial [setupRequest.event]).node 0
      (inferenceRaw "hi")).isSome = true := by
  decide +kernel

def secondClient : Answering := Option.get _ start_secondClient

/-- Where the user's part of what was sent has gone. -/
def pushedUrls (s : Answering) : List Bytes := (s.sent.filter (·.kind = .push)).map Out.url

/-- A question about another task changes nothing. -/
theorem inference_undiverted_other_task :
    pushedUrls (Run.exec (step (configEnv .emit)) secondClient (askedMeanwhile "llm.1")) =
        [str "ipc:///tmp/llm/8001.sock"] ∧
      ∀ o ∈ (Run.exec (step (configEnv .emit)) secondClient (askedMeanwhile "llm.1")).sent,
        o.kind = .push → o.url = sample_json_str_get (inferenceRaw "hi") (str "zmq_com") := by
  refine ⟨by decide +kernel, ?_⟩
  exact inference_undiverted (configEnv .emit) [setupRequest.event] 0 (inferenceRaw "hi")
    (by decide +kernel) secondClient (Option.some_get start_secondClient).symm
    (askedMeanwhile "llm.1") (by decide +kernel)

/-- A question about the task takes the answer along. -/
theorem taskinfo_diverts_answer :
    pushedUrls (Run.exec (step (configEnv .emit)) secondClient (askedMeanwhile "llm.0")) =
        [str "ipc:///tmp/llm/8002.sock"] ∧
      ¬ ∀ o ∈ (Run.exec (step (configEnv .emit)) secondClient (askedMeanwhile "llm.0")).sent,
        o.kind = .push → o.url = sample_json_str_get (inferenceRaw "hi") (str "zmq_com") := by
  constructor
  · decide +kernel
  · decide +kernel

end Answering

end DoubleTurnouts
