/-
  DoubleTurnouts.Node.Replies

  Who gets the llm unit's replies.  There are two reply contexts.  Control
  handlers answer in the node-wide one, which their event has just set, so
  they always answer their requester.  A running model answers through its
  channel, whose context its message has just set.  The three error branches
  of `task_user_data` answer in the node-wide context as well, and that one
  belongs to whoever sent the last control event.
-/
import Mathlib.Tactic
import DoubleTurnouts.Node.Sound

namespace DoubleTurnouts

open Text Decimal Effect StackFlow

/-! ## Control handlers answer in the node-wide context -/

/-- The context stays, and what is sent meanwhile is routed by it. -/
structure InContext (s s' : Node) : Prop where
  request_id_ : s'.request_id_ = s.request_id_
  out_zmq_url_ : s'.out_zmq_url_ = s.out_zmq_url_
  replies : ∃ new, s'.outs = s.outs ++ new ∧
    ∀ o ∈ new, o.Routed s.request_id_ s.out_zmq_url_

theorem InContext.of_outs_eq {s s' : Node} (hid : s'.request_id_ = s.request_id_)
    (hurl : s'.out_zmq_url_ = s.out_zmq_url_) (houts : s'.outs = s.outs) : InContext s s' :=
  ⟨hid, hurl, [], by simp [houts], by simp⟩

instance : IsPreorder Node InContext where
  refl _ := .of_outs_eq rfl rfl rfl
  trans := by
    rintro a b c ⟨hid1, hurl1, new1, hnew1, hrouted1⟩ ⟨hid2, hurl2, new2, hnew2, hrouted2⟩
    refine ⟨hid2.trans hid1, hurl2.trans hurl1, new1 ++ new2, by rw [hnew2, hnew1]; simp, ?_⟩
    intro o ho
    rcases List.mem_append.mp ho with ho | ho
    · exact hrouted1 o ho
    · rw [← hid1, ← hurl1]
      exact hrouted2 o ho

namespace InContext

theorem modify {f : Node → Node} (hid : ∀ s, (f s).request_id_ = s.request_id_)
    (hurl : ∀ s, (f s).out_zmq_url_ = s.out_zmq_url_) (houts : ∀ s, (f s).outs = s.outs) :
    Within InContext (modify f : LlmM Unit) :=
  .modify fun s => .of_outs_eq (hid s) (hurl s) (houts s)

theorem body_request_id {env : NodeEnv} {s : Node} {object : Bytes} {data error_msg : Json}
    {work_id : Bytes} {out_body : OutBody}
    (h : body env s object data error_msg work_id = .ok out_body) :
    out_body.request_id = s.request_id_ := by
  unfold body at h
  split at h
  · cases h
  · dsimp only at h
    split at h
    · cases h
    · cases h
      rfl

theorem send (env : NodeEnv) (object : Bytes) (data error_msg : Json) (work_id : Bytes) :
    Within InContext (StackFlow.send env object data error_msg work_id [] : LlmM Unit) := by
  intro s
  unfold final
  rw [send_run]
  cases hbody : body env s object data error_msg work_id with
  | error e => exact refl_of InContext s
  | ok out_body =>
      refine ⟨rfl, rfl, _, rfl, ?_⟩
      intro o ho _
      obtain rfl := List.mem_singleton.mp ho
      exact ⟨rfl, body_request_id hbody⟩

theorem get_channel (n : Int) : Within InContext (StackFlow.get_channel n : LlmM Channel) := by
  refine .bind .get fun s => ?_
  split
  · exact .pure _
  · exact .throw _

theorem set_channel (n : Int) (channel : Channel) :
    Within InContext (StackFlow.set_channel n channel : LlmM Unit) :=
  modify (fun _ => rfl) (fun _ => rfl) (fun _ => rfl)

theorem sys_register_unit (reply : Bytes) :
    Within InContext (StackFlow.sys_register_unit reply : LlmM Int) := by
  refine .bind (modify (fun _ => rfl) (fun _ => rfl) (fun _ => rfl)) fun _ => ?_
  refine .bind (.liftExcept _) fun p => ?_
  exact .bind (set_channel _ _) fun _ => .pure _

theorem sys_release_unit (n : Int) (work_id : Bytes) :
    Within InContext (StackFlow.sys_release_unit n work_id : LlmM Unit) := by
  refine .bind .get fun s => ?_
  dsimp only
  split
  · exact .bind (.pure n) fun m => modify (fun _ => rfl) (fun _ => rfl) (fun _ => rfl)
  · exact .bind (.liftExcept _) fun m => modify (fun _ => rfl) (fun _ => rfl) (fun _ => rfl)

theorem try_set_push_url (zmq_url work_id : Bytes) :
    Within InContext (StackFlow.try_set_push_url zmq_url work_id : LlmM Unit) := by
  refine .tryCatch ?_ fun _ => .pure _
  refine .bind (.liftExcept _) fun n => ?_
  exact .bind (get_channel n) fun channel => set_channel n _

theorem llm_setup (env : NodeEnv) (work_id object data : Bytes) :
    Within InContext (Llm.setup env work_id object data) := by
  refine .bind .get fun s => .ite ?_ ?_
  · exact .bind (send env _ _ _ _) fun _ => .pure _
  · refine .bind (.liftExcept _) fun n => .bind (get_channel n) fun channel => ?_
    split
    · exact .bind (send env _ _ _ _) fun _ => .pure _
    · split
      · exact .bind (send env _ _ _ _) fun _ => .pure _
      · refine .bind (.liftExcept _) fun p => .bind (set_channel n _) fun _ => ?_
        refine .bind (modify (fun _ => rfl) (fun _ => rfl) (fun _ => rfl)) fun _ => ?_
        exact .bind (send env _ _ _ _) fun _ => .pure _

theorem llm_exit (env : NodeEnv) (work_id object data : Bytes) :
    Within InContext (Llm.exit env work_id object data) := by
  refine .bind .get fun s => .bind (.liftExcept _) fun n => ?_
  split
  · exact .bind (send env _ _ _ _) fun _ => .pure _
  · refine .bind (get_channel n) fun channel => .bind (set_channel n _) fun _ => ?_
    refine .bind (modify (fun _ => rfl) (fun _ => rfl) (fun _ => rfl)) fun _ => ?_
    exact .bind (send env _ _ _ _) fun _ => .pure _

theorem llm_taskinfo (env : NodeEnv) (work_id object data : Bytes) :
    Within InContext (Llm.taskinfo env work_id object data) := by
  refine .bind .get fun s => .bind (.liftExcept _) fun n => .ite (send env _ _ _ _) ?_
  split
  · exact send env _ _ _ _
  · exact send env _ _ _ _

theorem setup (env : NodeEnv) (reply zmq_url raw : Bytes) :
    Within InContext (StackFlow.setup (Llm.handlers env) reply zmq_url raw) := by
  have hvirtual : ∀ w o d, Within InContext ((Llm.handlers env).setup w o d) := llm_setup env
  refine .bind (sys_register_unit reply) fun n => .bind .get fun s => ?_
  refine .bind (get_channel n) fun channel => .bind (set_channel n _) fun _ => ?_
  refine .bind (hvirtual _ _ _) fun ret => ?_
  exact .ite (sys_release_unit n _) (.pure ())

theorem exit (env : NodeEnv) (zmq_url raw : Bytes) :
    Within InContext (StackFlow.exit (Llm.handlers env) zmq_url raw) := by
  have hvirtual : ∀ w o d, Within InContext ((Llm.handlers env).exit w o d) := llm_exit env
  refine .bind (try_set_push_url _ _) fun _ => .bind (hvirtual _ _ _) fun ret => ?_
  exact .ite (sys_release_unit _ _) (.pure ())

theorem taskinfo (env : NodeEnv) (zmq_url raw : Bytes) :
    Within InContext (StackFlow.taskinfo (Llm.handlers env) zmq_url raw) := by
  have hvirtual : ∀ w o d, Within InContext ((Llm.handlers env).taskinfo w o d) :=
    llm_taskinfo env
  exact .bind (try_set_push_url _ _) fun _ => hvirtual _ _ _

end InContext

/-- What an event sends, as its own replies. -/
def RoutedFrom (request_id url : Bytes) (s s' : Node) : Prop :=
  ∃ new, s'.outs = s.outs ++ new ∧ ∀ o ∈ new, o.Routed request_id url

theorem RoutedFrom.refl (request_id url : Bytes) (s : Node) : RoutedFrom request_id url s s :=
  ⟨[], by simp, by simp⟩

/-- An event whose handler answers in the node-wide context answers its requester.  A URL
    too long for a parameter is an exception before anything is sent. -/
theorem routed_event {handler : Bytes → Bytes → LlmM Unit}
    (h : ∀ zmq_url raw, Within InContext (handler zmq_url raw)) {url : Bytes}
    (hlen : url.length ≤ 254) (text : Bytes) {s : Node} (hs : s.status_ ≠ 0) :
    RoutedFrom (sample_json_str_get text (str "request_id")) url s
      (final (_event handler (set_param url text)) s) := by
  unfold final
  by_cases hshort : url.length ≤ 127
  · rw [_event_run hshort text handler hs]
    exact (h url text (s.addressed url text)).replies
  · have hlong := @get_param_zero_set_param_long url (by omega) (by omega) text
    simp only [_event, _eventWith, EStateM.run_bind, liftExcept_run, hlong]
    exact .refl _ _ s

/-! ## A running model answers in its channel's context -/

/-- Channel `n` has the context, and what was sent since `base` is routed by it. -/
structure Serving (n : Int) (request_id url : Bytes) (base : Node) (s : Node) : Prop where
  channel : ∃ channel, s.llm_task_channel_.lookup n = some channel ∧ channel.PushOk ∧
    channel.request_id_ = request_id ∧ channel.output_url_ = url
  routed : RoutedFrom request_id url base s

theorem channel_send_serving (env : NodeEnv) (n : Int) (request_id url : Bytes) (base : Node)
    (object : Bytes) (data : Json) :
    Within (Keeps (Serving n request_id url base)) (Llm.channel_send env n object data) := by
  rintro s ⟨⟨channel, hc, hpush, hid, hurl⟩, new, hnew, hrouted⟩
  rcases Llm.channel_send_final env n object data s with
    hsame | ⟨channel1, channel', outs, hc1, hsend, hfinal⟩
  · rw [hsame]
    exact ⟨⟨channel, hc, hpush, hid, hurl⟩, new, hnew, hrouted⟩
  -- the channel that has sent is the one with the context
  · obtain rfl : channel = channel1 := Option.some.inj (hc.symm.trans hc1)
    obtain ⟨hpush', hid', hurl', houts⟩ := Channel.send_spec hsend hpush
    rw [hfinal]
    refine ⟨⟨channel', AList.lookup_insert _, hpush', hid'.trans hid, hurl'.trans hurl⟩,
      new ++ outs, by simp [hnew], ?_⟩
    intro o ho
    rcases List.mem_append.mp ho with ho | ho
    · exact hrouted o ho
    · rw [← hid, ← hurl]
      exact houts o ho

theorem inference_serving (env : NodeEnv) (n : Int) (request_id url : Bytes) (base : Node)
    (msg : Bytes) :
    Within (Keeps (Serving n request_id url base)) (Llm.inference env n msg) :=
  Llm.inference_within (channel_send_serving env n request_id url base)
    (fun _ _ h => ⟨h.1, h.2⟩) (fun _ _ h => ⟨h.1, h.2⟩) msg

/-! ## Requests of clients -/

/-- What a client can have asked for: a control request, or a message that reached the
    inference channel of a task. -/
inductive NodeRequest
  | control (r : ControlRequest)
  | inference (n : Int) (raw : Bytes)
  deriving DecidableEq, Repr

namespace NodeRequest

def event : NodeRequest → NodeEvent
  | .control r => r.event
  | .inference n raw => .inference n raw

/-- The requester's URL and the request's id. -/
def url : NodeRequest → Bytes
  | .control r => r.url
  | .inference _ raw => sample_json_str_get raw (str "zmq_com")

def request_id : NodeRequest → Bytes
  | .control r => r.request_id
  | .inference _ raw => sample_json_str_get raw (str "request_id")

/-- A setup, exit or taskinfo whose URL fits the manager's buffer, or an inference message
    with a `zmq_com` and an `"action"` key, as the manager's splice makes it. -/
def WellFormed : NodeRequest → Prop
  | .control r => r.action ≠ .pause ∧ r.url.length ≤ 254
  | .inference _ raw => Channel.userMarked none 0 raw = true ∧
      sample_json_str_get raw (str "zmq_com") ≠ []

instance (r : NodeRequest) : Decidable r.WellFormed :=
  match r with
  | .control r => inferInstanceAs (Decidable (r.action ≠ .pause ∧ r.url.length ≤ 254))
  | .inference _ raw => inferInstanceAs (Decidable (Channel.userMarked none 0 raw = true ∧
      sample_json_str_get raw (str "zmq_com") ≠ []))

end NodeRequest

/-- The unit handling one request after the other. -/
def nodeStep (env : NodeEnv) (p : NodeProcess) (r : NodeRequest) : NodeProcess :=
  p.step env r.event

/-- Every reply sent while the request is handled goes to the requester under its id. -/
def RepliesRouted (env : NodeEnv) (p : NodeProcess) (r : NodeRequest) : Prop :=
  RoutedFrom r.request_id r.url p.node (nodeStep env p r).node

/-- The message takes an error branch of `task_user_data`: there is no task any more, its
    data is empty or `"None"`, or a stream chunk cannot be decoded. -/
def NodeProcess.rejects (p : NodeProcess) (n : Int) (raw : Bytes) : Bool :=
  match p.node.llm_task_channel_.lookup n with
  | none => false
  | some channel => p.alive && decide channel.subscribed &&
      (Llm.intake p.node n (sample_json_str_get raw (str "object"))
        (sample_json_str_get raw (str "data"))).isReject

/-- An inference message that takes an error branch comes from the client of the last
    control event, under the same id. -/
def Attributable (p : NodeProcess) : NodeRequest → Prop
  | .control _ => True
  | .inference n raw => p.rejects n raw = true →
      p.node.request_id_ = sample_json_str_get raw (str "request_id") ∧
        p.node.out_zmq_url_ = sample_json_str_get raw (str "zmq_com")

instance (p : NodeProcess) (r : NodeRequest) : Decidable (Attributable p r) :=
  match r with
  | .control _ => isTrue trivial
  | .inference _ _ => inferInstanceAs (Decidable (_ → _))

/-! ## One request -/

theorem control_replies_routed (env : NodeEnv) {p : NodeProcess} (hs : Sound p.node)
    {r : ControlRequest} (hwf : (NodeRequest.control r).WellFormed) :
    RepliesRouted env p (.control r) := by
  obtain ⟨haction, hlen⟩ := hwf
  have hrouted : ∀ {handler}, (∀ zmq_url raw, Within InContext (handler zmq_url raw)) →
      r.event.handle env = _event handler (set_param r.url r.text) →
      RoutedFrom r.request_id r.url p.node (final (r.event.handle env) p.node) := by
    intro handler h hevent
    rw [hevent]
    exact routed_event h hlen r.text hs.status_
  unfold RepliesRouted nodeStep
  rw [NodeProcess.step_node]
  split
  · show RoutedFrom r.request_id r.url p.node (final (r.event.handle env) p.node)
    cases hact : r.action with
    | setup reply =>
        exact hrouted (InContext.setup env reply) (by simp only [ControlRequest.event, hact]; rfl)
    | exit => exact hrouted (InContext.exit env) (by simp only [ControlRequest.event, hact]; rfl)
    | taskinfo =>
        exact hrouted (InContext.taskinfo env) (by simp only [ControlRequest.event, hact]; rfl)
    | pause => exact absurd hact haction
  · exact .refl _ _ _

/-- One message is routed exactly if its one destination is the right one. -/
theorem routedFrom_singleton_iff {request_id url : Bytes} {s s' : Node} {o : Out}
    (houts : s'.outs = s.outs ++ [o]) (hkind : o.kind = .push) :
    RoutedFrom request_id url s s' ↔ o.url = url ∧ o.body.request_id = request_id := by
  constructor
  · rintro ⟨new, hnew, hrouted⟩
    rw [houts, List.append_cancel_left_eq] at hnew
    exact hrouted o (by simp [← hnew]) hkind
  · intro h
    refine ⟨[o], houts, ?_⟩
    intro o' ho' _
    obtain rfl := List.mem_singleton.mp ho'
    exact h

theorem inference_replies_routed_iff {env : NodeEnv} (hmode : env.mode = .emit)
    {p : NodeProcess} (hs : Sound p.node) {n : Int} {raw : Bytes}
    (hwf : (NodeRequest.inference n raw).WellFormed) :
    RepliesRouted env p (.inference n raw) ↔ Attributable p (.inference n raw) := by
  have hnothing : RoutedFrom (sample_json_str_get raw (str "request_id"))
      (sample_json_str_get raw (str "zmq_com")) p.node p.node := .refl _ _ _
  unfold RepliesRouted nodeStep Attributable NodeProcess.rejects
  rw [NodeProcess.step_node]
  simp only [NodeRequest.event, NodeRequest.request_id, NodeRequest.url]
  cases halive : p.alive with
  | false => cases p.node.llm_task_channel_.lookup n <;> simp [hnothing]
  | true =>
      cases hc : p.node.llm_task_channel_.lookup n with
      | none =>
          have hsame : final ((NodeEvent.inference n raw).handle env) p.node = p.node := by
            simp [final, NodeEvent.handle, hc]
          simp [hsame, hnothing]
      | some channel =>
          by_cases hsub : channel.subscribed
          swap
          · have hsame : final ((NodeEvent.inference n raw).handle env) p.node = p.node := by
              simp [final, NodeEvent.handle, hc, hsub]
            simp [hsame, hnothing, hsub]
          rw [if_pos rfl, Llm.inference_final env hc hsub raw]
          simp only [hsub, decide_true, Bool.true_and]
          cases Llm.intake p.node n (sample_json_str_get raw (str "object"))
              (sample_json_str_get raw (str "data")) with
          | reject code message b =>
              -- The error goes out in the node-wide context.
              simp only [final, send_error, send_run, body_emit hmode, Llm.Intake.isReject,
                forall_const]
              rw [routedFrom_singleton_iff rfl rfl, and_comm]
              rfl
          | hold b =>
              have hheld : RoutedFrom (sample_json_str_get raw (str "request_id"))
                  (sample_json_str_get raw (str "zmq_com")) p.node
                  (Llm.withBuff (p.node.withChannel n (channel.take_user raw)) b) := hnothing
              simpa [Llm.Intake.isReject] using hheld
          | infer msg b =>
              -- the message has set the channel's context before the model runs
              obtain ⟨hid, hurl⟩ := channel.take_user_context hwf.1 hwf.2
              have hserving : Serving n (sample_json_str_get raw (str "request_id"))
                  (sample_json_str_get raw (str "zmq_com")) p.node
                  (Llm.withBuff (p.node.withChannel n (channel.take_user raw)) b) :=
                ⟨⟨_, AList.lookup_insert _, (hs.push n channel hc).take_user raw, hid, hurl⟩,
                  hnothing⟩
              have hrouted := (inference_serving env n _ _ p.node msg _ hserving).routed
              simpa [Llm.Intake.isReject] using hrouted

/-! ## Whole histories -/

/-- For every history of well-formed requests from any clients: all replies of every request
    go back to whoever asked exactly if every rejected inference message came from the
    client of the last control event. -/
theorem replies_routed_run_iff (env : NodeEnv) (hmode : env.mode = .emit)
    (rs : List NodeRequest) (hwf : ∀ r ∈ rs, r.WellFormed) :
    Run.AllSteps (nodeStep env) (RepliesRouted env) .initial rs ↔
      Run.AllSteps (nodeStep env) Attributable .initial rs := by
  refine Run.AllSteps.iff_of_invariant (I := fun p : NodeProcess => Sound p.node)
    (W := NodeRequest.WellFormed) (fun p r hs => hs.step env r.event) ?_ Sound.initial hwf
  intro p r hs hr
  cases r with
  | control r => exact iff_of_true (control_replies_routed env hs hr) trivial
  | inference n raw => exact inference_replies_routed_iff hmode hs hr

/-- An inference message of another client to the task that `setupRequest` sets up. -/
def inferenceRaw (data : String) : Bytes :=
  str "\x7b\"zmq_com\":\"ipc:///tmp/llm/8001.sock\",\"request_id\":\"2\",\"work_id\":\"llm.0\","
    ++ str "\"action\":\"inference\",\"object\":\"llm.utf-8\",\"data\":\"" ++ str data
    ++ str "\"\x7d"

/-- A text of the second client is answered to the second client. -/
theorem replies_routed_run_iff_two_clients :
    Run.AllSteps (nodeStep (configEnv .emit)) (RepliesRouted (configEnv .emit)) .initial
      [.control setupRequest, .inference 0 (inferenceRaw "hi")] :=
  (replies_routed_run_iff (configEnv .emit) rfl _ (by decide +kernel)).mpr (by decide +kernel)

/-- An empty text of the second client is reported to the first one. -/
theorem empty_inference_answered_to_other_client :
    (∀ r ∈ [NodeRequest.control setupRequest, .inference 0 (inferenceRaw "")], r.WellFormed) ∧
      ¬ Run.AllSteps (nodeStep (configEnv .emit)) (RepliesRouted (configEnv .emit)) .initial
        [.control setupRequest, .inference 0 (inferenceRaw "")] := by
  refine ⟨by decide +kernel, ?_⟩
  rintro ⟨-, hrouted, -⟩
  have hs : Sound (nodeStep (configEnv .emit) .initial (.control setupRequest)).node :=
    Sound.initial.step _ _
  rw [inference_replies_routed_iff rfl hs (by decide +kernel)] at hrouted
  revert hrouted
  decide +kernel

end DoubleTurnouts
