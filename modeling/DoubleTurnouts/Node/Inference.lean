/-
  DoubleTurnouts.Node.Inference

  What one inference message does to the llm unit.  `intake` is the decision
  of `task_user_data`: reject the message, keep a chunk, or run the model.
  The messages a running model sends all come from `llm_channel_obj::send`,
  so they carry the channel's request id and go to its push socket; the
  proofs carry this through the callbacks as a frame condition.
-/
import Mathlib.Tactic
import DoubleTurnouts.Lib.Effect
import DoubleTurnouts.Node.Llm

namespace DoubleTurnouts

open Text Decimal Effect

namespace Llm

open StackFlow

/-! ## The decision of `task_user_data` -/

/-- Each decision comes with the stream buffer it leaves behind. -/
inductive Intake
  | reject (code : Int) (message : Bytes) (stream_buff : Map Int Bytes)
  | hold (stream_buff : Map Int Bytes)
  | infer (msg : Bytes) (stream_buff : Map Int Bytes)

namespace Intake

def isReject : Intake → Bool
  | .reject _ _ _ => true
  | _ => false

/-- The stream buffer left behind. -/
def buff : Intake → Map Int Bytes
  | .reject _ _ stream_buff => stream_buff
  | .hold stream_buff => stream_buff
  | .infer _ stream_buff => stream_buff

/-- The text the model is run on. -/
def msg? : Intake → Option Bytes
  | .infer msg _ => some msg
  | _ => none

end Intake

/-- What happens to the data of a live task. -/
def intakeData (object data : Bytes) (stream_buff : Map Int Bytes) : Intake :=
  if data = [] ∨ data = str "None" then
    .reject (-24) (str "The inference data is empty.") stream_buff
  else if (find (str "stream") object).isSome then
    match decode_stream data stream_buff with
    | (.ok (true, _), stream_buff) => .hold stream_buff
    | (.ok (false, msg), stream_buff) => .infer msg stream_buff
    | (.error _, _) => .reject (-25) (str "Stream data index error.") ∅
  else .infer data stream_buff

/-- A chunk of streamed input: `data` with a number under `index` is neither empty nor
    `"None"`, so it reaches the buffer. -/
theorem intakeData_chunk {object data : Bytes} (hobject : (find (str "stream") object).isSome)
    {index : Int} (hindex : stoi (sample_json_str_get data (str "index")) = .ok index)
    (stream_buff : Map Int Bytes) :
    intakeData object data stream_buff =
      let stream_buff := stream_buff.insert index (sample_json_str_get data (str "delta"))
      if (find (str "f") (sample_json_str_get data (str "finish"))).isNone then
        match joinStream stream_buff (Map.size stream_buff) 0 with
        | .ok out => .infer out ∅
        | .error _ => .reject (-25) (str "Stream data index error.") ∅
      else .hold stream_buff := by
  have hdata : ¬ (data = [] ∨ data = str "None") := by
    -- neither text has a number under index
    rintro (rfl | rfl) <;> cases hindex
  simp only [intakeData, if_neg hdata, if_pos hobject, decode_stream_eq, hindex]
  by_cases hfinish : (find (str "f") (sample_json_str_get data (str "finish"))).isNone = true
  · simp only [if_pos hfinish]
    generalize stream_buff.insert index (sample_json_str_get data (str "delta")) = b
    cases joinStream b (Map.size b) 0 <;> rfl
  · simp only [if_neg hfinish]

def intake (s : Node) (n : Int) (object data : Bytes) : Intake :=
  match s.self.llm_task_.lookup n, s.llm_task_channel_.lookup n with
  | some _, some _ => intakeData object data s.self.stream_buff
  | _, _ => .reject (-11) (str "Model run failed.") s.self.stream_buff

/-- The node with another stream buffer. -/
def withBuff (s : Node) (stream_buff : Map Int Bytes) : Node :=
  { s with self.stream_buff := stream_buff }

theorem task_user_data_run (env : NodeEnv) (n : Int) (object data : Bytes) (s : Node) :
    (task_user_data env n object data).run s =
      match intake s n object data with
      | .reject code message stream_buff =>
          (send_error env code message s.unit_name_).run (withBuff s stream_buff)
      | .hold stream_buff => .ok () (withBuff s stream_buff)
      | .infer msg stream_buff => (inference env n msg).run (withBuff s stream_buff) := by
  have hsame : withBuff s s.self.stream_buff = s := rfl
  unfold task_user_data intake intakeData
  cases htask : s.self.llm_task_.lookup n with
  | none => simp [htask, hsame]
  | some task =>
      cases hc : s.llm_task_channel_.lookup n with
      | none => simp [htask, hc, hsame]
      | some channel =>
          simp only [EStateM.run_bind, EStateM.run_get, htask, hc]
          -- task and channel are there: the data decides, and for a stream its decoding
          by_cases hempty : data = [] ∨ data = str "None"
          · simp [hempty, hsame]
          · by_cases hstream : (find (str "stream") object).isSome
            · simp only [hempty, hstream, if_false, if_true]
              cases hdecode : decode_stream data s.self.stream_buff with
              | mk result stream_buff =>
                  cases result with
                  | error e => rfl
                  | ok p =>
                      obtain ⟨more, msg⟩ := p
                      cases more <;> rfl
            · simp [hempty, hstream, hsame]

/-! ## What a callback sends -/

/-- A channel in the table sends, or the exception of its `send` ends the call. -/
theorem channel_send_run (env : NodeEnv) {s : Node} {n : Int} {channel : Channel}
    (hc : s.llm_task_channel_.lookup n = some channel) (object : Bytes) (data : Json) :
    (channel_send env n object data).run s =
      match channel.send env object data LLM_NO_ERROR [] with
      | .error e => .error e s
      | .ok (channel', outs) =>
          .ok () { s.withChannel n channel' with outs := s.outs ++ outs } := by
  unfold channel_send
  simp only [EStateM.run_bind, get_channel_run, hc, liftExcept_run]
  cases channel.send env object data LLM_NO_ERROR [] <;> rfl

/-- A streaming call up to its `send`. -/
theorem task_output_stream_run {env : NodeEnv} {s : Node} {n : Int} {task : Task}
    {channel : Channel} (htask : s.self.llm_task_.lookup n = some task)
    (hc : s.llm_task_channel_.lookup n = some channel) (hstream : channel.enstream_ = true)
    (data : Bytes) (finish : Bool) :
    (task_output env n data finish).run s =
      (channel_send env n task.response_format_ (data_body s.self.count data finish)).run
        { s with self.count := if finish then 0 else wrap32 (s.self.count + 1) } := by
  simp only [task_output, EStateM.run_bind, EStateM.run_get, htask, hc, hstream, if_true,
    EStateM.run_modify]

/-! ## Frame conditions of an inference

A preorder that every `channel_send` respects, and that does not look at the two statistics
`count` and `inferences`, is respected by the whole inference. -/

/-- A channel sends, or the node stays as it is. -/
theorem channel_send_final (env : NodeEnv) (n : Int) (object : Bytes) (data : Json) (s : Node) :
    final (channel_send env n object data) s = s ∨
      ∃ channel channel' outs, s.llm_task_channel_.lookup n = some channel ∧
        channel.send env object data LLM_NO_ERROR [] = .ok (channel', outs) ∧
        final (channel_send env n object data) s =
          { s.withChannel n channel' with outs := s.outs ++ outs } := by
  unfold final
  cases hc : s.llm_task_channel_.lookup n with
  | none =>
      left
      unfold channel_send
      simp only [EStateM.run_bind, get_channel_run, hc]
  | some channel =>
      rw [channel_send_run env hc]
      cases hsend : channel.send env object data LLM_NO_ERROR [] with
      | error e => exact .inl rfl
      | ok p => exact .inr ⟨channel, p.1, p.2, rfl, hsend, rfl⟩

section Frames

variable {env : NodeEnv} {n : Int} {R : Node → Node → Prop} [IsPreorder Node R]

theorem task_output_within (hsend : ∀ object data, Within R (channel_send env n object data))
    (hcount : ∀ (s : Node) count, R s { s with self.count := count }) (data : Bytes)
    (finish : Bool) : Within R (task_output env n data finish) := by
  refine .get_bind fun s => ?_
  split
  · split
    · exact Within.bind (.modify fun s => hcount s _) (fun _ => hsend _ _) s
    · split
      · exact hsend _ _ s
      · exact refl_of R s
  · exact refl_of R s

theorem inference_within (hsend : ∀ object data, Within R (channel_send env n object data))
    (hcount : ∀ (s : Node) count, R s { s with self.count := count })
    (hlog : ∀ (s : Node) inferences, R s { s with self.inferences := inferences })
    (msg : Bytes) : Within R (inference env n msg) := by
  have houtput := task_output_within hsend hcount
  refine .bind (.modify fun s => hlog s _) fun _ => ?_
  refine .bind (houtput _ _) fun _ => ?_
  refine .bind (houtput _ _) fun _ => ?_
  exact houtput _ _

end Frames

/-! ## What an inference leaves alone -/

/-- The task table and what identifies the unit stay as they are, and the push sockets stay
    connected to their channels' URLs. -/
structure NodeFrame (s s' : Node) : Prop where
  unit_name_ : s'.unit_name_ = s.unit_name_
  status_ : s'.status_ = s.status_
  llm_task_ : s'.self.llm_task_ = s.self.llm_task_
  push : Map.All Channel.PushOk s.llm_task_channel_ → Map.All Channel.PushOk s'.llm_task_channel_

instance : IsPreorder Node NodeFrame where
  refl _ := ⟨rfl, rfl, rfl, id⟩
  trans _ _ _ hab hbc :=
    ⟨hbc.1.trans hab.1, hbc.2.trans hab.2, hbc.3.trans hab.3, hbc.4 ∘ hab.4⟩

/-- Replacing one channel by another with its push socket in order. -/
theorem NodeFrame.withChannel (s : Node) (n : Int) {channel : Channel}
    (h : Map.All Channel.PushOk s.llm_task_channel_ → channel.PushOk) :
    NodeFrame s (s.withChannel n channel) :=
  ⟨rfl, rfl, rfl, fun hall => hall.insert n (h hall)⟩

theorem send_frame (env : NodeEnv) (object : Bytes) (data error_msg : Json)
    (work_id : Bytes) :
    Within NodeFrame (send env object data error_msg work_id [] : LlmM Unit) := by
  intro s
  unfold final
  rw [send_run]
  cases body env s object data error_msg work_id <;> exact ⟨rfl, rfl, rfl, id⟩

theorem channel_send_frame (env : NodeEnv) (n : Int) (object : Bytes) (data : Json) :
    Within NodeFrame (channel_send env n object data) := by
  intro s
  rcases channel_send_final env n object data s with
    hsame | ⟨channel, channel', outs, hc, hsend, hfinal⟩
  · rw [hsame]
    exact refl_of NodeFrame s
  -- what send does to the channel is in its own specification
  · have hframe : NodeFrame s (s.withChannel n channel') :=
      .withChannel s n fun hall => (Channel.send_spec hsend (hall n channel hc)).1
    rw [hfinal]
    exact ⟨hframe.1, hframe.2, hframe.3, hframe.4⟩

theorem task_user_data_frame (env : NodeEnv) (n : Int) (object data : Bytes) :
    Within NodeFrame (task_user_data env n object data) := by
  intro s
  have hbuff : ∀ b, NodeFrame s (withBuff s b) := fun _ => ⟨rfl, rfl, rfl, id⟩
  unfold final
  rw [task_user_data_run]
  -- Whatever the decision, only the stream buffer changes before the next call.
  cases intake s n object data with
  | reject code message b =>
      exact trans_of NodeFrame (hbuff b) (send_frame env _ _ _ _ (withBuff s b))
  | hold b => exact hbuff b
  | infer msg b =>
      have hrun := inference_within (channel_send_frame env n) (fun _ _ => ⟨rfl, rfl, rfl, id⟩)
        (fun _ _ => ⟨rfl, rfl, rfl, id⟩) msg
      exact trans_of NodeFrame (hbuff b) (hrun (withBuff s b))

/-- A message for a channel in the table. -/
theorem subscriber_event_call_run (env : NodeEnv) {n : Int} {s : Node} {channel : Channel}
    (hc : s.llm_task_channel_.lookup n = some channel) (_raw : Bytes) :
    (subscriber_event_call env n _raw).run s =
      (task_user_data env n (sample_json_str_get _raw (str "object"))
        (sample_json_str_get _raw (str "data"))).run
        (s.withChannel n (channel.take_user _raw)) := by
  simp [subscriber_event_call, get_channel_run, hc]

theorem subscriber_event_call_frame (env : NodeEnv) {n : Int} {s : Node} {channel : Channel}
    (hc : s.llm_task_channel_.lookup n = some channel) (_raw : Bytes) :
    NodeFrame s (final (subscriber_event_call env n _raw) s) := by
  have hframe : NodeFrame s (s.withChannel n (channel.take_user _raw)) :=
    .withChannel s n fun hall => (hall n channel hc).take_user _raw
  unfold final
  rw [subscriber_event_call_run env hc]
  exact trans_of NodeFrame hframe (task_user_data_frame env n _ _ _)

/-! ## Messages on a channel -/

/-- Replacing a channel that is there does not change the decision. -/
theorem intake_withChannel {s : Node} {n : Int} {channel : Channel}
    (hc : s.llm_task_channel_.lookup n = some channel) (channel' : Channel)
    (object data : Bytes) :
    intake (s.withChannel n channel') n object data = intake s n object data := by
  simp only [intake, withChannel, AList.lookup_insert, hc]
  cases s.self.llm_task_.lookup n <;> rfl

/-- What a message for a subscribed channel comes to, by the decision about it. -/
theorem message_run (env : NodeEnv) {s : Node} {n : Int} {channel : Channel}
    (hc : s.llm_task_channel_.lookup n = some channel) (hsub : channel.subscribed)
    (raw : Bytes) :
    ((NodeEvent.inference n raw).handle env).run s =
      let s' := s.withChannel n (channel.take_user raw)
      match intake s n (sample_json_str_get raw (str "object"))
          (sample_json_str_get raw (str "data")) with
      | .reject code message b => (send_error env code message s.unit_name_).run (withBuff s' b)
      | .hold b => .ok () (withBuff s' b)
      | .infer msg b => (inference env n msg).run (withBuff s' b) := by
  simp only [NodeEvent.handle, EStateM.run_bind, EStateM.run_get, hc, hsub, if_true,
    subscriber_event_call_run env hc, task_user_data_run, intake_withChannel hc]
  rfl

theorem inference_final (env : NodeEnv) {s : Node} {n : Int} {channel : Channel}
    (hc : s.llm_task_channel_.lookup n = some channel) (hsub : channel.subscribed)
    (raw : Bytes) :
    final ((NodeEvent.inference n raw).handle env) s =
      let s' := s.withChannel n (channel.take_user raw)
      match intake s n (sample_json_str_get raw (str "object"))
          (sample_json_str_get raw (str "data")) with
      | .reject code message b =>
          final (send_error env code message s.unit_name_) (withBuff s' b)
      | .hold b => withBuff s' b
      | .infer msg b => final (inference env n msg) (withBuff s' b) := by
  unfold final
  rw [message_run env hc hsub]
  cases intake s n (sample_json_str_get raw (str "object"))
    (sample_json_str_get raw (str "data")) <;> rfl

/-! ## The record of inferences -/

def SameInferences (s s' : Node) : Prop := s'.self.inferences = s.self.inferences

instance : IsPreorder Node SameInferences where
  refl _ := rfl
  trans _ _ _ hab hbc := hbc.trans hab

theorem task_output_inferences (env : NodeEnv) (n : Int) (data : Bytes) (finish : Bool) :
    Within SameInferences (task_output env n data finish) := by
  apply task_output_within
  · intro object data s
    rcases channel_send_final env n object data s with hsame | ⟨_, _, _, -, -, hfinal⟩
    · rw [hsame]
      exact refl_of SameInferences s
    · rw [hfinal]
      exact rfl
  · intro s count
    exact rfl

/-- A call of `inference` is recorded once, whatever happens to its output. -/
theorem inference_inferences (env : NodeEnv) (n : Int) (msg : Bytes) (s : Node) :
    (final (inference env n msg) s).self.inferences = s.self.inferences ++ [(n, msg)] := by
  have houtputs : Within SameInferences (do
      task_output env n msg false
      task_output env n (str "hello") false
      task_output env n [] true) := by
    refine .bind (task_output_inferences env n _ _) fun _ => ?_
    exact .bind (task_output_inferences env n _ _) fun _ => task_output_inferences env n _ _
  exact houtputs { s with self.inferences := s.self.inferences ++ [(n, msg)] }

/-- A message for a subscribed channel runs the inferences its decision says. -/
theorem message_inferences (env : NodeEnv) {s : Node} {n : Int} {channel : Channel}
    (hc : s.llm_task_channel_.lookup n = some channel) (hsub : channel.subscribed)
    (raw : Bytes) :
    (final ((NodeEvent.inference n raw).handle env) s).self.inferences =
      s.self.inferences ++ (intake s n (sample_json_str_get raw (str "object"))
        (sample_json_str_get raw (str "data"))).msg?.toList.map (n, ·) := by
  rw [inference_final env hc hsub]
  cases intake s n (sample_json_str_get raw (str "object"))
      (sample_json_str_get raw (str "data")) with
  | reject code message b =>
      simp only [final, send_error, send_run]
      cases body env _ _ _ _ _ <;> exact (List.append_nil _).symm
  | hold b => exact (List.append_nil _).symm
  | infer msg b => exact inference_inferences env n msg _

end Llm

/-- The calls of `inference` since the process was in state `p`. -/
def newInferences (p p' : NodeProcess) : List (Int × Bytes) :=
  p'.node.self.inferences.drop p.node.self.inferences.length

end DoubleTurnouts
