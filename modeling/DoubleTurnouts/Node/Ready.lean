/-
  DoubleTurnouts.Node.Ready

  A task that has been set up serves its messages to the end.  What a message
  needs is in place: the task, its channel with the publisher and the task's
  own subscription, and texts that can be encoded in a reply.  Nothing an
  inference does takes any of this away.
-/
import Mathlib.Tactic
import DoubleTurnouts.Lib.Effect
import DoubleTurnouts.Node.Inference

namespace DoubleTurnouts

open Text Decimal Effect

/-! ## Channels -/

/-- The publisher and the subscription are there, and the reply context is UTF-8. -/
structure Channel.Ready (channel : Channel) : Prop where
  publisher : ∃ sock, channel.zmq_.lookup (-1) = some (some sock)
  subscription : ∃ sock, channel.zmq_.lookup 0 = some (some sock)
  request_id_ : Utf8.Valid channel.request_id_
  work_id_ : Utf8.Valid channel.work_id_

theorem isSome_join_iff {α : Type} {entry : Option (Option α)} :
    entry.join.isSome ↔ ∃ a, entry = some (some a) := by
  match entry with
  | none => simp
  | some none => simp
  | some (some a) => simp

instance (channel : Channel) : Decidable channel.Ready :=
  decidable_of_iff
    ((channel.zmq_.lookup (-1)).join.isSome ∧ (channel.zmq_.lookup 0).join.isSome ∧
      Utf8.Valid channel.request_id_ ∧ Utf8.Valid channel.work_id_)
    ⟨fun ⟨hpub, hsub, hid, hwork⟩ =>
        ⟨isSome_join_iff.mp hpub, isSome_join_iff.mp hsub, hid, hwork⟩,
      fun ⟨hpub, hsub, hid, hwork⟩ =>
        ⟨isSome_join_iff.mpr hpub, isSome_join_iff.mpr hsub, hid, hwork⟩⟩

namespace Channel.Ready

variable {channel : Channel}

theorem subscribed (h : channel.Ready) : channel.subscribed := by
  obtain ⟨sock, hsock⟩ := h.subscription
  simp [Channel.subscribed, slot, hsock]

/-- The push socket is not among what has to be there. -/
theorem insert_push (h : channel.Ready) (sock : Option Sock) :
    ({ channel with zmq_ := channel.zmq_.insert (-2) sock } : Channel).Ready := by
  obtain ⟨⟨pub, hpub⟩, ⟨sub, hsub⟩, hid, hwork⟩ := h
  refine ⟨⟨pub, ?_⟩, ⟨sub, ?_⟩, hid, hwork⟩
  · rw [AList.lookup_insert_ne (by decide)]
    exact hpub
  · rw [AList.lookup_insert_ne (by decide)]
    exact hsub

theorem slot_push (h : channel.Ready) : (channel.slot (-2)).2.Ready := by
  unfold Channel.slot
  split
  · exact h
  · exact h.insert_push none

theorem set_push_url (h : channel.Ready) (url : Bytes) : (channel.set_push_url url).Ready := by
  unfold Channel.set_push_url
  split
  · have hpush := h.insert_push (some ⟨url, .push⟩)
    exact ⟨hpush.1, hpush.2, hpush.3, hpush.4⟩
  · exact h

theorem take_user (h : channel.Ready) {raw : Bytes} (hraw : Utf8.Valid raw) :
    (channel.take_user raw).Ready := by
  have hurl : ∀ url, (channel.set_push_url url).Ready := h.set_push_url
  unfold Channel.take_user
  split
  · dsimp only
    split
    · obtain ⟨hpub, hsub, -, -⟩ := hurl (sample_json_str_get raw (str "zmq_com"))
      exact ⟨hpub, hsub, sample_json_str_get_valid hraw, sample_json_str_get_valid hraw⟩
    · exact ⟨h.1, h.2, sample_json_str_get_valid hraw, sample_json_str_get_valid hraw⟩
  · exact h

/-- A ready channel sends every text that nlohmann can encode, and stays ready. -/
theorem send (h : channel.Ready) (env : NodeEnv) {object : Bytes} {data : Json}
    (hobject : Utf8.Valid object)
    (hdata : env.mode = .convert → ∀ s ∈ data.strings, Utf8.Valid s) :
    ∃ channel' outs, channel.send env object data LLM_NO_ERROR [] = .ok (channel', outs) ∧
      channel'.Ready := by
  have hdump : env.dump
      { request_id := channel.request_id_
        work_id := channel.work_id_
        object := object
        data := data
        error := error_member LLM_NO_ERROR } = .ok () := by
    cases hmode : env.mode with
    | emit => exact NodeEnv.dump_emit hmode _
    | convert =>
        rw [NodeEnv.dump_convert hmode, if_pos]
        rw [OutBody.strings_valid_iff]
        have herror : ∀ s ∈ (error_member LLM_NO_ERROR).strings, Utf8.Valid s := by
          decide +kernel
        exact ⟨h.request_id_, h.work_id_, hobject, hdata hmode, herror⟩
  obtain ⟨pub, hpub⟩ := h.publisher
  have hslot : channel.slot (-1) = (some pub, channel) := by simp [Channel.slot, hpub]
  have herror : env.error_msg LLM_NO_ERROR = .ok LLM_NO_ERROR := env.error_msg_string []
  unfold Channel.send
  rw [herror]
  simp only [Bind.bind, Except.bind, if_true, hdump, hslot]
  by_cases hout : channel.enoutput_ = true
  · rw [if_pos hout]
    exact ⟨_, _, rfl, h.slot_push⟩
  · rw [if_neg hout]
    exact ⟨_, _, rfl, h⟩

end Channel.Ready

/-! ## Tasks -/

/-- Task `n` is set up. -/
structure Node.Ready (n : Int) (s : Node) : Prop where
  task : ∃ task, s.self.llm_task_.lookup n = some task ∧ Utf8.Valid task.response_format_
  channel : ∃ channel, s.llm_task_channel_.lookup n = some channel ∧ channel.Ready

instance (n : Int) (s : Node) : Decidable (Node.Ready n s) :=
  decidable_of_iff
    ((∃ task ∈ s.self.llm_task_.lookup n, Utf8.Valid task.response_format_) ∧
      ∃ channel ∈ s.llm_task_channel_.lookup n, channel.Ready)
    ⟨fun h => ⟨h.1, h.2⟩, fun h => ⟨h.task, h.channel⟩⟩

/-- Tasks stay set up, and neither the stream buffer nor the record of inferences
    changes. -/
structure ReadyFrame (s s' : Node) : Prop where
  ready : ∀ n, Node.Ready n s → Node.Ready n s'
  stream_buff : s'.self.stream_buff = s.self.stream_buff
  inferences : s'.self.inferences = s.self.inferences

instance : IsPreorder Node ReadyFrame where
  refl _ := ⟨fun _ h => h, rfl, rfl⟩
  trans _ _ _ hab hbc :=
    ⟨fun n h => hbc.1 n (hab.1 n h), hbc.2.trans hab.2, hbc.3.trans hab.3⟩

theorem Node.Ready.withChannel {s : Node} {n m : Int} (h : Node.Ready n s)
    {channel : Channel} (hc : channel.Ready) : Node.Ready n (s.withChannel m channel) := by
  refine ⟨h.task, ?_⟩
  rcases eq_or_ne n m with rfl | hne
  · exact ⟨channel, AList.lookup_insert _, hc⟩
  · obtain ⟨channel', hlookup, hready⟩ := h.channel
    refine ⟨channel', ?_, hready⟩
    rw [StackFlow.withChannel, AList.lookup_insert_ne hne]
    exact hlookup

namespace Llm

open StackFlow

theorem channel_send_completes (env : NodeEnv) {n : Int} {s : Node} (h : Node.Ready n s)
    {object : Bytes} {data : Json} (hobject : Utf8.Valid object)
    (hdata : ∀ t ∈ data.strings, Utf8.Valid t) :
    Completes ReadyFrame (channel_send env n object data) s := by
  obtain ⟨channel, hc, hready⟩ := h.channel
  obtain ⟨channel', outs, hsend, hready'⟩ := hready.send env hobject fun _ => hdata
  refine ⟨(), { s.withChannel n channel' with outs := s.outs ++ outs }, ?_, ?_, rfl, rfl⟩
  · simp only [channel_send, EStateM.run_bind, get_channel_run, hc, liftExcept_run, hsend]
    rfl
  · intro m hm
    have hm' : Node.Ready m (s.withChannel n channel') := hm.withChannel hready'
    exact ⟨hm'.task, hm'.channel⟩

theorem task_output_completes (env : NodeEnv) {n : Int} {s : Node} (h : Node.Ready n s)
    {data : Bytes} (hdata : Utf8.Valid data) (finish : Bool) :
    Completes ReadyFrame (task_output env n data finish) s := by
  obtain ⟨task, htask, hformat⟩ := h.task
  obtain ⟨channel, hc, hready⟩ := h.channel
  -- the chunk's strings are member names and the delta
  have hbody : ∀ index, ∀ t ∈ (data_body index data finish).strings, Utf8.Valid t := by
    intro index
    simp only [data_body, Json.strings, Json.memberStrings]
    cases finish <;> simp [hdata] <;> decide +kernel
  refine .get_bind ?_
  simp only [htask, hc]
  split
  · -- counting the chunk touches nothing a message needs
    have hcount : ∀ count, ReadyFrame s { s with self.count := count } :=
      fun _ => ⟨fun _ hm => ⟨hm.task, hm.channel⟩, rfl, rfl⟩
    refine .bind (.modify (hcount _)) fun _ s' hs' => ?_
    exact channel_send_completes env (hs'.ready n h) hformat (hbody _)
  · split
    · exact channel_send_completes env h hformat (by simpa [Json.strings] using hdata)
    · exact .pure () s

/-- An inference is recorded once and runs to its end. -/
theorem inference_completes (env : NodeEnv) {n : Int} {s : Node} (h : Node.Ready n s)
    {msg : Bytes} (hmsg : Utf8.Valid msg) :
    Completes (fun s s' => (∀ m, Node.Ready m s → Node.Ready m s') ∧
        s'.self.stream_buff = s.self.stream_buff ∧
        s'.self.inferences = s.self.inferences ++ [(n, msg)]) (inference env n msg) s := by
  let s1 : Node := { s with self.inferences := s.self.inferences ++ [(n, msg)] }
  have hready1 : ∀ m, Node.Ready m s → Node.Ready m s1 := fun _ hm => ⟨hm.task, hm.channel⟩
  have hhello : Utf8.Valid (str "hello") := by decide +kernel
  have houtputs : Completes ReadyFrame
      (do
        task_output env n msg false
        task_output env n (str "hello") false
        task_output env n [] true) s1 := by
    refine .bind (task_output_completes env (hready1 n h) hmsg false) fun _ s2 h2 => ?_
    have hready2 : Node.Ready n s2 := h2.ready n (hready1 n h)
    refine .bind (task_output_completes env hready2 hhello false) fun _ s3 h3 => ?_
    have hnil : Utf8.Valid [] := rfl
    exact task_output_completes env (h3.ready n hready2) hnil true
  obtain ⟨a, s', hrun, hframe⟩ := houtputs
  exact ⟨a, s', hrun, fun m hm => hframe.ready m (hready1 m hm), hframe.stream_buff,
    hframe.inferences⟩

/-! ## Messages -/

/-- `joinStream` concatenates what is in the buffer. -/
theorem joinStream_valid {stream_buff : Map Int Bytes} (h : Map.All Utf8.Valid stream_buff)
    {n i : Nat} {out : Bytes} (hjoin : joinStream stream_buff n i = .ok out) :
    Utf8.Valid out := by
  induction n generalizing i out with
  | zero =>
      cases hjoin
      exact rfl
  | succ n ih =>
      simp only [joinStream] at hjoin
      cases hlookup : stream_buff.lookup (wrap32 i) with
      | none =>
          rw [hlookup] at hjoin
          cases hjoin
      | some delta =>
          rw [hlookup] at hjoin
          cases hrest : joinStream stream_buff n (i + 1) with
          | error e =>
              simp only [hrest] at hjoin
              cases hjoin
          | ok rest =>
              simp only [hrest] at hjoin
              cases hjoin
              exact (h _ delta hlookup).append (ih hrest)

theorem intakeData_valid (object : Bytes) {data : Bytes} (hdata : Utf8.Valid data)
    {stream_buff : Map Int Bytes} (h : Map.All Utf8.Valid stream_buff) :
    Map.All Utf8.Valid (intakeData object data stream_buff).buff ∧
      ∀ msg ∈ (intakeData object data stream_buff).msg?, Utf8.Valid msg := by
  have hempty : Map.All Utf8.Valid (∅ : Map Int Bytes) := .empty
  have hreject : ∀ code message {b : Map Int Bytes}, Map.All Utf8.Valid b →
      Map.All Utf8.Valid (Intake.reject code message b).buff ∧
        ∀ msg ∈ (Intake.reject code message b).msg?, Utf8.Valid msg :=
    fun _ _ _ hb => ⟨hb, by simp [Intake.msg?]⟩
  by_cases hnone : data = [] ∨ data = str "None"
  · rw [intakeData, if_pos hnone]
    exact hreject _ _ h
  · by_cases hstream : (find (str "stream") object).isSome
    · cases hindex : stoi (sample_json_str_get data (str "index")) with
      | error e =>
          rw [intakeData, if_neg hnone, if_pos hstream, decode_stream_eq, hindex]
          exact hreject _ _ hempty
      | ok index =>
          have hinsert : Map.All Utf8.Valid
              (stream_buff.insert index (sample_json_str_get data (str "delta"))) :=
            h.insert index (sample_json_str_get_valid hdata)
          rw [intakeData_chunk hstream hindex]
          dsimp only
          split
          · split
            · rename_i out hjoin
              exact ⟨hempty, by simpa [Intake.msg?] using joinStream_valid hinsert hjoin⟩
            · exact hreject _ _ hempty
          · exact ⟨hinsert, by simp [Intake.msg?]⟩
    · rw [intakeData, if_neg hnone, if_neg hstream]
      exact ⟨h, by simpa [Intake.msg?] using hdata⟩

/-- The decision about a message for a task that is set up. -/
theorem intake_of_ready {s : Node} {n : Int} (h : Node.Ready n s) (object data : Bytes) :
    intake s n object data = intakeData object data s.self.stream_buff := by
  obtain ⟨task, htask, -⟩ := h.task
  obtain ⟨channel, hc, -⟩ := h.channel
  simp only [intake, htask, hc]

end Llm

/-- The decision about the data a message carries. -/
def NodeProcess.intake (p : NodeProcess) (raw : Bytes) : Llm.Intake :=
  Llm.intakeData (sample_json_str_get raw (str "object")) (sample_json_str_get raw (str "data"))
    p.node.self.stream_buff

/-- A message for a task that is set up: the buffer and the record of inferences change as
    the decision says, every task stays set up, and only a rejection can end the process. -/
theorem NodeProcess.step_message (env : NodeEnv) {p : NodeProcess} (halive : p.alive = true)
    {n : Int} (h : Node.Ready n p.node) (hbuff : Map.All Utf8.Valid p.node.self.stream_buff)
    {raw : Bytes} (hraw : Utf8.Valid raw) :
    let p' := p.step env (.inference n raw)
    p'.node.self.stream_buff = (p.intake raw).buff ∧
      p'.node.self.inferences = p.node.self.inferences ++ (p.intake raw).msg?.toList.map (n, ·) ∧
      ((p.intake raw).isReject = false → p'.alive = true) ∧
      ∀ m, Node.Ready m p.node → Node.Ready m p'.node := by
  obtain ⟨channel, hc, hready⟩ := h.channel
  have hdata : Utf8.Valid (sample_json_str_get raw (str "data")) := sample_json_str_get_valid hraw
  have hrun := Llm.message_run env hc hready.subscribed raw
  -- the message's context is UTF-8 and the stream buffer is not among what a task needs
  have hkept : ∀ b m, Node.Ready m p.node →
      Node.Ready m (Llm.withBuff (p.node.withChannel n (channel.take_user raw)) b) := by
    intro b m hm
    have hm' := hm.withChannel (m := n) (hready.take_user hraw)
    exact ⟨hm'.task, hm'.channel⟩
  rw [Llm.intake_of_ready h] at hrun
  obtain ⟨-, hmsg⟩ := Llm.intakeData_valid (sample_json_str_get raw (str "object")) hdata hbuff
  have hsame : ∀ b, (Llm.withBuff (p.node.withChannel n (channel.take_user raw)) b).self.inferences
      = p.node.self.inferences ++ (none : Option Bytes).toList.map (n, ·) := by
    intro b
    exact (List.append_nil _).symm
  unfold NodeProcess.intake
  simp only [NodeProcess.step, halive, if_true, hrun]
  cases hintake : Llm.intakeData (sample_json_str_get raw (str "object"))
      (sample_json_str_get raw (str "data")) p.node.self.stream_buff with
  | reject code message b =>
      -- the one way to end here is an exception from the error reply
      simp only [StackFlow.send_error, StackFlow.send_run]
      cases StackFlow.body env _ _ _ _ _ with
      | error e =>
          refine ⟨rfl, hsame b, ?_, hkept b⟩
          intro hr
          cases hr
      | ok out_body =>
          refine ⟨rfl, hsame b, fun _ => rfl, ?_⟩
          intro m hm
          exact ⟨(hkept b m hm).task, (hkept b m hm).channel⟩
  | hold b => exact ⟨rfl, hsame b, fun _ => rfl, hkept b⟩
  | infer msg b =>
      rw [hintake] at hmsg
      obtain ⟨a, s', hinfer, hready', hb, hlog⟩ :=
        Llm.inference_completes env (hkept b n h) (hmsg msg rfl)
      simp only [hinfer]
      exact ⟨hb, hlog, fun _ => trivial, fun m hm => hready' m (hkept b m hm)⟩

end DoubleTurnouts
