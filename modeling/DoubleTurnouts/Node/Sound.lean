/-
  DoubleTurnouts.Node.Sound

  What holds of the llm unit in every state it can reach: its name and
  status, tasks made from parsed configurations only, and push sockets that
  are connected where their channels say.  Every event keeps this, whether it
  is handled to the end or an exception stops it.
-/
import Mathlib.Tactic
import DoubleTurnouts.Node.Control
import DoubleTurnouts.Node.Inference

namespace DoubleTurnouts

open Text Decimal Effect StackFlow

/-! ## Strings of an accepted configuration -/

/-- The texts of a task are UTF-8. -/
def Task.Valid (task : Task) : Prop :=
  Utf8.Valid task.model_ ∧ Utf8.Valid task.response_format_ ∧
    ∀ input ∈ task.inputs_, Utf8.Valid input

theorem Json.mem_strings_of_at? {j v : Json} {key : Bytes} (h : j.at? key = some v)
    {s : Bytes} (hs : s ∈ v.strings) : s ∈ j.strings := by
  cases j with
  | object members =>
      -- the member at returns is one of the object's members
      obtain ⟨p, hp, rfl⟩ := Option.map_eq_some_iff.mp h
      have hmem : p ∈ members := List.mem_of_find?_eq_some hp
      simp only [strings]
      clear h hp
      induction members with
      | nil => cases hmem
      | cons q members ih =>
          obtain ⟨k, w⟩ := q
          simp only [memberStrings, List.mem_cons, List.mem_append]
          rcases List.mem_cons.mp hmem with rfl | hmem
          · exact .inr (.inl hs)
          · exact .inr (.inr (ih hmem))
  | null | bool | int | float | string | array => cases h

theorem Json.mem_itemStrings_of_mapM {items : List Json} {inputs : List Bytes}
    (h : items.mapM Json.string? = some inputs) {s : Bytes} (hs : s ∈ inputs) :
    s ∈ itemStrings items := by
  induction items generalizing inputs with
  | nil =>
      simp only [List.mapM_nil] at h
      cases h
      cases hs
  | cons j items ih =>
      simp only [List.mapM_cons] at h
      obtain ⟨t, ht, h⟩ := Option.bind_eq_some_iff.mp h
      obtain ⟨ts, hts, h⟩ := Option.bind_eq_some_iff.mp h
      cases h
      cases j with
      | string t' =>
          cases ht
          simp only [itemStrings, strings, List.mem_append, List.mem_singleton]
          rcases List.mem_cons.mp hs with rfl | hs
          · exact .inl rfl
          · exact .inr (ih hts hs)
      | null | bool | int | float | array | object => cases ht

/-- A string member of a configuration. -/
theorem Json.mem_strings_of_string? {j : Json} {key s : Bytes}
    (h : (j.at? key).bind Json.string? = some s) : s ∈ j.strings := by
  obtain ⟨v, hv, hs⟩ := Option.bind_eq_some_iff.mp h
  cases v with
  | string t =>
      cases hs
      exact Json.mem_strings_of_at? hv (by simp [strings])
  | null | bool | int | float | array | object => cases hs

theorem parse_config_valid {env : NodeEnv} {text : Bytes} {config : Json} {task : Task}
    (hparse : env.json_parse text = some config) (htask : parse_config config = some task) :
    task.Valid := by
  have hvalid := env.json_parse_valid hparse
  unfold parse_config at htask
  obtain ⟨j1, h1, htask⟩ := Option.bind_eq_some_iff.mp htask
  obtain ⟨model_, hmodel, htask⟩ := Option.bind_eq_some_iff.mp htask
  obtain ⟨j2, h2, htask⟩ := Option.bind_eq_some_iff.mp htask
  obtain ⟨response_format_, hformat, htask⟩ := Option.bind_eq_some_iff.mp htask
  obtain ⟨j3, -, htask⟩ := Option.bind_eq_some_iff.mp htask
  obtain ⟨enoutput_, -, htask⟩ := Option.bind_eq_some_iff.mp htask
  obtain ⟨inputs_, hinputs, htask⟩ := Option.bind_eq_some_iff.mp htask
  cases htask
  refine ⟨hvalid _ (Json.mem_strings_of_string? (by rw [h1]; exact hmodel)),
    hvalid _ (Json.mem_strings_of_string? (by rw [h2]; exact hformat)), ?_⟩
  intro input hinput
  apply hvalid
  -- The inputs are a single string, the items of an array, or nothing.
  unfold parse_inputs at hinputs
  split at hinputs
  · rename_i t hin
    cases hinputs
    exact Json.mem_strings_of_at? hin (by simpa [Json.strings] using hinput)
  · rename_i items hin
    exact Json.mem_strings_of_at? hin (Json.mem_itemStrings_of_mapM hinputs hinput)
  · cases hinputs
    cases hinput

/-! ## What holds in every reachable state -/

/-- The unit has its name and runs, every task came from a parsed configuration, and every
    push socket is connected to its channel's URL. -/
structure Sound (s : Node) : Prop where
  unit_name_ : s.unit_name_ = str "llm"
  status_ : s.status_ ≠ 0
  tasks : Map.All Task.Valid s.self.llm_task_
  push : Map.All Channel.PushOk s.llm_task_channel_

namespace Sound

open Llm

variable {s s' : Node}

theorem of_frame (h : Sound s) (hframe : NodeFrame s s') : Sound s' where
  unit_name_ := hframe.unit_name_.trans h.unit_name_
  status_ := by rw [hframe.status_]; exact h.status_
  tasks := by rw [hframe.llm_task_]; exact h.tasks
  push := hframe.push h.push

theorem dot_not_mem (h : Sound s) : ch '.' ∉ s.unit_name_ := by
  rw [h.unit_name_]
  decide

theorem openedChannel_pushOk (work_id out_port inference_port zmq_url raw : Bytes) :
    (openedChannel work_id out_port inference_port zmq_url raw).PushOk :=
  (Channel.new_pushOk out_port inference_port).set_push_url zmq_url

theorem opened (h : Sound s) (n : Int) (out_port inference_port zmq_url raw : Bytes) :
    Sound (s.opened n out_port inference_port zmq_url raw) :=
  ⟨h.1, h.2, h.3, h.push.insert n (openedChannel_pushOk _ _ _ _ _)⟩

theorem released (h : Sound s) (n : Int) (work_id : Bytes) : Sound (s.released n work_id) :=
  ⟨h.1, h.2, h.3, h.push.erase n⟩

theorem replied (h : Sound s) (out_body : OutBody) : Sound (s.replied out_body) :=
  ⟨h.1, h.2, h.3, h.4⟩

theorem serving_pushOk {channel : Channel} (h : channel.PushOk) (task : Task) :
    (serving channel task).PushOk := by
  intro sock hsock
  apply h sock
  rw [← hsock]
  -- the subscription goes into slot 0, not into that of the push socket
  exact (AList.lookup_insert_ne (by decide)).symm

theorem withTask (h : Sound s) {task : Task} (htask : task.Valid) (n : Int)
    {channel : Channel} (hpush : channel.PushOk) : Sound (withTask s n channel task) :=
  ⟨h.1, h.2, h.tasks.insert n htask, h.push.insert n (serving_pushOk hpush task)⟩

theorem stopped (h : Sound s) (n : Int) (channel : Channel) : Sound (stopped s n channel) :=
  ⟨h.1, h.2, h.tasks.erase n, h.push.insert n (Channel.stop_subscriber_nil_pushOk channel)⟩

end Sound

theorem verdict_accept_valid {env : NodeEnv} {s : Node} {data : Bytes} {task : Task}
    (h : Llm.verdict env s data = .accept task) : task.Valid := by
  unfold Llm.verdict at h
  split at h
  · cases h
  · split at h
    · cases h
    · rename_i config hparse
      split at h
      · cases h
      · rename_i task' htask
        cases h
        exact parse_config_valid hparse htask

/-! ## Every event keeps it -/

namespace Sound

open Llm

theorem setup_within (env : NodeEnv) (reply zmq_url raw : Bytes) :
    Within (Keeps Sound) (StackFlow.setup (handlers env) reply zmq_url raw) := by
  intro s hs
  unfold final
  rw [setup_run env hs.dot_not_mem]
  cases decode_register reply with
  -- the manager's answer could not be read: only the call was made
  | error e => exact ⟨hs.1, hs.2, hs.3, hs.4⟩
  | ok p =>
      obtain ⟨n, out_port, inference_port⟩ := p
      have hopened := hs.opened n out_port inference_port zmq_url raw
      simp only
      cases hverdict : verdict env (s.opened n out_port inference_port zmq_url raw)
          (sample_json_str_get raw (str "data")) with
      | refuse ret code message =>
          simp only
          generalize body env _ _ _ _ _ = result
          cases result with
          | error e => exact hopened
          | ok out_body => exact (hopened.replied out_body).released n _
      | accept task =>
          have htask := hopened.withTask (verdict_accept_valid hverdict) n
            (openedChannel_pushOk (sample_get_work_id n s.unit_name_) out_port inference_port
              zmq_url raw)
          simp only
          generalize body env _ _ _ _ _ = result
          cases result with
          | error e => exact htask
          | ok out_body => exact htask.replied out_body

theorem sys_release_unit_within (n : Int) (work_id : Bytes) :
    Within (Keeps Sound) (sys_release_unit n work_id : LlmM Unit) := by
  refine .get_bind fun s => ?_
  have hrelease : ∀ m work_id, Within (Keeps Sound) (modify fun s : Node =>
      { s with
        rpcs := s.rpcs ++ [⟨str "sys", str "release_unit", work_id⟩]
        llm_task_channel_ := s.llm_task_channel_.erase m } : LlmM Unit) :=
    fun m work_id => .modify fun s hs => hs.released m work_id
  dsimp only
  split
  · exact Within.bind (.pure n) (fun m => hrelease m _) s
  · exact Within.bind (.liftExcept _) (fun m => hrelease m _) s

theorem pushedTo_frame (s : Node) (zmq_url work_id : Bytes) :
    NodeFrame s (s.pushedTo zmq_url work_id) := by
  unfold pushedTo
  split
  · exact refl_of NodeFrame s
  · split
    · exact refl_of NodeFrame s
    · rename_i channel hc
      exact .withChannel s _ fun hall => (hall _ channel hc).set_push_url zmq_url

theorem exit_within (env : NodeEnv) (zmq_url raw : Bytes) :
    Within (Keeps Sound) (StackFlow.exit (handlers env) zmq_url raw) := by
  intro s hs
  have hpushed := hs.of_frame
    (pushedTo_frame s zmq_url (sample_json_str_get raw (str "work_id")))
  unfold final
  rw [exit_run]
  simp only
  generalize s.pushedTo zmq_url (sample_json_str_get raw (str "work_id")) = s' at hpushed ⊢
  cases sample_get_work_id_num (sample_json_str_get raw (str "work_id")) with
  | error e => exact hpushed
  | ok n =>
      simp only
      cases s'.self.llm_task_.lookup n with
      | none =>
          simp only
          generalize body env _ _ _ _ _ = result
          cases result with
          | error e => exact hpushed
          | ok out_body => exact hpushed.replied out_body
      | some task =>
          cases s'.llm_task_channel_.lookup n with
          | none => exact hpushed
          | some channel =>
              have hstopped := hpushed.stopped n channel
              simp only
              generalize body env _ _ _ _ _ = result
              cases result with
              | error e => exact hstopped
              | ok out_body =>
                  -- the release may throw on the work id, which keeps the state it is in
                  exact sys_release_unit_within _ _ _ (hstopped.replied out_body)

theorem inform_within {handler : Bytes → Bytes → Bytes → LlmM Unit}
    (h : ∀ work_id object data, Within NodeFrame (handler work_id object data))
    (zmq_url raw : Bytes) : Within NodeFrame (inform handler zmq_url raw) := by
  intro s
  unfold final
  rw [inform_run]
  exact trans_of NodeFrame (pushedTo_frame s _ _) (h _ _ _ _)

theorem taskinfo_within (env : NodeEnv) (work_id object data : Bytes) :
    Within NodeFrame (Llm.taskinfo env work_id object data) := by
  refine .get_bind fun s => ?_
  refine Within.bind (.liftExcept _) (fun n => ?_) s
  refine .ite (send_frame env _ _ _ _) ?_
  split
  · exact send_frame env _ _ _ _
  · exact send_frame env _ _ _ _

theorem handle_within {handler : Bytes → Bytes → LlmM Unit}
    (h : ∀ zmq_url raw, Within (Keeps Sound) (handler zmq_url raw)) (zmq_url data : Bytes) :
    Within (Keeps Sound) (StackFlow.handle zmq_url data handler) := by
  refine .bind (.modify fun s hs => ⟨hs.1, hs.2, hs.3, hs.4⟩) fun _ => ?_
  refine .get_bind fun s => ?_
  exact Within.ite (h zmq_url data) (.pure ()) s

theorem _event_within {handler : Bytes → Bytes → LlmM Unit}
    (h : ∀ zmq_url raw, Within (Keeps Sound) (handler zmq_url raw)) (msg : Bytes) :
    Within (Keeps Sound) (_event handler msg) := by
  refine .bind (.liftExcept _) fun zmq_url => ?_
  refine .bind (.liftExcept _) fun data => ?_
  exact handle_within h zmq_url data

theorem keeps_of_frame {α : Type} {m : LlmM α} (h : Within NodeFrame m) :
    Within (Keeps Sound) m := h.mono fun _ _ hframe hs => hs.of_frame hframe

/-- Whatever reaches the unit, and however it ends. -/
theorem handle_event (env : NodeEnv) (e : NodeEvent) : Within (Keeps Sound) (e.handle env) := by
  cases e with
  | setup msg reply => exact _event_within (setup_within env reply) msg
  | exit msg => exact _event_within (exit_within env) msg
  | taskinfo msg =>
      exact _event_within (fun u r => keeps_of_frame (inform_within (taskinfo_within env) u r))
        msg
  | pause msg =>
      refine .bind (.liftExcept _) fun zmq_url => ?_
      refine .bind (.liftExcept _) fun data => ?_
      refine handle_within (fun u r => keeps_of_frame (inform_within (fun w o d => ?_) u r))
        zmq_url data
      exact send_frame env _ _ _ _
  | inference n raw =>
      refine .get_bind fun s => ?_
      split
      · exact refl_of (Keeps Sound) s
      · rename_i channel hc
        split
        · exact fun hs => hs.of_frame (subscriber_event_call_frame env hc raw)
        · exact refl_of (Keeps Sound) s

theorem initial : Sound NodeProcess.initial.node where
  unit_name_ := rfl
  status_ := by decide
  tasks := Map.All.empty
  push := Map.All.empty

theorem step {p : NodeProcess} (hs : Sound p.node) (env : NodeEnv) (e : NodeEvent) :
    Sound (p.step env e).node := by
  rw [NodeProcess.step_node]
  split
  · exact handle_event env e p.node hs
  · exact hs

/-- Every reachable state is sound. -/
theorem run (env : NodeEnv) (es : List NodeEvent) :
    Sound (Run.exec (NodeProcess.step env) .initial es).node :=
  Run.exec_of_forall (I := fun p : NodeProcess => Sound p.node)
    (fun _ e hs => hs.step env e) initial es

end Sound

end DoubleTurnouts
