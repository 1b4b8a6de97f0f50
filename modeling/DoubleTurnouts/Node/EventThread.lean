/-
  DoubleTurnouts.Node.EventThread

  Which control requests the llm unit's event thread survives.  A refusal
  passes its error object to `send` as a string; the conversion throws, and so
  does every refusal.  A pause is always refused.  What is left are the
  granted requests, and of these the ones whose reply can be serialised
  (`control_request_survives_iff`).
-/
import Mathlib.Tactic
import DoubleTurnouts.Node.Sound

namespace DoubleTurnouts

open Text Decimal Effect StackFlow

/-! ## When a request is granted, and when it is answered -/

namespace ControlRequest

/-- The URL fits a parameter, and a registration is answered with a fresh number. -/
def Ordinary (s : Node) (r : ControlRequest) : Prop :=
  r.url.length ≤ 127 ∧
    match r.action with
    | .setup reply => ∃ n urls, decode_register reply = .ok (n, urls) ∧
        s.llm_task_channel_.lookup n = none
    | _ => True

/-- The unit can do what is asked: there is room and the configuration is good; the work id
    is that of a live task; or, for a taskinfo, it may also have no number. -/
def Granted (env : NodeEnv) (s : Node) (r : ControlRequest) : Prop :=
  match r.action with
  | .setup _ => (Map.size s.llm_task_channel_ : Int) ≠ s.self.task_count_ ∧
      ∃ config, env.json_parse r.data = some config ∧ (parse_config config).isSome
  | .exit => ∃ n, sample_get_work_id_num r.work_id = .ok n ∧
      (s.self.llm_task_.lookup n).isSome ∧ (s.llm_task_channel_.lookup n).isSome
  | .pause => False
  | .taskinfo => ∃ n, sample_get_work_id_num r.work_id = .ok n ∧
      (n = WORK_ID_NONE ∨ (s.self.llm_task_.lookup n).isSome)

/-- The texts of the reply are UTF-8: the request id, an echoed work id and, in a task list,
    the work ids of the channels. -/
def Encodable (s : Node) (r : ControlRequest) : Prop :=
  Utf8.Valid r.request_id ∧
    match r.action with
    | .setup _ => True
    | .exit | .pause => Utf8.Valid r.work_id
    | .taskinfo => Utf8.Valid r.work_id ∧
        (sample_get_work_id_num r.work_id = .ok WORK_ID_NONE →
          ∀ n channel, s.llm_task_channel_.lookup n = some channel →
            Utf8.Valid channel.work_id_)

/-- A reply to the requester. -/
def Answers (r : ControlRequest) (o : Out) : Prop := o.kind = .push ∧ o.url = r.url

/-- The event is handled without an exception and answered, a refused request with a
    non-zero code. -/
def Survives (env : NodeEnv) (s : Node) (r : ControlRequest) : Prop :=
  ∃ s' new, (r.event.handle env).run s = .ok () s' ∧ s'.outs = s.outs ++ new ∧
    (∃ o ∈ new, r.Answers o) ∧
    (¬ r.Granted env s → ∃ o ∈ new, r.Answers o ∧
      ∃ code message, o.body.error = error_body code message ∧ code ≠ 0)

end ControlRequest

/-! ## When a granted request is answered -/

/-- A work id the unit makes is ASCII. -/
theorem valid_work_id (n : Int) : Utf8.Valid (sample_get_work_id n (str "llm")) := by
  apply Utf8.valid_of_ascii
  intro c hc
  simp only [sample_get_work_id, List.mem_append, List.mem_cons] at hc
  rcases hc with hc | rfl | hc
  · revert c
    decide
  · decide
  · rcases mem_to_string hc with rfl | hdigit
    · decide
    · have hrange := isDigit_iff.mp hdigit
      have h80 : (0x80 : UInt8).toNat = 128 := rfl
      rw [UInt8.lt_iff_toNat_lt]
      omega

/-- The verdict in terms of the state before the registration. -/
theorem verdict_opened_accept_iff {env : NodeEnv} {s : Node} {n : Int}
    (hfresh : s.llm_task_channel_.lookup n = none)
    (out_port inference_port zmq_url raw data : Bytes) :
    (∃ task, Llm.verdict env (s.opened n out_port inference_port zmq_url raw) data
        = .accept task) ↔
      (Map.size s.llm_task_channel_ : Int) ≠ s.self.task_count_ ∧
        ∃ config, env.json_parse data = some config ∧ (parse_config config).isSome := by
  have hsize : (Map.size (s.opened n out_port inference_port zmq_url raw).llm_task_channel_ : Int)
      - 1 = Map.size s.llm_task_channel_ := by
    rw [show (s.opened n out_port inference_port zmq_url raw).llm_task_channel_
        = s.llm_task_channel_.insert n _ from rfl, Map.size_insert_of_lookup_eq_none _ hfresh]
    omega
  unfold Llm.verdict
  rw [hsize, show (s.opened n out_port inference_port zmq_url raw).self = s.self from rfl]
  by_cases hfull : (Map.size s.llm_task_channel_ : Int) = s.self.task_count_
  · simp [hfull]
  · cases env.json_parse data with
    | none => simp [hfull]
    | some config => cases htask : parse_config config <;> simp [hfull, htask]

namespace ControlRequest

open Llm

variable {env : NodeEnv} {s : Node} {r : ControlRequest}

/-- A granted request needs its one reply. -/
theorem survives_of_reply {s' : Node} {out_body : OutBody} (hgranted : r.Granted env s)
    (hrun : (r.event.handle env).run s = .ok () s')
    (houts : s'.outs = s.outs ++ [⟨.push, r.url, out_body⟩]) : r.Survives env s :=
  ⟨s', _, hrun, houts, ⟨_, List.mem_singleton_self _, rfl, rfl⟩,
    fun hrefused => absurd hgranted hrefused⟩

theorem not_survives_of_error {s' : Node} {e : Exn}
    (hrun : (r.event.handle env).run s = .error e s') : ¬ r.Survives env s := by
  rintro ⟨s'', new, hok, -⟩
  rw [hrun] at hok
  cases hok

/-- The event of a request with a short URL runs its handler in the new reply context. -/
theorem handle_event_run (hs : Sound s) (hlen : r.url.length ≤ 127)
    {handler : Bytes → Bytes → LlmM Unit}
    (hevent : r.event.handle env = _event handler (set_param r.url r.text)) :
    (r.event.handle env).run s = (handler r.url r.text).run (s.addressed r.url r.text) := by
  rw [hevent, _event_run hlen r.text handler hs.status_]

theorem setup_survives_iff (hmode : env.mode = .convert) (hs : Sound s) {reply : Bytes}
    (haction : r.action = .setup reply) (hr : r.Ordinary s) :
    r.Survives env s ↔ r.Granted env s ∧ r.Encodable s := by
  obtain ⟨hlen, hreply⟩ := hr
  simp only [haction] at hreply
  obtain ⟨n, ⟨out_port, inference_port⟩, hdecode, hfresh⟩ := hreply
  have hevent : r.event.handle env
      = _event (StackFlow.setup (handlers env) reply) (set_param r.url r.text) := by
    simp only [event, haction]
    rfl
  have hrun := handle_event_run hs hlen hevent
  rw [setup_run env (s := s.addressed r.url r.text) hs.dot_not_mem, hdecode] at hrun
  have hgranted : r.Granted env s ↔ ∃ task, verdict env
      ((s.addressed r.url r.text).opened n out_port inference_port r.url r.text) r.data
        = .accept task := by
    simp only [Granted, haction]
    exact (verdict_opened_accept_iff (s := s.addressed r.url r.text) hfresh _ _ _ _ _).symm
  have hencodable : r.Encodable s ↔ Utf8.Valid r.request_id := by
    simp [Encodable, haction]
  -- a refused setup throws when its error is put into a reply, a granted one only on a bad id
  simp only at hrun
  cases hverdict : verdict env
      ((s.addressed r.url r.text).opened n out_port inference_port r.url r.text) r.data with
  | refuse ret code message =>
      rw [show sample_json_str_get r.text (str "data") = r.data from rfl, hverdict] at hrun
      simp only [body_error_convert hmode] at hrun
      have hno : ¬ r.Granted env s := by
        rw [hgranted, hverdict]
        rintro ⟨task, htask⟩
        cases htask
      simp [not_survives_of_error hrun, hno]
  | accept task =>
      rw [show sample_json_str_get r.text (str "data") = r.data from rfl, hverdict] at hrun
      have hwork : Utf8.Valid
          (sample_get_work_id n (s.addressed r.url r.text).unit_name_) := by
        rw [show (s.addressed r.url r.text).unit_name_ = str "llm" from hs.unit_name_]
        exact valid_work_id n
      have hnone : Utf8.Valid (str "None") ∧ ∀ t ∈ LLM_NONE.strings, Utf8.Valid t := by decide
      have hyes : r.Granted env s := hgranted.mpr ⟨task, hverdict⟩
      simp only at hrun
      by_cases hid : Utf8.Valid r.request_id
      · rw [body_no_error_convert hmode, if_pos ⟨hid, hwork, hnone⟩] at hrun
        simp [survives_of_reply hyes hrun rfl, hyes, hencodable, hid]
      · rw [body_no_error_convert hmode, if_neg fun h => hid h.1] at hrun
        simp [not_survives_of_error hrun, hencodable, hid]

theorem exit_survives_iff (hmode : env.mode = .convert) (hs : Sound s)
    (haction : r.action = .exit) (hr : r.Ordinary s) :
    r.Survives env s ↔ r.Granted env s ∧ r.Encodable s := by
  have hevent : r.event.handle env
      = _event (StackFlow.exit (handlers env)) (set_param r.url r.text) := by
    simp only [event, haction]
    rfl
  have hrun := handle_event_run hs hr.1 hevent
  rw [exit_run, show sample_json_str_get r.text (str "work_id") = r.work_id from rfl] at hrun
  have hgranted : r.Granted env s ↔ ∃ n, sample_get_work_id_num r.work_id = .ok n ∧
      (s.self.llm_task_.lookup n).isSome ∧ (s.llm_task_channel_.lookup n).isSome := by
    simp only [Granted, haction]
  have hencodable : r.Encodable s ↔ Utf8.Valid r.request_id ∧ Utf8.Valid r.work_id := by
    simp only [Encodable, haction]
  have hlookup := (s.addressed r.url r.text).pushedTo_lookup r.url r.work_id
  obtain ⟨channels, hpushed⟩ := (s.addressed r.url r.text).pushedTo_frame r.url r.work_id
  simp only [hpushed] at hrun hlookup
  rw [hgranted, hencodable]
  cases hn : sample_get_work_id_num r.work_id with
  | error e =>
      rw [hn] at hrun
      simp [not_survives_of_error hrun]
  | ok n =>
      simp only [hn] at hrun
      -- the task and the channel are looked up one after the other, each with a branch of its own
      cases htask : s.self.llm_task_.lookup n with
      | none =>
          simp only [addressed, htask, body_error_convert hmode] at hrun
          simp [not_survives_of_error hrun, htask]
      | some task =>
          cases hc : s.llm_task_channel_.lookup n with
          | none =>
              have hnone : channels.lookup n = none := by simpa [addressed, hc] using hlookup n
              simp only [addressed, htask, hnone] at hrun
              simp [not_survives_of_error hrun, hc]
          | some channel =>
              obtain ⟨channel', hsome⟩ : ∃ channel', channels.lookup n = some channel' :=
                ⟨_, by simpa [addressed, hc] using hlookup n⟩
              simp only [addressed, htask, hsome] at hrun
              have hnone : Utf8.Valid (str "None") ∧ ∀ t ∈ LLM_NONE.strings, Utf8.Valid t := by
                decide
              by_cases hvalid : Utf8.Valid r.request_id ∧ Utf8.Valid r.work_id
              · rw [body_no_error_convert hmode, if_pos ⟨hvalid.1, hvalid.2, hnone⟩] at hrun
                simp only at hrun
                obtain ⟨m, w, hrelease⟩ := sys_release_unit_ok hn (-1) (s := StackFlow.replied
                  (stopped _ n channel') _)
                rw [hrelease] at hrun
                have hyes : r.Granted env s :=
                  hgranted.mpr ⟨n, hn, by simp [htask], by simp [hc]⟩
                simp [survives_of_reply hyes hrun rfl, hvalid, htask, hc]
              · rw [body_no_error_convert hmode,
                  if_neg fun h => hvalid ⟨h.1, h.2.1⟩] at hrun
                simp [not_survives_of_error hrun, hvalid]

theorem pause_not_survives (hmode : env.mode = .convert) (hs : Sound s)
    (haction : r.action = .pause) (hr : r.Ordinary s) : ¬ r.Survives env s := by
  have hevent : r.event.handle env = _pause (handlers env) (set_param r.url r.text) := by
    simp only [event, haction]
    rfl
  have hrun := _pause_run hr.1 r.text (handlers env) hs.status_
  rw [← hevent, StackFlow.pause, inform_run] at hrun
  simp only [handlers, not_have_unit_action, send_error, send_run,
    body_error_convert hmode] at hrun
  exact not_survives_of_error hrun

theorem itemStrings_map_string (items : List Bytes) :
    Json.itemStrings (items.map .string) = items := by
  induction items with
  | nil => rfl
  | cons t items ih => simp [Json.itemStrings, Json.strings, ih]

/-- The strings of the task list are the work ids of the channels. -/
theorem task_list_valid_iff (s : Node) :
    (∀ t ∈ (task_list s).strings, Utf8.Valid t) ↔
      ∀ n channel, s.llm_task_channel_.lookup n = some channel →
        Utf8.Valid channel.work_id_ := by
  have hlist : (task_list s).strings
      = s.llm_task_channel_.entries.map fun e => e.2.work_id_ := by
    rw [task_list, Json.strings, ← itemStrings_map_string (s.llm_task_channel_.entries.map _),
      List.map_map]
    rfl
  rw [hlist]
  constructor
  · intro h n channel hc
    exact h _ (List.mem_map.mpr ⟨⟨n, channel⟩, AList.mem_lookup_iff.mp hc, rfl⟩)
  · intro h t ht
    obtain ⟨⟨n, channel⟩, hmem, rfl⟩ := List.mem_map.mp ht
    exact h n channel (AList.mem_lookup_iff.mpr hmem)

/-- Redirecting a channel does not change what the list holds. -/
theorem task_list_pushedTo_valid_iff (s : Node) (zmq_url work_id : Bytes) :
    (∀ t ∈ (task_list (s.pushedTo zmq_url work_id)).strings, Utf8.Valid t) ↔
      ∀ n channel, s.llm_task_channel_.lookup n = some channel →
        Utf8.Valid channel.work_id_ := by
  have hsame : ∀ n, ((s.pushedTo zmq_url work_id).llm_task_channel_.lookup n).map
      Channel.work_id_ = (s.llm_task_channel_.lookup n).map Channel.work_id_ := by
    intro n
    rw [pushedTo_lookup, Option.map_map]
    congr 1
    funext channel
    simp only [Function.comp_apply]
    split <;> simp
  rw [task_list_valid_iff]
  constructor
  · intro h n channel hc
    have hn := hsame n
    rw [hc, Option.map_some] at hn
    obtain ⟨channel', hc', hwork⟩ := Option.map_eq_some_iff.mp hn
    rw [← hwork]
    exact h n channel' hc'
  · intro h n channel hc
    have hn := hsame n
    rw [hc, Option.map_some] at hn
    obtain ⟨channel', hc', hwork⟩ := Option.map_eq_some_iff.mp hn.symm
    rw [← hwork]
    exact h n channel' hc'

theorem taskinfo_body_valid {task : Task} (h : task.Valid) :
    ∀ t ∈ (taskinfo_body task).strings, Utf8.Valid t := by
  obtain ⟨hmodel, hformat, hinputs⟩ := h
  have hnames : Utf8.Valid (str "enoutput") ∧ Utf8.Valid (str "inputs") ∧
      Utf8.Valid (str "model") ∧ Utf8.Valid (str "response_format") := by decide
  intro t ht
  simp only [taskinfo_body, Json.strings, Json.memberStrings, itemStrings_map_string,
    List.nil_append, List.append_nil, List.mem_cons, List.mem_append, List.not_mem_nil,
    or_false, List.cons_append] at ht
  rcases ht with rfl | rfl | ht | rfl | rfl | rfl | rfl
  · exact hnames.1
  · exact hnames.2.1
  · exact hinputs t ht
  · exact hnames.2.2.1
  · exact hmodel
  · exact hnames.2.2.2
  · exact hformat

theorem taskinfo_survives_iff (hmode : env.mode = .convert) (hs : Sound s)
    (haction : r.action = .taskinfo) (hr : r.Ordinary s) :
    r.Survives env s ↔ r.Granted env s ∧ r.Encodable s := by
  have hevent : r.event.handle env
      = _event (StackFlow.taskinfo (handlers env)) (set_param r.url r.text) := by
    simp only [event, haction]
    rfl
  have hrun := handle_event_run hs hr.1 hevent
  rw [taskinfo_run, show sample_json_str_get r.text (str "work_id") = r.work_id from rfl] at hrun
  have hgranted : r.Granted env s ↔ ∃ n, sample_get_work_id_num r.work_id = .ok n ∧
      (n = WORK_ID_NONE ∨ (s.self.llm_task_.lookup n).isSome) := by
    simp only [Granted, haction]
  have hlist := task_list_pushedTo_valid_iff (s.addressed r.url r.text) r.url r.work_id
  have hencodable : r.Encodable s ↔ Utf8.Valid r.request_id ∧ Utf8.Valid r.work_id ∧
      (sample_get_work_id_num r.work_id = .ok WORK_ID_NONE → ∀ t ∈ (task_list
        ((s.addressed r.url r.text).pushedTo r.url r.work_id)).strings, Utf8.Valid t) := by
    rw [hlist]
    simp only [Encodable, haction]
    rfl
  obtain ⟨channels, hpushed⟩ := (s.addressed r.url r.text).pushedTo_frame r.url r.work_id
  simp only [hpushed] at hrun hencodable
  cases hn : sample_get_work_id_num r.work_id with
  | error e =>
      rw [hn] at hrun
      simp [not_survives_of_error hrun, hgranted, hn]
  | ok n =>
      simp only [hn] at hrun hencodable
      -- without a number the tasks are listed, otherwise one of them is described
      by_cases hnone : n = WORK_ID_NONE
      · have hyes : r.Granted env s := hgranted.mpr ⟨n, hn, .inl hnone⟩
        have hobject : Utf8.Valid (str "llm.tasklist") := by decide
        simp only [hnone, if_true, forall_const] at hrun hencodable
        by_cases henc : r.Encodable s
        · obtain ⟨hid, hwork, hitems⟩ := hencodable.mp henc
          rw [body_no_error_convert hmode, if_pos ⟨hid, hwork, hobject, hitems⟩] at hrun
          simp [survives_of_reply hyes hrun rfl, hyes, henc]
        · rw [body_no_error_convert hmode, if_neg fun h =>
            henc (hencodable.mpr ⟨h.1, h.2.1, h.2.2.2⟩)] at hrun
          simp [not_survives_of_error hrun, henc]
      · cases htask : s.self.llm_task_.lookup n with
        | none =>
            simp only [addressed, hnone, if_false, htask, body_error_convert hmode] at hrun
            simp [not_survives_of_error hrun, hgranted, hn, hnone, htask]
        | some task =>
            have hyes : r.Granted env s := hgranted.mpr ⟨n, hn, .inr (by simp [htask])⟩
            have hbody := taskinfo_body_valid (hs.tasks n task htask)
            have hobject : Utf8.Valid (str "llm.taskinfo") := by decide
            simp only [addressed, hnone, if_false, htask] at hrun
            simp only [Except.ok.injEq, hnone, false_implies, and_true] at hencodable
            by_cases henc : r.Encodable s
            · obtain ⟨hid, hwork⟩ := hencodable.mp henc
              rw [body_no_error_convert hmode, if_pos ⟨hid, hwork, hobject, hbody⟩] at hrun
              simp [survives_of_reply hyes hrun rfl, hyes, henc]
            · rw [body_no_error_convert hmode, if_neg fun h =>
                henc (hencodable.mpr ⟨h.1, h.2.1⟩)] at hrun
              simp [not_survives_of_error hrun, henc]

end ControlRequest

/-- For every reachable state of a running unit and every control request, the event is
    handled without an exception and answered exactly when the request is granted and its
    reply can be serialised. -/
theorem control_request_survives_iff (env : NodeEnv) (hmode : env.mode = .convert)
    (es : List NodeEvent) (r : ControlRequest)
    (hr : r.Ordinary (Run.exec (NodeProcess.step env) .initial es).node) :
    r.Survives env (Run.exec (NodeProcess.step env) .initial es).node ↔
      r.Granted env (Run.exec (NodeProcess.step env) .initial es).node ∧
        r.Encodable (Run.exec (NodeProcess.step env) .initial es).node := by
  have hs := Sound.run env es
  cases haction : r.action with
  | setup reply => exact ControlRequest.setup_survives_iff hmode hs haction hr
  | exit => exact ControlRequest.exit_survives_iff hmode hs haction hr
  | taskinfo => exact ControlRequest.taskinfo_survives_iff hmode hs haction hr
  | pause =>
      have hno := ControlRequest.pause_not_survives hmode hs haction hr
      have hgranted : ¬ r.Granted env (Run.exec (NodeProcess.step env) .initial es).node := by
        simp only [ControlRequest.Granted, haction, not_false_eq_true]
      simp [hno, hgranted]

theorem control_request_survives_iff_setup :
    setupRequest.Survives (configEnv .convert) NodeProcess.initial.node :=
  (control_request_survives_iff (configEnv .convert) rfl [] setupRequest
    ⟨by decide +kernel, 0, (str "ipc://out", str "ipc://inf"), by decide +kernel, rfl⟩).mpr
    ⟨⟨by decide +kernel, configBody, by rfl, by decide +kernel⟩, by decide +kernel, trivial⟩

/-- A taskinfo about a unit that does not exist. -/
def unknownUnitRequest : ControlRequest where
  action := .taskinfo
  url := str "ipc:///tmp/llm/8000.sock"
  text := str "\x7b\"request_id\":\"1\",\"work_id\":\"llm.7\",\"action\":\"taskinfo\"\x7d"

/-- It is to be refused with code -6; handling it throws. -/
theorem unknown_unit_taskinfo_throws :
    unknownUnitRequest.Ordinary NodeProcess.initial.node ∧
      ¬ unknownUnitRequest.Survives (configEnv .convert) NodeProcess.initial.node := by
  have hr : unknownUnitRequest.Ordinary NodeProcess.initial.node := ⟨by decide, trivial⟩
  refine ⟨hr, ?_⟩
  rw [ControlRequest.taskinfo_survives_iff rfl Sound.initial rfl hr]
  rintro ⟨⟨n, hn, hlive⟩, -⟩
  have hseven : sample_get_work_id_num unknownUnitRequest.work_id = .ok 7 := by decide +kernel
  rw [hseven] at hn
  cases hn
  rcases hlive with hnone | htask
  · exact absurd hnone (by decide)
  · exact absurd htask (by decide)

end DoubleTurnouts
