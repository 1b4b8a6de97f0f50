/-
  DoubleTurnouts.Node.Tables

  The two tables of the llm unit: `llm_task_channel_` of the base class and
  `llm_task_` of the derived one.  `send` is read as emitting a message, so a
  handler ends early only where a work id cannot be parsed.

  Each control handler gets one lemma about what it leaves of the tables and
  which calls it makes (`setup_tables`, `exit_live`, `exit_idle`); the claim
  about runs is an invariant over these.
-/
import Mathlib.Tactic
import DoubleTurnouts.Node.Sound

namespace DoubleTurnouts

open Text Decimal Effect StackFlow

/-! ## Control handlers, with `send` read as emitting -/

/-- Nothing a control handler decides by has changed: the same channel numbers, the same
    derived object, no call to the manager. -/
structure SameTables (s s' : Node) : Prop where
  channels : ∀ n, (s'.llm_task_channel_.lookup n).isSome = (s.llm_task_channel_.lookup n).isSome
  self : s'.self = s.self
  rpcs : s'.rpcs = s.rpcs

/-- The number names a task that can be stopped. -/
def Node.Live (s : Node) (n : Int) : Prop :=
  (s.self.llm_task_.lookup n).isSome ∧ (s.llm_task_channel_.lookup n).isSome

instance (s : Node) (n : Int) : Decidable (s.Live n) :=
  inferInstanceAs (Decidable (_ ∧ _))

def registerCall : RpcCall := ⟨str "sys", str "register_unit", str "llm"⟩

def releaseCall (work_id : Bytes) : RpcCall := ⟨str "sys", str "release_unit", work_id⟩

namespace Llm

section Emit

variable {env : NodeEnv} (hmode : env.mode = .emit) {s : Node} (hs : Sound s)
include hmode hs

/-- A setup the unit refuses: the fresh entry is gone again and the manager knows. -/
theorem setup_refused {reply out_port inference_port : Bytes} {n : Int}
    (hreply : decode_register reply = .ok (n, out_port, inference_port)) {zmq_url raw : Bytes}
    {ret code : Int} {message : Bytes}
    (hverdict : verdict env (s.opened n out_port inference_port zmq_url raw)
      (sample_json_str_get raw (str "data")) = .refuse ret code message) :
    ∃ s' channel, (StackFlow.setup (handlers env) reply zmq_url raw).run s = .ok () s' ∧
      s'.llm_task_channel_ = (s.llm_task_channel_.insert n channel).erase n ∧
      s'.self = s.self ∧
      s'.rpcs = s.rpcs ++ [registerCall, releaseCall (sample_get_work_id n (str "llm"))] := by
  rw [setup_run env hs.dot_not_mem, hreply]
  simp only [hverdict, body_emit hmode]
  refine ⟨_, _, rfl, rfl, rfl, ?_⟩
  simp [released, replied, opened, registerCall, releaseCall, hs.unit_name_]

/-- A setup the unit accepts: both tables have the number. -/
theorem setup_accepted {reply out_port inference_port : Bytes} {n : Int}
    (hreply : decode_register reply = .ok (n, out_port, inference_port)) {zmq_url raw : Bytes}
    {task : Task}
    (hverdict : verdict env (s.opened n out_port inference_port zmq_url raw)
      (sample_json_str_get raw (str "data")) = .accept task) :
    ∃ s' channel, (StackFlow.setup (handlers env) reply zmq_url raw).run s = .ok () s' ∧
      s'.llm_task_channel_ = s.llm_task_channel_.insert n channel ∧
      s'.self = { s.self with llm_task_ := s.self.llm_task_.insert n task } ∧
      s'.rpcs = s.rpcs ++ [registerCall] := by
  rw [setup_run env hs.dot_not_mem, hreply]
  simp only [hverdict, body_emit hmode]
  refine ⟨_, _, rfl, AList.insert_insert _, rfl, ?_⟩
  simp [replied, withTask, withChannel, opened, registerCall, hs.unit_name_]

end Emit

theorem sameTables_pushedTo (s : Node) (zmq_url work_id : Bytes) :
    SameTables s (s.pushedTo zmq_url work_id) := by
  refine ⟨?_, ?_, ?_⟩
  · intro n
    rw [pushedTo_lookup, Option.isSome_map]
  · obtain ⟨channels, h⟩ := s.pushedTo_frame zmq_url work_id
    rw [h]
  · obtain ⟨channels, h⟩ := s.pushedTo_frame zmq_url work_id
    rw [h]

/-- An exit that names no live task, or nothing that parses: the tables stay. -/
theorem exit_idle {env : NodeEnv} (hmode : env.mode = .emit) (s : Node) {zmq_url raw : Bytes}
    (hidle : ∀ n, sample_get_work_id_num (sample_json_str_get raw (str "work_id")) = .ok n →
      ¬ s.Live n) :
    SameTables s (final (StackFlow.exit (handlers env) zmq_url raw) s) := by
  have hpushed := sameTables_pushedTo s zmq_url (sample_json_str_get raw (str "work_id"))
  unfold final
  rw [exit_run]
  simp only [body_emit hmode]
  generalize s.pushedTo zmq_url (sample_json_str_get raw (str "work_id")) = s' at hpushed ⊢
  cases hn : sample_get_work_id_num (sample_json_str_get raw (str "work_id")) with
  | error e => exact hpushed
  | ok n =>
      simp only
      have hlive := hidle n hn
      rw [Node.Live, ← hpushed.self, ← hpushed.channels] at hlive
      cases htask : s'.self.llm_task_.lookup n with
      | none => exact ⟨hpushed.channels, hpushed.self, hpushed.rpcs⟩
      | some task =>
          cases hc : s'.llm_task_channel_.lookup n with
          | none => exact hpushed
          | some channel => simp [htask, hc] at hlive

/-- The number whose channel the release after an exit drops, and the name it gives the
    manager.  An empty work id is replaced by the number `-1` of the call. -/
def releasedNumber (work_id : Bytes) (n : Int) : Int := if work_id = [] then -1 else n

def releasedName (work_id : Bytes) : Bytes :=
  if work_id = [] then sample_get_work_id (-1) (str "llm") else work_id

/-- An exit of a live task. -/
theorem exit_live {env : NodeEnv} (hmode : env.mode = .emit) {s : Node} (hs : Sound s)
    (zmq_url : Bytes) {raw : Bytes} {n : Int}
    (hn : sample_get_work_id_num (sample_json_str_get raw (str "work_id")) = .ok n)
    (hlive : s.Live n) :
    ∃ s' channels, (StackFlow.exit (handlers env) zmq_url raw).run s = .ok () s' ∧
      (∀ k, (AList.lookup k channels).isSome = (s.llm_task_channel_.lookup k).isSome) ∧
      s'.llm_task_channel_ = channels.erase
        (releasedNumber (sample_json_str_get raw (str "work_id")) n) ∧
      s'.self = { s.self with llm_task_ := s.self.llm_task_.erase n } ∧
      s'.rpcs = s.rpcs ++ [releaseCall
        (releasedName (sample_json_str_get raw (str "work_id")))] := by
  have hpushed := sameTables_pushedTo s zmq_url (sample_json_str_get raw (str "work_id"))
  obtain ⟨channels', hframe⟩ :=
    s.pushedTo_frame zmq_url (sample_json_str_get raw (str "work_id"))
  obtain ⟨htask, hchannel⟩ := hlive
  rw [← hpushed.channels, Option.isSome_iff_exists] at hchannel
  obtain ⟨task, htask⟩ := Option.isSome_iff_exists.mp htask
  obtain ⟨channel, hchannel⟩ := hchannel
  rw [exit_run]
  simp only [hn, body_emit hmode, hpushed.self, htask, hchannel]
  rw [hframe] at hpushed hchannel ⊢
  -- the channel is replaced by one without sockets, so the numbers are the same
  have hkeys : ∀ k, (AList.lookup k (channels'.insert n (channel.stop_subscriber []))).isSome
      = (s.llm_task_channel_.lookup k).isSome := by
    intro k
    rw [← hpushed.channels k]
    by_cases hk : k = n
    · subst hk
      rw [AList.lookup_insert, hchannel]
      rfl
    · rw [AList.lookup_insert_ne hk]
  by_cases hempty : sample_json_str_get raw (str "work_id") = []
  · rw [hempty]
    refine ⟨_, _, rfl, hkeys, ?_, ?_, ?_⟩
    · simp [releasedNumber, stopped, replied, withChannel]
    · simp [stopped, replied, withChannel]
    · simp [releasedName, releaseCall, stopped, replied, withChannel, hs.unit_name_]
  · refine ⟨_, _, sys_release_unit_run hempty hn (-1) _, hkeys, ?_, ?_, ?_⟩
    · simp [releasedNumber, hempty, released, stopped, replied, withChannel]
    · simp [released, stopped, replied, withChannel]
    · simp [releasedName, hempty, releaseCall, released, stopped, replied, withChannel]

theorem taskinfo_same {env : NodeEnv} (s : Node) (zmq_url raw : Bytes) :
    SameTables s (final (StackFlow.taskinfo (handlers env) zmq_url raw) s) := by
  have hpushed := sameTables_pushedTo s zmq_url (sample_json_str_get raw (str "work_id"))
  unfold final
  rw [taskinfo_run]
  simp only
  generalize s.pushedTo zmq_url (sample_json_str_get raw (str "work_id")) = s' at hpushed ⊢
  cases sample_get_work_id_num (sample_json_str_get raw (str "work_id")) with
  | error e => exact hpushed
  | ok n =>
      simp only
      generalize (if n = WORK_ID_NONE then _ else _ : Except Exn OutBody) = result
      cases result with
      | error e => exact hpushed
      | ok out_body => exact ⟨hpushed.channels, hpushed.self, hpushed.rpcs⟩

end Llm

/-! ## Events with any payload -/

/-- The URL and the text an event handler cuts out of its message. -/
def readEvent (msg : Bytes) : Option (Bytes × Bytes) :=
  match get_param msg 0 [], get_param msg 1 [] with
  | .ok zmq_url, .ok data => some (zmq_url, data)
  | _, _ => none

/-- A control event in terms of its handler; a message that cannot be cut ends it. -/
theorem _event_final (handler : Bytes → Bytes → LlmM Unit) (msg : Bytes) {s : Node}
    (hs : s.status_ ≠ 0) :
    final (_event handler msg) s =
      match readEvent msg with
      | some (zmq_url, data) => final (handler zmq_url data) (s.addressed zmq_url data)
      | none => s := by
  unfold final _event _eventWith readEvent
  cases get_param msg 0 [] with
  | error e => rfl
  | ok zmq_url =>
      cases get_param msg 1 [] with
      | error e => rfl
      | ok data => simp [handle, hs, addressed]

theorem Sound.addressed {s : Node} (h : Sound s) (zmq_url data : Bytes) :
    Sound (s.addressed zmq_url data) := ⟨h.1, h.2, h.3, h.4⟩

/-! ## The invariant -/

/-- Equal key sets within the limit. -/
structure TablesOk (s : Node) : Prop where
  keys : ∀ n, (s.self.llm_task_.lookup n).isSome = (s.llm_task_channel_.lookup n).isSome
  limit : s.self.task_count_ = 3
  bound : Map.size s.llm_task_channel_ ≤ 3

theorem TablesOk.of_same {s s' : Node} (h : TablesOk s) (hsame : SameTables s s') :
    TablesOk s' where
  keys n := by rw [hsame.self, hsame.channels, h.keys]
  limit := by rw [hsame.self, h.limit]
  bound := by
    rw [Map.size_eq_of_keys hsame.channels]
    exact h.bound

/-- The events of the unit's control loop, where a setup's number is not in use. -/
def FreshNumber (p : NodeProcess) : NodeEvent → Prop
  | .setup _ reply => ∃ n urls, decode_register reply = .ok (n, urls) ∧
      p.node.llm_task_channel_.lookup n = none
  | .exit _ => True
  | .taskinfo _ => True
  | .pause _ => False
  | .inference _ _ => False

/-- The event does not stop a task by an empty work id, which is read as the sentinel
    `WORK_ID_NONE` and released as number `-1`. -/
def SentinelSpared (p : NodeProcess) : NodeEvent → Prop
  | .exit msg => ∀ zmq_url data, readEvent msg = some (zmq_url, data) →
      sample_json_str_get data (str "work_id") = [] →
      p.node.self.llm_task_.lookup WORK_ID_NONE = none
  | _ => True

namespace TablesOk

open Llm

variable {env : NodeEnv} {s : Node}

/-- Accepting means the limit had not been reached before the fresh number. -/
theorem lt_of_accept {n : Int} (h : TablesOk s) (hfresh : s.llm_task_channel_.lookup n = none)
    {out_port inference_port zmq_url raw data : Bytes} {task : Task}
    (haccept : verdict env (s.opened n out_port inference_port zmq_url raw) data = .accept task) :
    Map.size s.llm_task_channel_ < 3 := by
  have hsize : Map.size (s.opened n out_port inference_port zmq_url raw).llm_task_channel_
      = Map.size s.llm_task_channel_ + 1 := Map.size_insert_of_lookup_eq_none _ hfresh
  have hlimit : (s.opened n out_port inference_port zmq_url raw).self.task_count_ = 3 := h.limit
  have hbound := h.bound
  by_contra hfull
  rw [verdict, hsize, hlimit, if_pos (by omega)] at haccept
  cases haccept

theorem setup (hmode : env.mode = .emit) (hs : Sound s) (h : TablesOk s) {reply : Bytes}
    {n : Int} {urls : Bytes × Bytes} (hreply : decode_register reply = .ok (n, urls))
    (hfresh : s.llm_task_channel_.lookup n = none) (zmq_url raw : Bytes) :
    TablesOk (final (StackFlow.setup (handlers env) reply zmq_url raw) s) := by
  obtain ⟨out_port, inference_port⟩ := urls
  cases hverdict : verdict env (s.opened n out_port inference_port zmq_url raw)
      (sample_json_str_get raw (str "data")) with
  | refuse ret code message =>
      obtain ⟨s', channel, hrun, hchannels, hself, -⟩ :=
        setup_refused hmode hs hreply hverdict
      -- refused: what was entered is erased again
      rw [Map.erase_insert_of_lookup_eq_none channel hfresh] at hchannels
      rw [final, hrun]
      exact ⟨fun k => by rw [hself, hchannels, h.keys], by rw [hself, h.limit],
        by rw [hchannels]; exact h.bound⟩
  | accept task =>
      obtain ⟨s', channel, hrun, hchannels, hself, -⟩ :=
        setup_accepted hmode hs hreply hverdict
      have hlt := h.lt_of_accept hfresh hverdict
      rw [final, hrun]
      refine ⟨?_, by rw [hself]; exact h.limit, ?_⟩
      · intro k
        rw [hself, hchannels]
        by_cases hk : k = n
        · subst hk
          simp
        · simp only [AList.lookup_insert_ne hk]
          exact h.keys k
      · rw [hchannels, Map.size_insert_of_lookup_eq_none channel hfresh]
        omega

theorem exit (hmode : env.mode = .emit) (hs : Sound s) (h : TablesOk s) {zmq_url raw : Bytes}
    (hempty : sample_json_str_get raw (str "work_id") = [] →
      s.self.llm_task_.lookup WORK_ID_NONE = none) :
    TablesOk (final (StackFlow.exit (handlers env) zmq_url raw) s) := by
  by_cases hlive : ∃ n, sample_get_work_id_num (sample_json_str_get raw (str "work_id")) = .ok n ∧
      s.Live n
  · obtain ⟨n, hn, hlive⟩ := hlive
    have hne : sample_json_str_get raw (str "work_id") ≠ [] := by
      intro he
      -- an empty work id has no dot, which is read as the sentinel
      have hnone : n = WORK_ID_NONE := by
        rw [he] at hn
        exact (Except.ok.inj hn).symm
      have htask := hlive.1
      rw [hnone, hempty he] at htask
      cases htask
    obtain ⟨s', channels, hrun, hkeys, hchannels, hself, -⟩ :=
      exit_live hmode hs zmq_url hn hlive
    rw [releasedNumber, if_neg hne] at hchannels
    rw [final, hrun]
    refine ⟨?_, by rw [hself]; exact h.limit, ?_⟩
    · intro k
      rw [hself, hchannels]
      by_cases hk : k = n
      · subst hk
        simp
      · simp only [AList.lookup_erase_ne hk]
        rw [hkeys, h.keys]
    · have hsize := Map.size_erase_le channels n
      have hsame := Map.size_eq_of_keys hkeys
      have hbound := h.bound
      rw [hchannels]
      omega
  · apply h.of_same
    apply exit_idle hmode s
    intro n hn hn_live
    exact hlive ⟨n, hn, hn_live⟩

theorem addressed (h : TablesOk s) (zmq_url data : Bytes) : TablesOk (s.addressed zmq_url data) :=
  ⟨h.1, h.2, h.3⟩

/-- One event keeps the tables in order. -/
theorem step (hmode : env.mode = .emit) {p : NodeProcess} (hs : Sound p.node)
    (h : TablesOk p.node) {e : NodeEvent} (hfresh : FreshNumber p e)
    (hspared : SentinelSpared p e) :
    TablesOk (p.step env e).node := by
  rw [NodeProcess.step_node]
  split
  · cases e with
    | setup msg reply =>
        obtain ⟨n, urls, hreply, hfresh⟩ := hfresh
        show TablesOk (final (_event (StackFlow.setup (handlers env) reply) msg) p.node)
        rw [_event_final _ msg hs.status_]
        split
        · rename_i zmq_url data hread
          exact (h.addressed zmq_url data).setup hmode (hs.addressed zmq_url data) hreply hfresh
            zmq_url data
        · exact h
    | exit msg =>
        show TablesOk (final (_event (StackFlow.exit (handlers env)) msg) p.node)
        rw [_event_final _ msg hs.status_]
        split
        · rename_i zmq_url data hread
          exact (h.addressed zmq_url data).exit hmode (hs.addressed zmq_url data)
            (hspared zmq_url data hread)
        · exact h
    | taskinfo msg =>
        show TablesOk (final (_event (StackFlow.taskinfo (handlers env)) msg) p.node)
        rw [_event_final _ msg hs.status_]
        split
        · rename_i zmq_url data hread
          exact (h.addressed zmq_url data).of_same (taskinfo_same _ zmq_url data)
        · exact h
    | pause msg => cases hfresh
    | inference n raw => cases hfresh
  · exact h

theorem initial : TablesOk NodeProcess.initial.node := ⟨fun _ => rfl, rfl, by decide⟩

end TablesOk

/-! ## Runs -/

/-- A setup with the number `n` that `llm_llm::setup` answers with a non-zero value. -/
def RefusedSetup (env : NodeEnv) (s : Node) (n : Int) : NodeEvent → Prop
  | .setup msg reply => ∃ zmq_url data urls ret s',
      readEvent msg = some (zmq_url, data) ∧ decode_register reply = .ok (n, urls) ∧
      (Llm.setup env (sample_get_work_id n s.unit_name_)
        (sample_json_str_get data (str "object")) (sample_json_str_get data (str "data"))).run
          ((s.addressed zmq_url data).opened n urls.1 urls.2 zmq_url data) = .ok ret s' ∧
      ret ≠ 0
  | _ => False

/-- What holds after an event: equal key sets of at most `task_count_` elements, and a
    refused setup has left both tables as they were and given its number back. -/
structure TableStep (env : NodeEnv) (p : NodeProcess) (e : NodeEvent) : Prop where
  keys : ∀ n, n ∈ (p.step env e).node.self.llm_task_ ↔ n ∈ (p.step env e).node.llm_task_channel_
  limit : (p.step env e).node.self.task_count_ = 3
  bound : (Map.size (p.step env e).node.self.llm_task_ : Int)
    ≤ (p.step env e).node.self.task_count_
  refused : ∀ n, p.alive = true → RefusedSetup env p.node n e →
    (p.step env e).node.llm_task_channel_ = p.node.llm_task_channel_ ∧
    (p.step env e).node.self.llm_task_ = p.node.self.llm_task_ ∧
    (p.step env e).node.rpcs = p.node.rpcs ++
      [registerCall, releaseCall (sample_get_work_id n (str "llm"))]

/-- A refused setup, with a number that was free. -/
theorem refusedSetup_step {env : NodeEnv} (hmode : env.mode = .emit) {p : NodeProcess}
    (hs : Sound p.node) {e : NodeEvent} (hfresh : FreshNumber p e) {n : Int}
    (halive : p.alive = true) (hrefused : RefusedSetup env p.node n e) :
    (p.step env e).node.llm_task_channel_ = p.node.llm_task_channel_ ∧
      (p.step env e).node.self.llm_task_ = p.node.self.llm_task_ ∧
      (p.step env e).node.rpcs = p.node.rpcs ++
        [registerCall, releaseCall (sample_get_work_id n (str "llm"))] := by
  cases e with
  | setup msg reply =>
      obtain ⟨zmq_url, data, ⟨out_port, inference_port⟩, ret, s1, hread, hreply, hrun, hret⟩ :=
        hrefused
      obtain ⟨n', urls', hreply', hfresh⟩ := hfresh
      obtain ⟨rfl, -⟩ : n = n' ∧ _ := Prod.mk.inj (Except.ok.inj (hreply.symm.trans hreply'))
      have hs' := hs.addressed zmq_url data
      have hn : sample_get_work_id_num (sample_get_work_id n p.node.unit_name_) = .ok n :=
        sample_get_work_id_num_work_id (isInt32_of_decode_register hreply) hs.dot_not_mem
      rw [Llm.llm_setup_run env hn (AList.lookup_insert _)] at hrun
      cases hverdict : Llm.verdict env
          ((p.node.addressed zmq_url data).opened n out_port inference_port zmq_url data)
          (sample_json_str_get data (str "data")) with
      | accept task =>
          -- an accepted setup returns 0
          simp only [hverdict, body_emit hmode] at hrun
          exact absurd (EStateM.Result.ok.inj hrun).1.symm hret
      | refuse ret' code message =>
          obtain ⟨s', channel, hsetup, hchannels, hself, hrpcs⟩ :=
            Llm.setup_refused hmode hs' hreply hverdict
          have hnode : (p.step env (.setup msg reply)).node = s' := by
            rw [NodeProcess.step_node, if_pos halive]
            show final (_event (StackFlow.setup (Llm.handlers env) reply) msg) p.node = s'
            rw [_event_final _ msg hs.status_, hread]
            simp only [final, hsetup]
          rw [hnode, hchannels, hself, hrpcs]
          exact ⟨Map.erase_insert_of_lookup_eq_none channel hfresh, rfl, rfl⟩
  | exit msg => cases hrefused
  | taskinfo msg => cases hrefused
  | pause msg => cases hrefused
  | inference n raw => cases hrefused

/-- In every run of setup, exit and taskinfo events whose registrations return numbers that
    are not in use, and that stop no task numbered `WORK_ID_NONE` by an empty work id: after
    each event the tables have the same keys, at most three, and a refused setup has changed
    neither and released its number. -/
theorem task_tables_run (env : NodeEnv) (hmode : env.mode = .emit) (es : List NodeEvent)
    (hes : Run.AllSteps (NodeProcess.step env) (fun p e => FreshNumber p e ∧ SentinelSpared p e)
      .initial es) :
    Run.AllSteps (NodeProcess.step env) (TableStep env) .initial es := by
  refine Run.AllSteps.of_invariant (I := fun p => Sound p.node ∧ TablesOk p.node)
    (fun p e h he => ⟨h.1.step env e, h.2.step hmode h.1 he.1 he.2⟩) ?_
    ⟨Sound.initial, TablesOk.initial⟩ hes
  rintro p e ⟨hs, hok⟩ ⟨hfresh, hspared⟩
  have hok' := hok.step hmode hs hfresh hspared
  refine ⟨?_, hok'.limit, ?_, fun n halive hrefused =>
    refusedSetup_step hmode hs hfresh halive hrefused⟩
  · intro n
    rw [← AList.lookup_isSome, ← AList.lookup_isSome, hok'.keys]
  -- the tables are equally large because their keys are the same
  · have hsize := Map.size_eq_of_keys hok'.keys
    have hbound := hok'.bound
    have hlimit := hok'.limit
    omega

/-- A setup that is accepted, and one whose configuration does not parse. -/
def acceptedAndRefused : List NodeEvent :=
  [setupRequest.event,
   .setup (set_param (str "ipc:///tmp/llm/8000.sock") (str "\x7b\"work_id\":\"llm\"\x7d"))
     (set_param (str "1") (set_param (str "ipc://out") (str "ipc://inf")))]

theorem task_tables_run_refused :
    Run.AllSteps (NodeProcess.step (configEnv .emit)) (TableStep (configEnv .emit)) .initial
      acceptedAndRefused :=
  task_tables_run (configEnv .emit) rfl acceptedAndRefused
    ⟨⟨⟨0, (str "ipc://out", str "ipc://inf"), by decide +kernel, rfl⟩, trivial⟩,
     ⟨⟨1, (str "ipc://out", str "ipc://inf"), by decide +kernel, by decide +kernel⟩, trivial⟩,
     trivial⟩

/-- A task registered as number -100, and an exit that names no work id. -/
def sentinelExit : List NodeEvent :=
  [.setup (set_param setupRequest.url setupRequest.text)
     (set_param (str "-100") (set_param (str "ipc://out") (str "ipc://inf"))),
   .exit (set_param setupRequest.url (str "\x7b\x7d"))]

/-- The exit stops the task and drops no channel. -/
theorem sentinel_exit_splits_tables :
    Run.AllSteps (NodeProcess.step (configEnv .emit)) FreshNumber .initial sentinelExit ∧
      ¬ Run.AllSteps (NodeProcess.step (configEnv .emit)) (TableStep (configEnv .emit)) .initial
        sentinelExit := by
  refine ⟨⟨⟨-100, (str "ipc://out", str "ipc://inf"), by decide +kernel, rfl⟩, trivial, trivial⟩,
    ?_⟩
  rintro ⟨-, hexit, -⟩
  have hkeys := hexit.keys (-100)
  rw [← AList.lookup_isSome, ← AList.lookup_isSome] at hkeys
  exact absurd hkeys (by decide +kernel)

end DoubleTurnouts
