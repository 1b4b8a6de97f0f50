/-
  DoubleTurnouts.System.LiveIds

  One manager and one llm node.  A client's setup makes the node register
  with the manager and, if the unit refuses, release again; an exit makes it
  release.  Both sides keep a table of live numbers: the node reads a number
  out of the client's work id, the manager takes the work id as it stands.

  `System.step` runs the node's handler and then serves the calls it has
  made.  The two tables are compared after every request.
-/
import Mathlib.Tactic
import DoubleTurnouts.Node.Tables
import DoubleTurnouts.System.Registration
import DoubleTurnouts.UnitManager.Reachable

namespace DoubleTurnouts

open Text Decimal StackFlow

/-! ## The system -/

structure System where
  manager : Manager
  node : NodeProcess

/-- What a client asks of the llm unit. -/
inductive ClientAction
  | setup
  | exit
  deriving DecidableEq, Repr

/-- A request: the client's connection, its text, and what the manager's uninitialised
    variables hold while it is served. -/
structure ClientRequest where
  action : ClientAction
  com_id : Int
  text : Bytes
  indet : Indet
  uninit : Int
  deriving DecidableEq, Repr

def ClientRequest.work_id (r : ClientRequest) : Bytes :=
  sample_json_str_get r.text (str "work_id")

/-- A call to the manager as its RPC server receives it. -/
def RpcCall.sys (r : ClientRequest) (call : RpcCall) : Option SysRequest :=
  if call.action = str "register_unit" then some (.register_unit call.param r.indet)
  else if call.action = str "release_unit" then some (.release_unit call.param r.uninit)
  else none

def Manager.serveCall (r : ClientRequest) (m : Manager) (call : RpcCall) : Manager :=
  match call.sys r with
  | some req => serveState m req
  | none => m

theorem serveCall_registerCall (r : ClientRequest) (m : Manager) :
    Manager.serveCall r m registerCall = serveState m (.register_unit (str "llm") r.indet) := rfl

theorem serveCall_releaseCall (r : ClientRequest) (m : Manager) (w : Bytes) :
    Manager.serveCall r m (releaseCall w) = serveState m (.release_unit w r.uninit) := by
  have hne : str "release_unit" ≠ str "register_unit" := by decide
  simp [Manager.serveCall, RpcCall.sys, releaseCall, hne]

namespace System

/-- The event the node receives.  A setup comes with the answer its registration gets. -/
def event (sys : System) (r : ClientRequest) : NodeEvent :=
  let msg := set_param (sprintf sys.manager.zmq_c_format r.com_id) r.text
  match r.action with
  | .setup => .setup msg
      (serve sys.manager (.register_unit sys.node.node.unit_name_ r.indet)).1
  | .exit => .exit msg

/-- The request is handled, and each call made on the way is served once, in order. -/
def step (env : NodeEnv) (sys : System) (r : ClientRequest) : System :=
  let node := sys.node.step env (sys.event r)
  let calls := node.node.rpcs.drop sys.node.node.rpcs.length
  { manager := calls.foldl (Manager.serveCall r) sys.manager, node := node }

def initial (min_port max_port : Int) : System where
  manager := .initial min_port max_port
  node := .initial

/-- The manager has a unit under `llm.N` exactly for the node's channel numbers. -/
def Agrees (sys : System) : Prop :=
  ∀ N, (sys.manager.key_sql.unitAt (sample_get_work_id N (str "llm"))).isSome ↔
    N ∈ sys.node.node.llm_task_channel_

end System

/-! ## The manager's table after one call -/

/-- A register adds the next number. -/
theorem isSome_unitAt_register (m : Manager) (indet : Indet) (unit : Bytes) (N : Int) :
    ((serveState m (.register_unit unit indet)).key_sql.unitAt (sample_get_work_id N unit)).isSome ↔
      N = m.work_id_number_counter ∨ (m.key_sql.unitAt (sample_get_work_id N unit)).isSome := by
  have hkey : sample_get_work_id N unit
      ≠ out_port_key (sample_get_work_id m.work_id_number_counter unit) :=
    (out_port_key_ne_work_id _ _ _).symm
  show (KeySql.unitAt (((m.key_sql.insert (sample_get_work_id m.work_id_number_counter unit)
    _).insert (out_port_key (sample_get_work_id m.work_id_number_counter unit)) _)) _).isSome ↔ _
  rw [unitAt_insert, if_neg hkey, unitAt_insert]
  by_cases hN : N = m.work_id_number_counter
  · subst hN
    simp [Any.unit?]
  · have hne : sample_get_work_id N unit ≠ sample_get_work_id m.work_id_number_counter unit :=
      fun h => hN (sample_get_work_id_inj h).2
    rw [if_neg hne]
    simp [hN]

/-- A release takes the unit under exactly this name away. -/
theorem unitAt_release (m : Manager) (w : Bytes) (uninit N : Int) (unit : Bytes) :
    (serveState m (.release_unit w uninit)).key_sql.unitAt (sample_get_work_id N unit) =
      if sample_get_work_id N unit = w then none
      else m.key_sql.unitAt (sample_get_work_id N unit) := by
  have hkey : sample_get_work_id N unit ≠ out_port_key w := (out_port_key_ne_work_id _ _ _).symm
  simp only [serveState, serve, rpc_release_unit, sys_release_unit]
  cases hw : m.key_sql.unitAt w with
  | none =>
      simp only
      split
      · rename_i he
        rw [he, hw]
      · rfl
  | some u =>
      simp only
      rw [unitAt_erase, if_neg hkey, unitAt_erase]

/-- What the node's side relies on about the manager. -/
structure LlmManager (lo hi : Int) (m : Manager) : Prop where
  running : m.Running lo hi
  counter : IsInt32 m.work_id_number_counter
  client_format : m.zmq_c_format = zmqFormat

namespace LlmManager

variable {lo hi : Int} {m : Manager}

/-- Every request keeps it. -/
theorem serve (hlo : IsInt32 lo) (hhi : IsInt32 hi) (h : LlmManager lo hi m) {r : SysRequest}
    (hr : r.Typed) : LlmManager lo hi (serveState m r) where
  running := h.running.serve hlo hhi hr
  counter := by
    rw [serve_counter]
    split
    · exact isInt32_wrap32 _
    · exact h.counter
  client_format := (serve_frame m r).2.1.trans h.client_format

theorem initial (hle : lo ≤ hi) : LlmManager lo hi (Manager.initial lo hi) where
  running := Manager.Running.initial hle
  counter := by
    rw [counter_initial]
    decide
  client_format := rfl

/-- The node can read every answer to its registration: its name is short. -/
theorem decode (hlo : IsInt32 lo) (hhi : IsInt32 hi) (h : LlmManager lo hi m) {indet : Indet}
    (hindet : IsInt32 indet.output_port ∧ IsInt32 indet.inference_port) :
    ∃ urls, decode_register (rpc_allocate_unit indet m (str "llm")).1
      = .ok (m.work_id_number_counter, urls) := by
  have hrendered := h.running.rendered_sys_allocate_unit hlo hhi hindet (str "llm")
  have hport := length_to_string_le hrendered.output_int
  have hlen : (sys_allocate_unit indet m (str "llm")).1.output_url.length ≤ 127 := by
    rw [hrendered.output_url, ← EndpointFormat.shipped_text,
      EndpointFormat.length_unit_url _ (by decide) (by decide),
      EndpointFormat.urlLength_shipped (by decide)]
    have hname : (str "llm").length = 3 := by decide
    omega
  exact ⟨_, decode_register_rpc_allocate_unit indet h.counter hlen⟩

end LlmManager

/-! ## One request -/

/-- What the node's handlers rely on: the connection is an `int`, and the work id is the llm
    unit's. -/
structure ClientRequest.Wellformed (r : ClientRequest) : Prop where
  com_id : IsInt32 r.com_id
  indet : IsInt32 r.indet.output_port ∧ IsInt32 r.indet.inference_port
  unit : sample_get_work_id_name r.work_id = str "llm"

/-- If the request stops a task, its work id is the one the node would print for it. -/
def CanonicalExit (sys : System) (r : ClientRequest) : Prop :=
  r.action = .exit → sys.node.alive = true → ∀ n, sample_get_work_id_num r.work_id = .ok n →
    sys.node.node.Live n → r.work_id = sample_get_work_id n (str "llm")

theorem readEvent_set_param {url : Bytes} (h : url.length ≤ 127) (text : Bytes) :
    readEvent (set_param url text) = some (url, text) := by
  rw [readEvent, get_param_zero_set_param h, get_param_one_set_param h]

theorem length_client_url {com_id : Int} (h : IsInt32 com_id) :
    (sprintf zmqFormat com_id).length ≤ 127 := by
  have hdigits := length_to_string_le h
  have hpre : (str "ipc:///tmp/llm/").length = 15 := by decide
  have hpost : (str ".sock").length = 5 := by decide
  rw [sprintf_zmqFormat, List.length_append, List.length_append]
  omega

/-- The tables agree between requests. -/
structure Coupled (lo hi : Int) (sys : System) : Prop where
  manager : LlmManager lo hi sys.manager
  sound : Sound sys.node.node
  agrees : sys.Agrees

namespace System

variable {env : NodeEnv} {sys : System} {r : ClientRequest} {lo hi : Int}

/-- The manager after the calls a handler has added. -/
theorem step_manager {calls : List RpcCall}
    (h : (sys.node.step env (sys.event r)).node.rpcs = sys.node.node.rpcs ++ calls) :
    (sys.step env r).manager = calls.foldl (Manager.serveCall r) sys.manager := by
  rw [step, h, List.drop_left]

/-- A request that leaves the node's numbers alone and calls nobody changes no agreement. -/
theorem agrees_of_same (h : sys.Agrees)
    (hsame : SameTables sys.node.node (sys.node.step env (sys.event r)).node) :
    (sys.step env r).manager = sys.manager ∧ (sys.step env r).Agrees := by
  have hmanager : (sys.step env r).manager = sys.manager :=
    @step_manager env sys r [] (by rw [List.append_nil]; exact hsame.rpcs)
  refine ⟨hmanager, ?_⟩
  intro N
  rw [hmanager, h N, ← AList.lookup_isSome, ← AList.lookup_isSome, ← hsame.channels]
  rfl

/-- The node after a request has reached its handler. -/
theorem step_node_setup (h : LlmManager lo hi sys.manager) (hs : Sound sys.node.node)
    (hr : r.Wellformed) (haction : r.action = .setup) (halive : sys.node.alive = true) :
    (sys.node.step env (sys.event r)).node =
      Effect.final (StackFlow.setup (Llm.handlers env)
        (rpc_allocate_unit r.indet sys.manager (str "llm")).1
        (sprintf zmqFormat r.com_id) r.text)
        (sys.node.node.addressed (sprintf zmqFormat r.com_id) r.text) := by
  have hread := readEvent_set_param (length_client_url hr.com_id) r.text
  rw [NodeProcess.step_node, if_pos halive]
  simp only [event, haction, h.client_format, hs.unit_name_]
  show Effect.final (_event (StackFlow.setup (Llm.handlers env) _) _) _ = _
  rw [_event_final _ _ hs.status_, hread]
  rfl

theorem step_node_exit (h : LlmManager lo hi sys.manager) (hs : Sound sys.node.node)
    (hr : r.Wellformed) (haction : r.action = .exit) (halive : sys.node.alive = true) :
    (sys.node.step env (sys.event r)).node =
      Effect.final (StackFlow.exit (Llm.handlers env) (sprintf zmqFormat r.com_id) r.text)
        (sys.node.node.addressed (sprintf zmqFormat r.com_id) r.text) := by
  have hread := readEvent_set_param (length_client_url hr.com_id) r.text
  rw [NodeProcess.step_node, if_pos halive]
  simp only [event, haction, h.client_format]
  show Effect.final (_event (StackFlow.exit (Llm.handlers env)) _) _ = _
  rw [_event_final _ _ hs.status_, hread]

/-- A request to a process that has ended changes nothing. -/
theorem same_of_dead (hdead : sys.node.alive = false) :
    SameTables sys.node.node (sys.node.step env (sys.event r)).node := by
  rw [NodeProcess.step_node, if_neg (by simp [hdead])]
  exact ⟨fun _ => rfl, rfl, rfl⟩

section Step

variable (hlo : IsInt32 lo) (hhi : IsInt32 hi) (hmode : env.mode = .emit)
include hlo hhi hmode

/-- A setup keeps the tables together, accepted or refused. -/
theorem coupled_setup (h : Coupled lo hi sys) (hr : r.Wellformed) (haction : r.action = .setup)
    (halive : sys.node.alive = true) : Coupled lo hi (sys.step env r) := by
  obtain ⟨⟨out_port, inference_port⟩, hdecode⟩ := h.manager.decode hlo hhi hr.indet
  have hs := h.sound.addressed (sprintf zmqFormat r.com_id) r.text
  have hregister : LlmManager lo hi
      (serveState sys.manager (.register_unit (str "llm") r.indet)) :=
    h.manager.serve hlo hhi hr.indet
  have hunits := isSome_unitAt_register sys.manager r.indet (str "llm")
  have hnode := @step_node_setup env sys r lo hi h.manager h.sound hr haction halive
  have hsound : Sound (sys.step env r).node.node := h.sound.step env (sys.event r)
  -- the node registers first; what it then makes of the data decides whether it releases again
  cases hverdict : Llm.verdict env ((sys.node.node.addressed (sprintf zmqFormat r.com_id)
      r.text).opened sys.manager.work_id_number_counter out_port inference_port
      (sprintf zmqFormat r.com_id) r.text) (sample_json_str_get r.text (str "data")) with
  | refuse ret code message =>
      obtain ⟨s', channel, hrun, hchannels, -, hrpcs⟩ :=
        Llm.setup_refused hmode hs hdecode hverdict
      rw [Effect.final, hrun] at hnode
      simp only at hnode
      have hmanager := @step_manager env sys r _ (by rw [hnode]; exact hrpcs)
      rw [List.foldl_cons, List.foldl_cons, List.foldl_nil, serveCall_registerCall,
        serveCall_releaseCall] at hmanager
      refine ⟨?_, hsound, ?_⟩
      · rw [hmanager]
        exact hregister.serve hlo hhi trivial
      · -- the number is new on both sides, and gone again on both
        intro N
        show _ ↔ N ∈ (sys.node.step env (sys.event r)).node.llm_task_channel_
        rw [hmanager, unitAt_release, hnode, hchannels, AList.mem_erase, AList.mem_insert]
        by_cases hN : N = sys.manager.work_id_number_counter
        · simp [hN]
        · have hne : sample_get_work_id N (str "llm")
              ≠ sample_get_work_id sys.manager.work_id_number_counter (str "llm") :=
            fun he => hN (sample_get_work_id_inj he).2
          rw [if_neg hne, hunits N, h.agrees N]
          simp only [hN, false_or, ne_eq, not_false_eq_true, true_and]
          rfl
  | accept task =>
      obtain ⟨s', channel, hrun, hchannels, -, hrpcs⟩ :=
        Llm.setup_accepted hmode hs hdecode hverdict
      rw [Effect.final, hrun] at hnode
      simp only at hnode
      have hmanager := @step_manager env sys r _ (by rw [hnode]; exact hrpcs)
      rw [List.foldl_cons, List.foldl_nil, serveCall_registerCall] at hmanager
      refine ⟨by rw [hmanager]; exact hregister, hsound, ?_⟩
      intro N
      show _ ↔ N ∈ (sys.node.step env (sys.event r)).node.llm_task_channel_
      rw [hmanager, hunits N, h.agrees N, hnode, hchannels, AList.mem_insert]
      rfl

/-- An exit keeps them together exactly if it is canonical, and then the manager stays an
    llm manager. -/
theorem agrees_exit_iff (h : Coupled lo hi sys) (hr : r.Wellformed) (haction : r.action = .exit)
    (halive : sys.node.alive = true) :
    LlmManager lo hi (sys.step env r).manager ∧
      ((sys.step env r).Agrees ↔ CanonicalExit sys r) := by
  have hs := h.sound.addressed (sprintf zmqFormat r.com_id) r.text
  have hnode := @step_node_exit env sys r lo hi h.manager h.sound hr haction halive
  by_cases hlive : ∃ n, sample_get_work_id_num r.work_id = .ok n ∧ sys.node.node.Live n
  · obtain ⟨n, hn, hlive⟩ := hlive
    have hne : r.work_id ≠ [] := by
      intro he
      have hunit := hr.unit
      rw [he] at hunit
      exact absurd hunit (by decide)
    obtain ⟨s', channels, hrun, hkeys, hchannels, -, hrpcs⟩ :=
      Llm.exit_live hmode hs (sprintf zmqFormat r.com_id) hn hlive
    rw [Effect.final, hrun] at hnode
    simp only at hnode
    have hmanager := @step_manager env sys r _ (by rw [hnode]; exact hrpcs)
    simp only [List.foldl_cons, List.foldl_nil, serveCall_releaseCall] at hmanager
    change s'.llm_task_channel_ = channels.erase (Llm.releasedNumber r.work_id n) at hchannels
    change (sys.step env r).manager = serveState sys.manager
      (.release_unit (Llm.releasedName r.work_id) r.uninit) at hmanager
    rw [Llm.releasedNumber, if_neg hne] at hchannels
    rw [Llm.releasedName, if_neg hne] at hmanager
    have hchannel : ∀ N, N ∈ (sys.step env r).node.node.llm_task_channel_ ↔
        N ≠ n ∧ N ∈ sys.node.node.llm_task_channel_ := by
      intro N
      show N ∈ (sys.node.step env (sys.event r)).node.llm_task_channel_ ↔ _
      rw [hnode, hchannels, AList.mem_erase, ← AList.lookup_isSome, hkeys, AList.lookup_isSome]
      rfl
    refine ⟨?_, ?_⟩
    · rw [hmanager]
      exact h.manager.serve hlo hhi trivial
    · constructor
      · -- the manager still has the node's number unless the name was exactly its own
        intro hagrees _ _ n' hn' _
        obtain rfl : n = n' := Except.ok.inj (hn.symm.trans hn')
        by_contra hw
        have hgone := hagrees n
        rw [hmanager, unitAt_release, if_neg (Ne.symm hw), h.agrees n, hchannel n] at hgone
        have hmem : n ∈ sys.node.node.llm_task_channel_ := AList.lookup_isSome.mp hlive.2
        exact (hgone.mp hmem).1 rfl
      · intro hcanonical N
        have hw := hcanonical haction halive n hn hlive
        rw [hmanager, unitAt_release, hchannel N, hw]
        by_cases hN : N = n
        · simp [hN]
        · have hne' : sample_get_work_id N (str "llm") ≠ sample_get_work_id n (str "llm") :=
            fun he => hN (sample_get_work_id_inj he).2
          rw [if_neg hne', h.agrees N]
          simp [hN]
  · -- no task is released, and no RPC call is made
    have hidle : ∀ n, sample_get_work_id_num r.work_id = .ok n → ¬ sys.node.node.Live n :=
      fun n hn hn_live => hlive ⟨n, hn, hn_live⟩
    have hsame : SameTables sys.node.node (sys.node.step env (sys.event r)).node := by
      rw [hnode]
      obtain ⟨hchannels, hself, hrpcs⟩ := Llm.exit_idle hmode
        (sys.node.node.addressed (sprintf zmqFormat r.com_id) r.text) hidle
      exact ⟨hchannels, hself, hrpcs⟩
    obtain ⟨hmanager, hagrees⟩ := agrees_of_same h.agrees hsame
    refine ⟨by rw [hmanager]; exact h.manager, fun _ _ _ n hn hn_live => ?_, fun _ => hagrees⟩
    exact absurd hn_live (hidle n hn)

/-- Agreement after a request, from agreement before it. -/
theorem agrees_step_iff (h : Coupled lo hi sys) (hr : r.Wellformed) :
    LlmManager lo hi (sys.step env r).manager ∧
      ((sys.step env r).Agrees ↔ CanonicalExit sys r) := by
  cases halive : sys.node.alive with
  | false =>
      obtain ⟨hmanager, hagrees⟩ := agrees_of_same h.agrees (same_of_dead halive)
      refine ⟨by rw [hmanager]; exact h.manager, fun _ _ halive' => ?_, fun _ => hagrees⟩
      rw [halive] at halive'
      cases halive'
  | true =>
      cases haction : r.action with
      | setup =>
          have hcoupled := coupled_setup hlo hhi hmode h hr haction halive
          refine ⟨hcoupled.manager, fun _ hexit => ?_, fun _ => hcoupled.agrees⟩
          rw [haction] at hexit
          cases hexit
      | exit => exact agrees_exit_iff hlo hhi hmode h hr haction halive

end Step

end System

/-! ## Whole runs -/

/-- For every sequence of setup and exit requests to the llm unit: manager and node agree on
    the live numbers after each of them, exactly if every exit that stops a task `n` gives
    its work id as `llm.n`. -/
theorem live_ids_agree_iff (env : NodeEnv) (hmode : env.mode = .emit) (lo hi : Int)
    (hlo : IsInt32 lo) (hhi : IsInt32 hi) (hle : lo ≤ hi) (rs : List ClientRequest)
    (hrs : ∀ r ∈ rs, r.Wellformed) :
    Run.AllSteps (System.step env) (fun sys r => (sys.step env r).Agrees) (.initial lo hi) rs ↔
      Run.AllSteps (System.step env) CanonicalExit (.initial lo hi) rs := by
  refine Run.AllSteps.iff_of_guarded (I := Coupled lo hi) ?_ ?_ ?_ hrs
  · intro sys r h hr hcanonical
    obtain ⟨hmanager, hiff⟩ := System.agrees_step_iff hlo hhi hmode h hr
    exact ⟨hmanager, h.sound.step env (sys.event r), hiff.mpr hcanonical⟩
  · intro sys r h hr
    exact (System.agrees_step_iff hlo hhi hmode h hr).2
  · refine ⟨LlmManager.initial hle, Sound.initial, ?_⟩
    intro N
    have hnone : (Manager.initial lo hi).key_sql.unitAt (sample_get_work_id N (str "llm"))
        = none := unitAt_load_default_config lo hi _
    show ((Manager.initial lo hi).key_sql.unitAt _).isSome ↔ N ∈ (∅ : Map Int Channel)
    rw [hnone]
    simp

/-- A setup, and an exit of the task under the given work id. -/
def setupThenExit (work_id : String) : List ClientRequest :=
  [⟨.setup, 8000, setupRequest.text, ⟨0, 0⟩, 0⟩,
   ⟨.exit, 8000, str "\x7b\"work_id\":\"" ++ (str work_id ++ str "\"\x7d"), ⟨0, 0⟩, 0⟩]

theorem live_ids_agree_iff_canonical :
    Run.AllSteps (System.step (configEnv .emit))
      (fun sys r => (sys.step (configEnv .emit) r).Agrees) (.initial 5010 5555)
      (setupThenExit "llm.0") := by
  refine (live_ids_agree_iff (configEnv .emit) rfl 5010 5555 (by decide) (by decide) (by decide)
    (setupThenExit "llm.0") ?_).mpr ⟨?_, ?_, trivial⟩
  · intro r hr
    rcases List.mem_pair.mp hr with rfl | rfl
    · exact ⟨by decide, ⟨by decide, by decide⟩, by decide +kernel⟩
    · exact ⟨by decide, ⟨by decide, by decide⟩, by decide +kernel⟩
  · intro hexit
    cases hexit
  · intro _ _ n hn _
    have hzero : sample_get_work_id_num ((setupThenExit "llm.0")[1].work_id) = .ok 0 := by
      decide +kernel
    obtain rfl : (0 : Int) = n := Except.ok.inj (hzero.symm.trans hn)
    decide +kernel

/-- `llm.0abc` stops task 0 at the node; the manager looks for that very name. -/
theorem trailing_text_exit_disagrees :
    (∀ r ∈ setupThenExit "llm.0abc", r.Wellformed) ∧
      ¬ Run.AllSteps (System.step (configEnv .emit))
        (fun sys r => (sys.step (configEnv .emit) r).Agrees) (.initial 5010 5555)
        (setupThenExit "llm.0abc") := by
  refine ⟨?_, ?_⟩
  · intro r hr
    rcases List.mem_pair.mp hr with rfl | rfl
    · exact ⟨by decide, ⟨by decide, by decide⟩, by decide +kernel⟩
    · exact ⟨by decide, ⟨by decide, by decide⟩, by decide +kernel⟩
  · rintro ⟨-, hexit, -⟩
    have hzero := hexit 0
    rw [← AList.lookup_isSome] at hzero
    exact absurd hzero (by decide +kernel)

end DoubleTurnouts
