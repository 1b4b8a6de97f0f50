/-
  DoubleTurnouts.System.UnitCall

  The two callers of `call_rpc_action`: `unit_call`, which a node uses to
  reach the manager or another unit, and `remote_call`, with which
  `unit_action_match` forwards a client's request.  Both rely on the client
  library to tell a unit that answered from one that did not.
-/
import Mathlib.Tactic
import DoubleTurnouts.HybridComm.RpcClient
import DoubleTurnouts.UnitManager.Dispatch

namespace DoubleTurnouts

open Text Decimal

/-! ## `unit_call` -/

/-- `unit_call` with a callback: the messages the callback sees. -/
def unit_call (net : ZmqNet) (ret : Int) (unit_name unit_action data : Bytes) : List Bytes :=
  ((RpcClient.pzmq unit_name).call_rpc_action net ret unit_action data).raw_call

/-- `unit_call` with a result: the callback assigns `value`, which starts out empty. -/
def unit_call_value (net : ZmqNet) (ret : Int) (unit_name unit_action data : Bytes) : Bytes :=
  (unit_call net ret unit_name unit_action data).foldl (fun _ raw => raw) []

/-- The callback sees nothing but the server's reply. -/
theorem unit_call_seen_iff (net : ZmqNet) (ret : Int) (unit_name unit_action data : Bytes) :
    (∀ raw ∈ unit_call net ret unit_name unit_action data,
        net.replyTo unit_name unit_action data = some raw) ↔
      net.AnsweredIfConnected unit_name unit_action data := by
  unfold unit_call ZmqNet.replyTo ZmqNet.AnsweredIfConnected
  by_cases hconn : net.Connects unit_name
  · rw [(RpcClient.call_of_connects hconn ret unit_action data).2, if_pos hconn]
    cases hreply : (net.exchange (ZmqNet.url unit_name) unit_action data).reply with
    | none => simp [hconn]
    | some r => simp
  · rw [(RpcClient.call_of_not_connects hconn ret unit_action data).2]
    simp [hconn]

/-- The result is the reply, and empty without one: a caller cannot tell an empty reply from
    none. -/
theorem unit_call_value_eq (net : ZmqNet) (ret : Int) (unit_name unit_action data : Bytes) :
    unit_call_value net ret unit_name unit_action data
      = (net.replyTo unit_name unit_action data).getD [] := by
  unfold unit_call_value unit_call ZmqNet.replyTo
  by_cases hconn : net.Connects unit_name
  · rw [(RpcClient.call_of_connects hconn ret unit_action data).2, if_pos hconn]
    rfl
  · rw [(RpcClient.call_of_not_connects hconn ret unit_action data).2, if_neg hconn]
    rfl

/-! ## `remote_call` behind the dispatcher -/

/-- The dispatcher over this client library. -/
def ZmqNet.managerEnv (net : ZmqNet) (ret : Int) (sj : Simdjson) (log_level : LogLevel) :
    ManagerEnv where
  sj := sj
  call_rpc_action call :=
    ((RpcClient.pzmq call.server).call_rpc_action net ret call.action call.param).ret
  log_level := log_level

/-- The unit's reply to the request in `json_str`; there is none when `remote_call` throws
    before it asks. -/
def ZmqNet.unitReply (net : ZmqNet) (sj : Simdjson) (com_url json_str : Bytes) : Option Bytes :=
  let call := sj.forwarded com_url json_str
  if (sj.reread json_str).1 = [] ∨ (sj.reread json_str).2 = [] then none
  else net.replyTo call.server call.action call.param

/-- The client of an unanswered request gets the error with code `-9`, and nothing else. -/
def UnansweredReported (env : ManagerEnv) (m : Manager) (com_id : Int) (json_str : Bytes)
    (r : Request) (reply : Option Bytes) (w : Wire) : Prop :=
  reply = none →
    ∃ w', (unit_action_match env m com_id json_str).run w = .ok () w' ∧
      w'.replies = w.replies ++ [(sprintf m.zmq_c_format com_id,
        ⟨r.request_id, r.target, unit_call_false, str "None", str "None"⟩)]

/-- A forwarded request: it throws, or makes its call and reports a non-zero return value. -/
theorem route_call_run (env : ManagerEnv) (m : Manager) (com_id : Int) {json_str : Bytes}
    {r : Request} (hr : env.sj.request json_str = some r) (haction : r.action ≠ str "inference")
    (hdot : r.target.head? ≠ some (ch '.')) (w : Wire) :
    (unit_action_match env m com_id json_str).run w =
      let call := env.sj.forwarded (sprintf m.zmq_c_format com_id) json_str
      let w' := { w with calls := w.calls ++ [call] }
      if (env.sj.reread json_str).1 = [] ∨ (env.sj.reread json_str).2 = [] then
        .error .runtime_error w
      else if env.call_rpc_action call = 0 then .ok () w'
      else .ok () { w' with replies := w'.replies ++ [(sprintf m.zmq_c_format com_id,
        ⟨r.request_id, r.target, unit_call_false, str "None", str "None"⟩)] } := by
  obtain ⟨hid, htarget⟩ := Simdjson.request_valid hr
  obtain ⟨fragment, rest, hfragments, hempty⟩ := work_id_fragments_cons r.target_ne_nil
  -- without a leading dot remote_call is reached
  have hfragment : fragment ≠ [] := fun h => hdot (hempty.mp h)
  have hcall := remote_call_run env m com_id (Simdjson.iterate_isSome_of_request hr) w
  rw [unit_action_match_eq, hr]
  simp only [route, haction, hfragments, if_false, ne_eq, List.length_eq_zero_iff, hfragment,
    not_false_eq_true, if_true, EStateM.run_bind, hcall]
  by_cases hreread : (env.sj.reread json_str).1 = [] ∨ (env.sj.reread json_str).2 = []
  · simp only [hreread, if_true]
  · simp only [hreread, if_false]
    by_cases hzero : env.call_rpc_action
        (env.sj.forwarded (sprintf m.zmq_c_format com_id) json_str) = 0
    · simp only [hzero, not_true_eq_false, if_false, if_true]
      rfl
    · simp only [hzero, not_false_eq_true, if_true, if_false]
      exact usr_print_error_run hid htarget _ _ _ _

theorem unanswered_reported_iff (net : ZmqNet) (ret : Int) (sj : Simdjson) (log_level : LogLevel)
    (m : Manager) (com_id : Int) {json_str : Bytes} {r : Request}
    (hr : sj.request json_str = some r) (haction : r.action ≠ str "inference")
    (hdot : r.target.head? ≠ some (ch '.')) (w : Wire) :
    let call := sj.forwarded (sprintf m.zmq_c_format com_id) json_str
    UnansweredReported (net.managerEnv ret sj log_level) m com_id json_str r
        (net.unitReply sj (sprintf m.zmq_c_format com_id) json_str) w ↔
      ¬ Misread sj json_str r ∧ net.AnsweredIfConnected call.server call.action call.param := by
  intro call
  have hrun := route_call_run (net.managerEnv ret sj log_level) m com_id hr haction hdot w
  have hmisread : Misread sj json_str r ↔
      (sj.reread json_str).1 = [] ∨ (sj.reread json_str).2 = [] := by
    simp only [Misread, ne_eq, haction, hdot, not_false_eq_true, true_and]
  simp only [UnansweredReported, hrun, ZmqNet.unitReply]
  simp only [ZmqNet.managerEnv, hmisread]
  by_cases hreread : (sj.reread json_str).1 = [] ∨ (sj.reread json_str).2 = []
  · -- the exception leaves no error reply behind
    simp [hreread]
  · simp only [hreread, if_false, not_false_eq_true, true_and, RpcClient.call_ret_eq_zero_iff]
    show (net.replyTo call.server call.action call.param = none → _) ↔ _
    by_cases hconn : net.Connects call.server
    · have hconn' : net.Connects
          (sj.forwarded (sprintf m.zmq_c_format com_id) json_str).server := hconn
      simp only [ZmqNet.replyTo, if_pos hconn, if_pos hconn', ZmqNet.AnsweredIfConnected]
      cases hreply : (net.exchange (ZmqNet.url call.server) call.action call.param).reply with
      | some reply => simp
      | none =>
          simp only [forall_const, hconn, Option.isSome_none, Bool.false_eq_true, iff_false]
          -- the call returned zero, so the wire has no reply
          rintro ⟨w', hw', hreplies⟩
          cases hw'
          simp at hreplies
    · have hconn' : ¬ net.Connects
          (sj.forwarded (sprintf m.zmq_c_format com_id) json_str).server := hconn
      simp only [if_neg hconn', ZmqNet.AnsweredIfConnected, hconn, false_implies, iff_true]
      intro _
      exact ⟨_, rfl, rfl⟩

/-! ## The whole path -/

/-- Client library, `unit_call` and dispatcher over one network: each tells what happened
    exactly for the calls that do not connect or are answered, and the dispatcher for those
    requests that `remote_call` rereads with both fields.  The `unit_call` with a result never
    tells an empty reply from none. -/
theorem rpc_outcome_truthful_iff (net : ZmqNet) (ret : Int) :
    (∀ server action data,
      RpcClient.Truthful (net.replyTo server action data)
          ((RpcClient.pzmq server).call_rpc_action net ret action data) ↔
        net.AnsweredIfConnected server action data) ∧
    (∀ unit_name unit_action data,
      (∀ raw ∈ unit_call net ret unit_name unit_action data,
          net.replyTo unit_name unit_action data = some raw) ↔
        net.AnsweredIfConnected unit_name unit_action data) ∧
    (∀ (sj : Simdjson) (log_level : LogLevel) (m : Manager) (com_id : Int) (json_str : Bytes)
        (r : Request) (w : Wire),
      sj.request json_str = some r → r.action ≠ str "inference" →
      r.target.head? ≠ some (ch '.') →
      let call := sj.forwarded (sprintf m.zmq_c_format com_id) json_str
      (UnansweredReported (net.managerEnv ret sj log_level) m com_id json_str r
          (net.unitReply sj (sprintf m.zmq_c_format com_id) json_str) w ↔
        ¬ Misread sj json_str r ∧
          net.AnsweredIfConnected call.server call.action call.param)) ∧
    ∀ unit_name unit_action data,
      unit_call_value net ret unit_name unit_action data =
        (net.replyTo unit_name unit_action data).getD [] := by
  refine ⟨?_, ?_, ?_, unit_call_value_eq net ret⟩
  · intro server action data
    exact RpcClient.truthful_iff net server ret action data
  · intro unit_name unit_action data
    exact unit_call_seen_iff net ret unit_name unit_action data
  · intro sj log_level m com_id json_str r w hr haction hdot
    exact unanswered_reported_iff net ret sj log_level m com_id hr haction hdot w

/-- A setup request for the unit `llm`. -/
def llmSetupText : Bytes :=
  str "\x7b\"request_id\":\"1\",\"work_id\":\"llm\",\"action\":\"setup\"\x7d"

def llmSetupRequest : Request := ⟨str "1", str "llm", str "setup"⟩

def llmSetup : Simdjson := .table llmSetupText llmSetupRequest.members (by decide) (by decide)

/-- Every unit has a socket file and takes connections, and `reply` is what comes back. -/
def ZmqNet.listening (reply : Option Bytes) : ZmqNet where
  access _ := 0
  zmq_connect _ := 0
  exchange _ action data := ⟨action.length, data.length, reply⟩

/-- No unit has a socket file. -/
def ZmqNet.absent : ZmqNet where
  access _ := -1
  zmq_connect _ := 0
  exchange _ _ _ := ⟨-1, -1, none⟩

theorem rpc_outcome_truthful_iff_absent :
    RpcClient.Truthful none
        ((RpcClient.pzmq (str "llm")).call_rpc_action .absent 7 (str "setup") []) ∧
      UnansweredReported (ZmqNet.absent.managerEnv 7 llmSetup .info) (.initial 8000 8010) 8000
        llmSetupText llmSetupRequest none .empty ∧
      RpcClient.Truthful (some (str "ok"))
        ((RpcClient.pzmq (str "llm")).call_rpc_action (.listening (some (str "ok"))) 7
          (str "setup") []) := by
  obtain ⟨hcall, -, hreport, -⟩ := rpc_outcome_truthful_iff .absent 7
  have hsetup := (hreport llmSetup .info (.initial 8000 8010) 8000 llmSetupText llmSetupRequest
    .empty (by decide +kernel) (by decide) (by decide)).mpr ⟨by decide +kernel, by decide +kernel⟩
  refine ⟨?_, ?_, ?_⟩
  · exact (hcall (str "llm") (str "setup") []).mpr (by decide +kernel)
  · exact fun _ => hsetup (by decide +kernel)
  · exact ((rpc_outcome_truthful_iff (.listening (some (str "ok"))) 7).1
      (str "llm") (str "setup") []).mpr (by decide +kernel)

/-- A unit that takes the connection and never answers: the call returns zero, the callback
    sees an empty message nobody sent, and the client of the request gets no reply. -/
theorem hung_unit_reported_as_answered :
    ¬ RpcClient.Truthful ((ZmqNet.listening none).replyTo (str "llm") (str "setup") [])
        ((RpcClient.pzmq (str "llm")).call_rpc_action (.listening none) 7 (str "setup") []) ∧
      unit_call (.listening none) 7 (str "llm") (str "setup") [] = [[]] ∧
      (ZmqNet.listening none).replyTo (str "llm") (str "setup") [] = none ∧
      ¬ UnansweredReported ((ZmqNet.listening none).managerEnv 7 llmSetup .info)
        (.initial 8000 8010) 8000 llmSetupText llmSetupRequest
        ((ZmqNet.listening none).unitReply llmSetup
          (sprintf (Manager.initial 8000 8010).zmq_c_format 8000) llmSetupText) .empty := by
  have hunanswered :
      ¬ (ZmqNet.listening none).AnsweredIfConnected (str "llm") (str "setup") [] := by
    decide +kernel
  refine ⟨?_, by decide +kernel, by decide +kernel, ?_⟩
  · rw [RpcClient.truthful_iff]
    exact hunanswered
  · intro hreported
    obtain ⟨-, hanswered⟩ := (unanswered_reported_iff (.listening none) 7 llmSetup .info
      (.initial 8000 8010) 8000 (r := llmSetupRequest)
      (by decide +kernel) (by decide) (by decide) .empty).mp hreported
    exact absurd (hanswered (by decide +kernel)) (by decide)

/-! ## Control requests that vanish -/

/-- One call was made, it returned zero, and nothing was sent back. -/
def Forwarded (env : ManagerEnv) (w w' : Wire) : Prop :=
  w'.replies = w.replies ∧ ∃ call, w'.calls = w.calls ++ [call] ∧ env.call_rpc_action call = 0

/-- One error reply was sent to the client. -/
def ErrorReplied (m : Manager) (com_id : Int) (w w' : Wire) : Prop :=
  ∃ body, w'.replies = w.replies ++ [(sprintf m.zmq_c_format com_id, body)]

/-- The request does not vanish: exactly one of the two happens. -/
def AnsweredOnce (env : ManagerEnv) (m : Manager) (com_id : Int) (json_str : Bytes) (w : Wire) :
    Prop :=
  ∃ w', (unit_action_match env m com_id json_str).run w = .ok () w' ∧
    Xor (Forwarded env w w') (ErrorReplied m com_id w w')

theorem not_forwarded_of_errorReplied {env : ManagerEnv} {m : Manager} {com_id : Int}
    {w w' : Wire} (h : ErrorReplied m com_id w w') : ¬ Forwarded env w w' := by
  obtain ⟨body, hbody⟩ := h
  rintro ⟨hsame, -⟩
  rw [hbody] at hsame
  simp at hsame

theorem xor_of_errorReplied {env : ManagerEnv} {m : Manager} {com_id : Int} {w w' : Wire}
    (h : ErrorReplied m com_id w w') : Xor (Forwarded env w w') (ErrorReplied m com_id w w') :=
  .inr ⟨h, not_forwarded_of_errorReplied h⟩

/-- A request that leaves the wire as it was has vanished. -/
theorem not_answeredOnce_of_silent {env : ManagerEnv} {m : Manager} {com_id : Int}
    {json_str : Bytes} {w : Wire}
    (h : (unit_action_match env m com_id json_str).run w = .ok () w) :
    ¬ AnsweredOnce env m com_id json_str w := by
  rintro ⟨w', hw', hxor⟩
  rw [h] at hw'
  cases hw'
  rcases hxor with ⟨⟨-, call, hcall, -⟩, -⟩ | ⟨⟨body, hbody⟩, -⟩
  · simp at hcall
  · simp at hbody

/-- A work id that begins with a dot has an empty first fragment. -/
theorem route_leading_dot (env : ManagerEnv) (m : Manager) (com_id : Int) {json_str : Bytes}
    {r : Request} (hr : env.sj.request json_str = some r) (haction : r.action ≠ str "inference")
    (hdot : r.target.head? = some (ch '.')) (w : Wire) :
    (unit_action_match env m com_id json_str).run w = .ok () w := by
  obtain ⟨fragment, rest, hfragments, hempty⟩ := work_id_fragments_cons r.target_ne_nil
  have hfragment : fragment = [] := hempty.mpr hdot
  rw [unit_action_match_eq, hr]
  simp only [route, haction, hfragments, hfragment, if_false, List.length_nil]
  rfl

/-- The work id that is split begins as the one of the text. -/
theorem Request.target_head (r : Request) :
    r.target.head? = some (ch '.') ↔ r.work_id.head? = some (ch '.') := by
  unfold Request.target
  split
  · rename_i hempty
    rw [hempty]
    decide
  · exact Iff.rfl

/-- For every text that is no inference request and makes `unit_action_match` return: the client's
    request is forwarded or answered with one error if and only if its work id does not begin
    with a dot. -/
theorem control_request_answered_iff (env : ManagerEnv) (m : Manager) (com_id : Int)
    (json_str : Bytes) (w : Wire) (hreturns : Returns env m com_id json_str w)
    (haction : ∀ r, env.sj.request json_str = some r → r.action ≠ str "inference") :
    AnsweredOnce env m com_id json_str w ↔
      ∀ r, env.sj.request json_str = some r → r.work_id.head? ≠ some (ch '.') := by
  obtain ⟨w', hrun⟩ := hreturns
  cases hr : env.sj.request json_str with
  | none =>
      -- the text is refused, with the one error reply of every refusal
      have hid : Utf8.Valid (str "0") := by decide
      have hsys : Utf8.Valid (str "sys") := by decide
      have hrefused := usr_print_error_run hid hsys m json_format_error com_id w
      have hmatch : unit_action_match env m com_id json_str =
          usr_print_error m (str "0") (str "sys") json_format_error com_id := by
        rw [unit_action_match_eq, hr]
      rw [← hmatch] at hrefused
      refine ⟨fun _ r h => absurd h (by simp), fun _ => ⟨_, hrefused, ?_⟩⟩
      exact xor_of_errorReplied ⟨_, rfl⟩
  | some r =>
      have hcontrol := haction r hr
      simp only [Option.some.injEq, forall_eq', ne_eq, ← r.target_head]
      by_cases hdot : r.target.head? = some (ch '.')
      · -- nothing is called and nothing sent
        simp only [hdot, not_true_eq_false, iff_false]
        exact not_answeredOnce_of_silent (route_leading_dot env m com_id hr hcontrol hdot w)
      · simp only [hdot, not_false_eq_true, iff_true]
        have hcall := route_call_run env m com_id hr hcontrol hdot w
        rw [hrun] at hcall
        dsimp only at hcall
        refine ⟨w', hrun, ?_⟩
        split at hcall
        · cases hcall
        · split at hcall
          · rename_i hzero
            cases hcall
            -- forwarded, and nothing was sent back
            refine .inl ⟨⟨rfl, _, rfl, hzero⟩, ?_⟩
            rintro ⟨body, hbody⟩
            simp at hbody
          · cases hcall
            exact xor_of_errorReplied ⟨_, rfl⟩

theorem control_request_answered_iff_absent :
    AnsweredOnce (ZmqNet.absent.managerEnv 7 llmSetup .info) (.initial 8000 8010) 8000 llmSetupText
      .empty := by
  have hr : llmSetup.request llmSetupText = some llmSetupRequest := by decide +kernel
  refine (control_request_answered_iff (ZmqNet.absent.managerEnv 7 llmSetup .info)
    (.initial 8000 8010) 8000 llmSetupText .empty ?_ ?_).mpr ?_
  · rw [Returns, unit_action_match_eq, show (ZmqNet.absent.managerEnv 7 llmSetup .info).sj.request
      llmSetupText = some llmSetupRequest from hr]
    exact (route_call_returns_iff _ _ _ hr (by decide) _).mpr (by decide +kernel)
  · intro r h
    obtain rfl := Option.some.inj (hr.symm.trans h)
    decide
  · intro r h
    obtain rfl := Option.some.inj (hr.symm.trans h)
    decide

/-- A setup request whose work id begins with a dot. -/
def dotSetupText : Bytes :=
  str "\x7b\"request_id\":\"1\",\"work_id\":\".llm\",\"action\":\"setup\"\x7d"

def dotSetupRequest : Request := ⟨str "1", str ".llm", str "setup"⟩

def dotSetup : Simdjson := .table dotSetupText dotSetupRequest.members (by decide) (by decide)

/-- Nobody is called and the client hears nothing. -/
theorem dotted_request_vanishes :
    (unit_action_match ((ZmqNet.listening (some [])).managerEnv 7 dotSetup .info)
      (.initial 8000 8010) 8000 dotSetupText).run .empty = .ok () .empty ∧
    ¬ AnsweredOnce ((ZmqNet.listening (some [])).managerEnv 7 dotSetup .info) (.initial 8000 8010)
      8000 dotSetupText .empty := by
  have hr : ((ZmqNet.listening (some [])).managerEnv 7 dotSetup .info).sj.request dotSetupText =
      some dotSetupRequest := by
    decide +kernel
  have hsilent := route_leading_dot ((ZmqNet.listening (some [])).managerEnv 7 dotSetup .info)
    (.initial 8000 8010) 8000 hr (by decide) (by decide) .empty
  exact ⟨hsilent, not_answeredOnce_of_silent hsilent⟩

end DoubleTurnouts
