/-
  DoubleTurnouts.HybridComm.RpcServer

  The server half of `pzmq`: the table of RPC actions and `zmq_event_loop` in
  `ZMQ_RPC_FUN` mode.  The loop thread moves between four points (two
  receives, the call under the table's mutex, the reply), and table changes
  and requests of clients may come between any two of its steps.

  `RpcSpec` is what the server is for: it holds the requests that came in and
  answers them one at a time.  A run of the server is followed by the spec,
  which serves a request at the moment the loop thread calls the handler
  (`dispatches`).  The loop stays aligned with the request boundaries while
  no action frame is empty: an empty one is skipped by the `ret <= 0` test
  that was meant for errors.  Registering into a table that has been emptied
  starts a second thread over the first one.
-/
import Mathlib.Tactic
import DoubleTurnouts.Lib.Bytes
import DoubleTurnouts.Lib.Run

namespace DoubleTurnouts

/-! ## The REP socket -/

/-- Where a REP socket stands in a two-frame request: before it, before its second frame, or
    behind it and in debt of a reply. -/
inductive RepPhase
  | between
  | more (data : Bytes)
  | reply
  deriving DecidableEq, Repr

/-- A REP socket.  `queue` are the requests that have come in and are not begun, `sent` the
    replies in the order they went out. -/
structure RepSocket where
  queue : List (Bytes × Bytes)
  phase : RepPhase
  sent : List Bytes
  deriving DecidableEq, Repr

namespace RepSocket

def fresh : RepSocket := ⟨[], .between, []⟩

/-- `zmq_msg_recv`: the return value, the message, and the socket afterwards; `none` while the
    call blocks.  After the last frame it fails until a reply is sent, and leaves the message
    empty. -/
def zmq_msg_recv (k : RepSocket) : Option (Int × Bytes × RepSocket) :=
  match k.phase with
  | .between =>
      match k.queue with
      | [] => none
      | (action, data) :: queue =>
          some (action.length, action, { k with queue := queue, phase := .more data })
  | .more data => some (data.length, data, { k with phase := .reply })
  | .reply => some (-1, [], k)

/-- `zmq_send`, refused unless a reply is due. -/
def zmq_send (k : RepSocket) (retval : Bytes) : RepSocket :=
  match k.phase with
  | .reply => { k with phase := .between, sent := k.sent ++ [retval] }
  | _ => k

end RepSocket

/-! ## The server -/

variable {σ : Type}

/-- `rpc_callback_fun`, over the state `σ` the handlers of a program work on.  `none` is an
    exception. -/
abbrev rpc_callback_fun (σ : Type) := σ → Bytes → Option Bytes × σ

/-- What stands in the table: the built-in `_rpc_list_action`, or a registered handler. -/
inductive ZmqFun (σ : Type)
  | list_action
  | user (raw_call : rpc_callback_fun σ)

/-- Where the loop thread is. -/
inductive LoopAt
  | recvAction
  | recvData (action : Bytes)
  | call (action data : Bytes)
  | send (retval : Bytes)
  deriving DecidableEq, Repr

/-- A `pzmq` used as a server.  `zmq_thread_` is empty before the first `creat`; `terminated`
    tells that `std::terminate` was called. -/
structure RpcServer (σ : Type) where
  zmq_fun_ : Map Bytes (ZmqFun σ)
  app : σ
  socket : RepSocket
  zmq_thread_ : Option LoopAt
  terminated : Bool

/-- A call or a request from outside the loop thread.  `bound` is what `zmq_bind` returns,
    should the registration get that far. -/
inductive RpcInput (σ : Type)
  | register_rpc_action (action : Bytes) (raw_call : rpc_callback_fun σ) (bound : Int)
  | unregister_rpc_action (action : Bytes)
  | request (action data : Bytes)

/-- The loop of `_rpc_list_action` over the names from `i` on; there is at least one, the
    action's own. -/
def listedActions : List Bytes → Bytes
  | [] => []
  -- the closing bracket belongs to the last name
  | [i] => str "\"" ++ i ++ str "\"" ++ str "]\x7d"
  | i :: rest => str "\"" ++ i ++ str "\"" ++ str "," ++ listedActions rest

/-- `_rpc_list_action`, over the table's names in its iteration order. -/
def _rpc_list_action (names : List Bytes) : Bytes :=
  str "\x7b\"actions\":[" ++ listedActions names

/-- A call through the table's `std::function`. -/
def ZmqFun.call (f : ZmqFun σ) (zmq_fun_ : Map Bytes (ZmqFun σ)) (app : σ) (data : Bytes) :
    Option Bytes × σ :=
  match f with
  | .list_action => (some (_rpc_list_action zmq_fun_.keys), app)
  | .user raw_call => raw_call app data

namespace RpcServer

def new (app : σ) : RpcServer σ where
  zmq_fun_ := ∅
  app := app
  socket := .fresh
  zmq_thread_ := none
  terminated := false

/-- `creat` in `ZMQ_RPC_FUN` mode, which is `creat_rep`.  Assigning `zmq_thread_` destroys the
    thread it held, which is running and joinable. -/
def creat (s : RpcServer σ) : RpcServer σ :=
  match s.zmq_thread_ with
  | none => { s with socket := .fresh, zmq_thread_ := some .recvAction }
  | some _ => { s with terminated := true }

def register_rpc_action (s : RpcServer σ) (action : Bytes) (raw_call : rpc_callback_fun σ)
    (bound : Int) : Int × RpcServer σ :=
  if (s.zmq_fun_.lookup action).isSome then
    (0, { s with zmq_fun_ := s.zmq_fun_.insert action (.user raw_call) })
  else if Map.size s.zmq_fun_ = 0 then
    let s := { s with zmq_fun_ := s.zmq_fun_.insert (str "list_action") .list_action }
    let s := s.creat
    -- what zmq_bind returned is passed on, and the action is registered all the same
    (bound, { s with zmq_fun_ := s.zmq_fun_.insert action (.user raw_call) })
  else (0, { s with zmq_fun_ := s.zmq_fun_.insert action (.user raw_call) })

def unregister_rpc_action (s : RpcServer σ) (action : Bytes) : RpcServer σ :=
  if (s.zmq_fun_.lookup action).isSome then { s with zmq_fun_ := s.zmq_fun_.erase action }
  else s

/-- The `try` block under the mutex: `at` throws on an unknown action, and everything thrown
    is answered with `NotAction`. -/
def tryCall (s : RpcServer σ) (action data : Bytes) : Bytes × σ :=
  match s.zmq_fun_.lookup action with
  | none => (str "NotAction", s.app)
  | some f =>
      match f.call s.zmq_fun_ s.app data with
      | (some retval, app) => (retval, app)
      | (none, app) => (str "NotAction", app)

/-- One step of `zmq_event_loop`.  A receive that would block leaves the thread where it is. -/
def zmq_event_loop (s : RpcServer σ) : RpcServer σ :=
  match s.zmq_thread_ with
  | none => s
  | some .recvAction =>
      match s.socket.zmq_msg_recv with
      | none => s
      | some (ret, msg, socket) =>
          -- meant for errors, but an empty frame has size 0 too
          if ret ≤ 0 then { s with socket := socket }
          else { s with socket := socket, zmq_thread_ := some (.recvData msg) }
  | some (.recvData action) =>
      -- the return value of this receive is not looked at
      match s.socket.zmq_msg_recv with
      | none => s
      | some (_, msg1, socket) =>
          { s with socket := socket, zmq_thread_ := some (.call action msg1) }
  | some (.call action data) =>
      { s with
        app := (s.tryCall action data).2
        zmq_thread_ := some (.send (s.tryCall action data).1) }
  | some (.send retval) =>
      { s with socket := s.socket.zmq_send retval, zmq_thread_ := some .recvAction }

def receive (s : RpcServer σ) : RpcInput σ → RpcServer σ
  | .register_rpc_action action raw_call bound => (s.register_rpc_action action raw_call bound).2
  | .unregister_rpc_action action => s.unregister_rpc_action action
  | .request action data =>
      { s with socket := { s.socket with queue := s.socket.queue ++ [(action, data)] } }

/-- Nothing moves any more once the process has been terminated. -/
def step (s : RpcServer σ) : Move (RpcInput σ) → RpcServer σ
  | .input i => if s.terminated then s else s.receive i
  | .run => if s.terminated then s else s.zmq_event_loop

/-- The server after its first registration, which starts the loop. -/
def start (app : σ) (action : Bytes) (raw_call : rpc_callback_fun σ) (bound : Int) :
    RpcServer σ :=
  ((new app).register_rpc_action action raw_call bound).2

end RpcServer

/-! ## What the server is for -/

/-- The requests in the order they came, answered one at a time. -/
structure RpcSpec (σ : Type) where
  zmq_fun_ : Map Bytes (ZmqFun σ)
  app : σ
  waiting : List (Bytes × Bytes)
  answers : List Bytes

namespace RpcSpec

/-- The result of the handler registered under `action`, or `NotAction` when there is none or
    it throws. -/
def answer (t : RpcSpec σ) (action data : Bytes) : Bytes :=
  ((t.zmq_fun_.lookup action).bind fun f => (f.call t.zmq_fun_ t.app data).1).getD
    (str "NotAction")

/-- What the handler leaves behind. -/
def appAfter (t : RpcSpec σ) (action data : Bytes) : σ :=
  match t.zmq_fun_.lookup action with
  | none => t.app
  | some f => (f.call t.zmq_fun_ t.app data).2

/-- The oldest request is answered with the handlers of this moment. -/
def serve (t : RpcSpec σ) : RpcSpec σ :=
  match t.waiting with
  | [] => t
  | (action, data) :: rest =>
      { t with
        app := t.appAfter action data
        waiting := rest
        answers := t.answers ++ [t.answer action data] }

def receive (t : RpcSpec σ) : RpcInput σ → RpcSpec σ
  | .register_rpc_action action raw_call _ =>
      { t with zmq_fun_ := t.zmq_fun_.insert action (.user raw_call) }
  | .unregister_rpc_action action => { t with zmq_fun_ := t.zmq_fun_.erase action }
  -- behind the ones that wait already
  | .request action data => { t with waiting := t.waiting ++ [(action, data)] }

def step (t : RpcSpec σ) : Move (RpcInput σ) → RpcSpec σ
  | .input i => t.receive i
  | .run => t.serve

def start (app : σ) (action : Bytes) (raw_call : rpc_callback_fun σ) : RpcSpec σ where
  zmq_fun_ := AList.insert action (.user raw_call)
    (AList.insert (str "list_action") .list_action ∅)
  app := app
  waiting := []
  answers := []

end RpcSpec

/-- The two-frame requests of a sequence of moves. -/
def requests (es : List (Move (RpcInput σ))) : List (Bytes × Bytes) :=
  es.filterMap fun
    | .input (.request action data) => some (action, data)
    | _ => none

namespace RpcServer

/-- The spec's side of a move: inputs are the same, and a request is served when the loop
    thread makes the call. -/
def dispatches (s : RpcServer σ) : Move (RpcInput σ) → List (Move (RpcInput σ))
  | .input i => [.input i]
  | .run =>
      match s.zmq_thread_ with
      -- only this step touches the handlers' state and the table
      | some (.call _ _) => [.run]
      | _ => []

/-- The reply the loop thread has computed and not yet sent. -/
def inHand (s : RpcServer σ) : List Bytes :=
  match s.zmq_thread_ with
  | some (.send retval) => [retval]
  | _ => []

/-- The condition on a move: an action frame is not empty, and a registration finds a table
    that is not. -/
def Admissible (s : RpcServer σ) : Move (RpcInput σ) → Prop
  | .input (.request action _) => action ≠ []
  | .input (.register_rpc_action _ _ _) => Map.size s.zmq_fun_ ≠ 0
  | _ => True

instance (s : RpcServer σ) (e : Move (RpcInput σ)) : Decidable (s.Admissible e) :=
  match e with
  | .input (.request action _) => inferInstanceAs (Decidable (action ≠ []))
  | .input (.register_rpc_action _ _ _) => inferInstanceAs (Decidable (Map.size s.zmq_fun_ ≠ 0))
  | .input (.unregister_rpc_action _) => isTrue trivial
  | .run => isTrue trivial

/-! ## Alignment -/

/-- The loop thread's place, the frames left on the socket and the spec's queue fit
    together. -/
def Aligned (thread : Option LoopAt) (k : RepSocket) (waiting : List (Bytes × Bytes))
    (answers : List Bytes) : Prop :=
  match thread with
  | none => False
  | some .recvAction => k.phase = .between ∧ waiting = k.queue ∧ answers = k.sent
  | some (.recvData action) =>
      ∃ data, k.phase = .more data ∧ waiting = (action, data) :: k.queue ∧ answers = k.sent
  | some (.call action data) =>
      k.phase = .reply ∧ waiting = (action, data) :: k.queue ∧ answers = k.sent
  | some (.send retval) => k.phase = .reply ∧ waiting = k.queue ∧ answers = k.sent ++ [retval]

/-- The server and the spec that has followed it so far. -/
structure Follows (s : RpcServer σ) (t : RpcSpec σ) : Prop where
  alive : s.terminated = false
  table : t.zmq_fun_ = s.zmq_fun_
  app : t.app = s.app
  named : ∀ r ∈ t.waiting, r.1 ≠ []
  aligned : Aligned s.zmq_thread_ s.socket t.waiting t.answers

theorem start_follows (app : σ) (action : Bytes) (raw_call : rpc_callback_fun σ) (bound : Int) :
    Follows (start app action raw_call bound) (RpcSpec.start app action raw_call) where
  alive := rfl
  table := rfl
  app := rfl
  named := by simp [RpcSpec.start]
  aligned := ⟨rfl, rfl, rfl⟩

theorem Follows.sent {s : RpcServer σ} {t : RpcSpec σ} (h : Follows s t) :
    s.socket.sent ++ s.inHand = t.answers := by
  have haligned := h.aligned
  unfold inHand
  match hthread : s.zmq_thread_ with
  | none =>
      rw [hthread] at haligned
      exact haligned.elim
  | some .recvAction =>
      rw [hthread] at haligned
      simp [haligned.2.2]
  | some (.recvData action) =>
      rw [hthread] at haligned
      obtain ⟨data, -, -, hanswers⟩ := haligned
      simp [hanswers]
  | some (.call action data) =>
      rw [hthread] at haligned
      simp [haligned.2.2]
  | some (.send retval) =>
      rw [hthread] at haligned
      simp [haligned.2.2]

/-- The `try` block computes the answer the spec gives. -/
theorem tryCall_eq {s : RpcServer σ} {t : RpcSpec σ} (h : Follows s t) (action data : Bytes) :
    s.tryCall action data = (t.answer action data, t.appAfter action data) := by
  simp only [tryCall, RpcSpec.answer, RpcSpec.appAfter, h.table, h.app]
  cases hf : s.zmq_fun_.lookup action with
  | none => rfl
  | some f =>
      simp only [Option.bind_some]
      -- a handler that throws may have changed the state before
      rcases f.call s.zmq_fun_ s.app data with ⟨retval?, app'⟩
      cases retval? <;> rfl

/-! ### Inputs -/

/-- A registration into a table with an entry only changes the table. -/
theorem register_of_size_ne_zero {s : RpcServer σ} (h : Map.size s.zmq_fun_ ≠ 0) (action : Bytes)
    (raw_call : rpc_callback_fun σ) (bound : Int) :
    (s.register_rpc_action action raw_call bound).2
      = { s with zmq_fun_ := s.zmq_fun_.insert action (.user raw_call) } := by
  unfold register_rpc_action
  rw [if_neg h]
  split <;> rfl

theorem unregister_eq (s : RpcServer σ) (action : Bytes) :
    s.unregister_rpc_action action = { s with zmq_fun_ := s.zmq_fun_.erase action } := by
  unfold unregister_rpc_action
  split
  · rfl
  · rename_i habsent
    -- erasing a name that is not there changes nothing
    have hkey : action ∉ s.zmq_fun_.keys := by
      rw [← AList.mem_keys, ← AList.lookup_isSome]
      exact habsent
    have herase : s.zmq_fun_.erase action = s.zmq_fun_ := by
      apply AList.ext
      exact List.kerase_of_notMem_keys hkey
    rw [herase]

/-- A new request is behind all others, wherever the loop thread is. -/
theorem Aligned.request {thread : Option LoopAt} {k : RepSocket} {waiting : List (Bytes × Bytes)}
    {answers : List Bytes} (h : Aligned thread k waiting answers) (r : Bytes × Bytes) :
    Aligned thread { k with queue := k.queue ++ [r] } (waiting ++ [r]) answers := by
  match thread, h with
  | some .recvAction, ⟨hphase, hwaiting, hanswers⟩ => exact ⟨hphase, by rw [hwaiting], hanswers⟩
  | some (.recvData action), ⟨data, hphase, hwaiting, hanswers⟩ =>
      exact ⟨data, hphase, by rw [hwaiting, List.cons_append], hanswers⟩
  | some (.call action data), ⟨hphase, hwaiting, hanswers⟩ =>
      exact ⟨hphase, by rw [hwaiting, List.cons_append], hanswers⟩
  | some (.send retval), ⟨hphase, hwaiting, hanswers⟩ =>
      exact ⟨hphase, by rw [hwaiting], hanswers⟩

theorem receive_follows {s : RpcServer σ} {t : RpcSpec σ} (h : Follows s t) {i : RpcInput σ}
    (hi : s.Admissible (.input i)) : Follows (s.receive i) (t.receive i) := by
  cases i with
  | register_rpc_action action raw_call bound =>
      rw [receive, register_of_size_ne_zero hi]
      exact ⟨h.alive, by simp only [RpcSpec.receive, h.table], h.app, h.named, h.aligned⟩
  | unregister_rpc_action action =>
      rw [receive, unregister_eq]
      exact ⟨h.alive, by simp only [RpcSpec.receive, h.table], h.app, h.named, h.aligned⟩
  | request action data =>
      refine ⟨h.alive, h.table, h.app, ?_, h.aligned.request (action, data)⟩
      intro r hr
      rcases List.mem_append.mp hr with hold | hnew
      · exact h.named r hold
      · rw [List.mem_singleton.mp hnew]
        exact hi

/-! ### The loop thread -/

/-- Everything a step of the loop thread can do while it is aligned: wait for a request, or
    pass from one point to the next.  The frame sizes enter here and nowhere else. -/
theorem zmq_event_loop_cases {s : RpcServer σ} {t : RpcSpec σ} (h : Follows s t) :
    (s.zmq_thread_ = some .recvAction ∧ t.waiting = [] ∧ s.zmq_event_loop = s) ∨
    (∃ action data queue, s.zmq_thread_ = some .recvAction ∧
      s.socket.queue = (action, data) :: queue ∧
      s.zmq_event_loop = { s with
        socket := { s.socket with queue := queue, phase := .more data }
        zmq_thread_ := some (.recvData action) }) ∨
    (∃ action data, s.zmq_thread_ = some (.recvData action) ∧ s.socket.phase = .more data ∧
      s.zmq_event_loop = { s with
        socket := { s.socket with phase := .reply }
        zmq_thread_ := some (.call action data) }) ∨
    (∃ action data, s.zmq_thread_ = some (.call action data) ∧
      s.zmq_event_loop = { s with
        app := t.appAfter action data
        zmq_thread_ := some (.send (t.answer action data)) }) ∨
    (∃ retval, s.zmq_thread_ = some (.send retval) ∧
      s.zmq_event_loop = { s with
        socket := { s.socket with phase := .between, sent := s.socket.sent ++ [retval] }
        zmq_thread_ := some .recvAction }) := by
  have haligned := h.aligned
  match hthread : s.zmq_thread_ with
  | none =>
      rw [hthread] at haligned
      exact haligned.elim
  | some .recvAction =>
      rw [hthread] at haligned
      obtain ⟨hphase, hwaiting, -⟩ := haligned
      cases hqueue : s.socket.queue with
      | nil =>
          left
          refine ⟨rfl, by rw [hwaiting, hqueue], ?_⟩
          simp [zmq_event_loop, hthread, RepSocket.zmq_msg_recv, hphase, hqueue]
      | cons r queue =>
          obtain ⟨action, data⟩ := r
          right; left
          refine ⟨action, data, queue, rfl, rfl, ?_⟩
          -- the first frame is not empty, so its length passes the test
          have hname : action ≠ [] := h.named (action, data) (by rw [hwaiting, hqueue]; simp)
          have hpos : ¬ ((action.length : Int) ≤ 0) := by
            have := List.length_pos_of_ne_nil hname
            omega
          simp only [zmq_event_loop, hthread, RepSocket.zmq_msg_recv, hphase, hqueue, if_neg hpos]
  | some (.recvData action) =>
      rw [hthread] at haligned
      obtain ⟨data, hphase, -⟩ := haligned
      right; right; left
      refine ⟨action, data, rfl, hphase, ?_⟩
      simp only [zmq_event_loop, hthread, RepSocket.zmq_msg_recv, hphase]
  | some (.call action data) =>
      right; right; right; left
      refine ⟨action, data, rfl, ?_⟩
      simp only [zmq_event_loop, hthread, tryCall_eq h]
  | some (.send retval) =>
      rw [hthread] at haligned
      right; right; right; right
      refine ⟨retval, rfl, ?_⟩
      simp only [zmq_event_loop, hthread, RepSocket.zmq_send, haligned.1]

/-- One step of the loop, with what the spec does meanwhile. -/
theorem run_follows {s : RpcServer σ} {t : RpcSpec σ} (h : Follows s t) :
    Follows s.zmq_event_loop (Run.exec RpcSpec.step t (s.dispatches .run)) := by
  have haligned := h.aligned
  rcases zmq_event_loop_cases h with ⟨hthread, -, hnext⟩ |
    ⟨action, data, queue, hthread, hqueue, hnext⟩ |
    ⟨action, data, hthread, hphase, hnext⟩ | ⟨action, data, hthread, hnext⟩ |
    ⟨retval, hthread, hnext⟩
  · simp only [dispatches, hthread, Run.exec_nil, hnext]
    exact h
  · rw [hthread] at haligned
    obtain ⟨-, hwaiting, hanswers⟩ := haligned
    rw [hqueue] at hwaiting
    simp only [dispatches, hthread, Run.exec_nil, hnext]
    exact ⟨h.alive, h.table, h.app, h.named, data, rfl, hwaiting, hanswers⟩
  · rw [hthread] at haligned
    obtain ⟨data', hphase', hwaiting, hanswers⟩ := haligned
    obtain rfl : data' = data := RepPhase.more.inj (hphase'.symm.trans hphase)
    simp only [dispatches, hthread, Run.exec_nil, hnext]
    exact ⟨h.alive, h.table, h.app, h.named, rfl, hwaiting, hanswers⟩
  · -- the call is the moment the spec serves the request
    rw [hthread] at haligned
    obtain ⟨hphase, hwaiting, hanswers⟩ := haligned
    have hserve : t.serve =
        { t with
          app := t.appAfter action data
          waiting := s.socket.queue
          answers := t.answers ++ [t.answer action data] } := by
      simp only [RpcSpec.serve, hwaiting]
    simp only [dispatches, hthread, Run.exec_cons, Run.exec_nil, RpcSpec.step, hnext, hserve]
    refine ⟨h.alive, h.table, rfl, ?_, hphase, rfl, by rw [hanswers]⟩
    intro r hr
    exact h.named r (by rw [hwaiting]; exact List.mem_cons_of_mem _ hr)
  · rw [hthread] at haligned
    obtain ⟨-, hwaiting, hanswers⟩ := haligned
    simp only [dispatches, hthread, Run.exec_nil, hnext]
    exact ⟨h.alive, h.table, h.app, h.named, rfl, hwaiting, hanswers⟩

/-- Every admissible move keeps server and spec together. -/
theorem step_follows {s : RpcServer σ} {t : RpcSpec σ} {e : Move (RpcInput σ)}
    (h : Follows s t) (he : s.Admissible e) :
    Follows (s.step e) (Run.exec RpcSpec.step t (s.dispatches e)) := by
  cases e with
  | input i =>
      simp only [step, h.alive, dispatches, Run.exec_cons, Run.exec_nil, RpcSpec.step]
      exact receive_follows h he
  | run =>
      simp only [step, h.alive]
      exact run_follows h

/-! ### The loop gets through its requests -/

/-- Steps left before the loop thread waits for a request that is not there. -/
def toGo (s : RpcServer σ) : Nat :=
  4 * s.socket.queue.length +
    match s.zmq_thread_ with
    | some (.recvData _) => 3
    | some (.call _ _) => 2
    | some (.send _) => 1
    | _ => 0

/-- A step of the loop thread gets closer, unless everything has been answered. -/
theorem toGo_run {s : RpcServer σ} {t : RpcSpec σ} (h : Follows s t) :
    (t.waiting = [] ∧ s.inHand = []) ∨ s.zmq_event_loop.toGo < s.toGo := by
  rcases zmq_event_loop_cases h with ⟨hthread, hwaiting, -⟩ |
    ⟨action, data, queue, hthread, hqueue, hnext⟩ |
    ⟨action, data, hthread, -, hnext⟩ | ⟨action, data, hthread, hnext⟩ | ⟨retval, hthread, hnext⟩
  -- it waits for a request: nothing is left
  · exact .inl ⟨hwaiting, by simp [inHand, hthread]⟩
  · right
    simp only [toGo, hnext, hthread, hqueue, List.length_cons]
    omega
  · right
    simp only [toGo, hnext, hthread]
    omega
  · right
    simp only [toGo, hnext, hthread]
    omega
  · right
    simp only [toGo, hnext, hthread]
    omega

/-- Left alone, the loop thread answers everything that is waiting. -/
theorem exists_drained {s : RpcServer σ} {t : RpcSpec σ} (h : Follows s t) :
    ∃ n, (Run.exec step s (List.replicate n .run)).socket.sent
      = (Run.exec RpcSpec.step t (List.replicate t.waiting.length .run)).answers := by
  -- `k` requests have been served on the way and the rest is still waiting
  let I : RpcServer σ → Prop := fun s' => ∃ k,
    Follows s' (Run.exec RpcSpec.step t (List.replicate k .run)) ∧
      k + (Run.exec RpcSpec.step t (List.replicate k .run)).waiting.length = t.waiting.length
  have hstep : ∀ s', I s' →
      s'.socket.sent
        = (Run.exec RpcSpec.step t (List.replicate t.waiting.length .run)).answers ∨
      I (s'.step .run) ∧ (s'.step .run).toGo < s'.toGo := by
    rintro s' ⟨k, hfollows, hcount⟩
    have hmove : s'.step .run = s'.zmq_event_loop := by simp [step, hfollows.alive]
    rcases toGo_run hfollows with ⟨hwaiting, hhand⟩ | hlt
    · rw [hwaiting, List.length_nil, Nat.add_zero] at hcount
      have hsent := hfollows.sent
      rw [hhand, List.append_nil, hcount] at hsent
      exact .inl hsent
    · right
      refine ⟨?_, by rw [hmove]; exact hlt⟩
      rw [hmove]
      have hnext := run_follows hfollows
      match hthread : s'.zmq_thread_ with
      | some (.call action data) =>
          have haligned := hfollows.aligned
          rw [hthread] at haligned
          -- one more request has been served, and one less waits
          have hserved : Run.exec RpcSpec.step (Run.exec RpcSpec.step t (List.replicate k .run))
                (s'.dispatches .run)
              = Run.exec RpcSpec.step t (List.replicate (k + 1) .run) := by
            rw [List.replicate_succ', Run.exec_append]
            simp only [dispatches, hthread]
          rw [hserved] at hnext
          refine ⟨k + 1, hnext, ?_⟩
          rw [List.replicate_succ', Run.exec_append, Run.exec_cons, Run.exec_nil, RpcSpec.step,
            RpcSpec.serve]
          rw [haligned.2.1] at hcount ⊢
          simp only [List.length_cons] at hcount ⊢
          omega
      -- the spec stands still at every other point
      | none | some .recvAction | some (.recvData _) | some (.send _) =>
          simp only [dispatches, hthread, Run.exec_nil] at hnext
          exact ⟨k, hnext, hcount⟩
  obtain ⟨n, -, hsent⟩ := Run.exists_replicate toGo Move.run hstep (s := s) ⟨0, h, by simp⟩
  exact ⟨n, hsent⟩

end RpcServer

/-! ## Counting -/

theorem requests_append (es fs : List (Move (RpcInput σ))) :
    requests (es ++ fs) = requests es ++ requests fs :=
  List.filterMap_append

/-- The spec sees the requests the server saw. -/
theorem requests_image (s : RpcServer σ) (es : List (Move (RpcInput σ))) :
    requests (Run.image RpcServer.step RpcServer.dispatches s es) = requests es := by
  induction es generalizing s with
  | nil => rfl
  | cons e es ih =>
      -- serving is no request, and inputs are passed on as they are
      have hhead : requests (s.dispatches e) = requests [e] := by
        cases e with
        | input i => rfl
        | run =>
            simp only [RpcServer.dispatches]
            split <;> rfl
      rw [Run.image, requests_append, ih, hhead, ← requests_append, List.singleton_append]

/-- Every request is answered or waiting, and none is both. -/
theorem RpcSpec.length_exec (t : RpcSpec σ) (es : List (Move (RpcInput σ))) :
    (Run.exec RpcSpec.step t es).answers.length + (Run.exec RpcSpec.step t es).waiting.length
      = t.answers.length + t.waiting.length + (requests es).length := by
  induction es generalizing t with
  | nil => rfl
  | cons e es ih =>
      have hhead : (t.step e).answers.length + (t.step e).waiting.length
          = t.answers.length + t.waiting.length + (requests [e]).length := by
        cases e with
        | input i =>
            cases i with
            | register_rpc_action action raw_call bound => rfl
            | unregister_rpc_action action => rfl
            | request action data =>
                simp only [RpcSpec.step, RpcSpec.receive, requests, List.filterMap_cons,
                  List.filterMap_nil, List.length_append, List.length_cons, List.length_nil]
                omega
        | run =>
            simp only [RpcSpec.step, RpcSpec.serve, requests, List.filterMap_cons,
              List.filterMap_nil, List.length_nil]
            split
            · rfl
            · rename_i hwaiting
              simp only [hwaiting, List.length_append, List.length_cons, List.length_nil]
              omega
      have hsplit : (requests (e :: es)).length = (requests [e]).length + (requests es).length := by
        rw [← List.singleton_append, requests_append, List.length_append]
      rw [Run.exec_cons, ih, hhead, hsplit]
      omega

/-- Serving as often as there are requests leaves none. -/
theorem RpcSpec.waiting_drained (t : RpcSpec σ) :
    (Run.exec RpcSpec.step t (List.replicate t.waiting.length .run)).waiting = [] := by
  induction hw : t.waiting generalizing t with
  | nil => simpa using hw
  | cons r rest ih =>
      have hserve : (t.step .run).waiting = rest := by
        simp only [RpcSpec.step, RpcSpec.serve, hw]
      rw [List.length_cons, List.replicate_succ, Run.exec_cons]
      exact ih _ hserve

/-! ## Whole runs -/

/-- In every run whose action frames are not empty and whose registrations find a table that
    is not, the replies sent so far (and the one in the thread's hand) are the answers of the
    spec, which serves each request with the handlers registered when the loop thread makes
    its call; and from every state reached the loop thread, left alone, sends the answers
    still missing, one for each request. -/
theorem rpc_requests_answered (app : σ) (action : Bytes) (raw_call : rpc_callback_fun σ)
    (bound : Int) (es : List (Move (RpcInput σ)))
    (hes : Run.AllSteps RpcServer.step RpcServer.Admissible
      (.start app action raw_call bound) es) :
    let s := Run.exec RpcServer.step (.start app action raw_call bound) es
    let t := Run.exec RpcSpec.step (.start app action raw_call)
      (Run.image RpcServer.step RpcServer.dispatches (.start app action raw_call bound) es)
    s.socket.sent ++ s.inHand = t.answers ∧
      ∃ n, (Run.exec RpcServer.step s (List.replicate n .run)).socket.sent
          = (Run.exec RpcSpec.step t (List.replicate t.waiting.length .run)).answers ∧
        (Run.exec RpcServer.step s (List.replicate n .run)).socket.sent.length
          = (requests es).length := by
  intro s t
  have hfollows : RpcServer.Follows s t :=
    Run.exec_image (fun _ _ _ h he => RpcServer.step_follows h he)
      (RpcServer.start_follows app action raw_call bound) hes
  obtain ⟨n, hdrained⟩ := RpcServer.exists_drained hfollows
  refine ⟨hfollows.sent, n, hdrained, ?_⟩
  -- all answers of the spec, counted before and after the rest is served
  have hall := t.length_exec (List.replicate t.waiting.length Move.run)
  have hnone : requests (List.replicate t.waiting.length (.run : Move (RpcInput σ))) = [] := by
    rw [requests, List.filterMap_eq_nil_iff]
    intro e he
    rw [List.eq_of_mem_replicate he]
  have hbefore := (RpcSpec.start app action raw_call).length_exec
    (Run.image RpcServer.step RpcServer.dispatches (.start app action raw_call bound) es)
  rw [t.waiting_drained, hnone] at hall
  rw [requests_image] at hbefore
  have hstart : (RpcSpec.start app action raw_call).answers.length
      + (RpcSpec.start app action raw_call).waiting.length = 0 := rfl
  rw [hdrained]
  simp only [List.length_nil] at hall
  show _ = (requests es).length
  have ht : t.answers.length + t.waiting.length = (requests es).length := by
    rw [hbefore, hstart, Nat.zero_add]
  omega

/-- A handler that answers with its argument, counts its calls and throws on `boom`. -/
def echo : rpc_callback_fun Nat := fun calls data =>
  (if data = str "boom" then none else some data, calls + 1)

/-- Five requests around two table changes: an empty data frame, a handler that throws, one
    that is taken away while its request is being read, and an unknown action. -/
def mixedRequests : List (Move (RpcInput Nat)) :=
  [.input (.request (str "echo") []), .run, .run, .input (.request (str "echo") (str "boom")),
   .input (.register_rpc_action (str "twice") (fun n data => (some (data ++ data), n)) 0),
   .run, .run, .run, .run, .run, .run, .input (.request (str "echo") (str "x")), .run, .run,
   .input (.unregister_rpc_action (str "echo")), .input (.request (str "twice") (str "y")),
   .input (.request (str "none") (str "z"))]

theorem rpc_requests_answered_mixed :
    Run.AllSteps RpcServer.step RpcServer.Admissible (.start 0 (str "echo") echo 0)
        mixedRequests ∧
      (Run.exec RpcServer.step (.start 0 (str "echo") echo 0) mixedRequests).socket.sent
        = [[], str "NotAction"] ∧
      ∃ n, (Run.exec RpcServer.step
          (Run.exec RpcServer.step (.start 0 (str "echo") echo 0) mixedRequests)
          (List.replicate n .run)).socket.sent
        = [[], str "NotAction", str "NotAction", str "yy", str "NotAction"] := by
  have hes : Run.AllSteps RpcServer.step RpcServer.Admissible (.start 0 (str "echo") echo 0)
      mixedRequests := by
    decide +kernel
  refine ⟨hes, by decide +kernel, ?_⟩
  obtain ⟨-, n, hsent, -⟩ := rpc_requests_answered 0 (str "echo") echo 0 mixedRequests hes
  exact ⟨n, hsent.trans (by decide +kernel)⟩

/-! ## The two ways out of step -/

/-- An empty request (`Run.exec` of it below) leaves the thread before an action frame and the
    socket short of a reply, and nothing has been sent. -/
def Unanswered (s : RpcServer σ) : Prop :=
  s.terminated = false ∧ s.zmq_thread_ = some .recvAction ∧ s.socket.sent = [] ∧
    (s.socket.phase = .more [] ∨ s.socket.phase = .reply)

/-- Both frames of an empty request are skipped, and every receive after them fails. -/
theorem unanswered_run {s : RpcServer σ} (h : Unanswered s) : Unanswered (s.step .run) := by
  rcases s with ⟨zmq_fun_, app, ⟨queue, phase, sent⟩, zmq_thread_, terminated⟩
  obtain ⟨rfl, rfl, rfl, rfl | rfl⟩ := h
  · exact ⟨rfl, rfl, rfl, .inr rfl⟩
  · exact ⟨rfl, rfl, rfl, .inr rfl⟩

theorem unanswered_runs {s : RpcServer σ} (h : Unanswered s) (n : Nat) :
    Unanswered (Run.exec RpcServer.step s (List.replicate n .run)) := by
  induction n generalizing s with
  | zero => exact h
  | succ n ih => exact ih (unanswered_run h)

/-- An empty request is never answered, and no request after it is; an empty action frame
    before the data `echo` calls the handler `echo`; and a registration into the emptied table
    terminates the process. -/
theorem empty_action_frame_misaligns :
    (∀ n, (Run.exec RpcServer.step (.start 0 (str "echo") echo 0)
        ([.input (.request [] []), .input (.request (str "echo") (str "x")), .run]
          ++ List.replicate n .run)).socket.sent = []) ∧
      (Run.exec RpcServer.step (.start 0 (str "echo") echo 0)
        (.input (.request [] (str "echo")) :: List.replicate 5 .run)).socket.sent = [[]] ∧
      (Run.exec RpcServer.step (.start 0 (str "echo") echo 0)
        [.input (.unregister_rpc_action (str "echo")),
         .input (.unregister_rpc_action (str "list_action")),
         .input (.register_rpc_action (str "echo") echo 0)]).terminated = true := by
  refine ⟨?_, by decide +kernel, by decide +kernel⟩
  intro n
  rw [Run.exec_append]
  have hstart : Unanswered (Run.exec RpcServer.step (.start 0 (str "echo") echo 0)
      [.input (.request [] []), .input (.request (str "echo") (str "x")), .run]) :=
    ⟨rfl, rfl, rfl, .inl rfl⟩
  exact (unanswered_runs hstart n).2.2.1

end DoubleTurnouts
