/-
  DoubleTurnouts.HybridComm.SocketLife

  The life of the zmq sockets of a `pzmq` object, in every mode: `creat` makes
  one, the receiver thread and the owner's calls use it, and it is closed by
  `close_zmq`, that is by the destructor or at the end of an RPC call, but
  also by the receiver thread when a poll fails.

  The owner's calls are written out as the zmq calls they make, so the
  receiver thread may come in between any two of them.  `closes` counts the
  `zmq_close`s of a socket and `late` the calls that came after one.

  `Inv` is the invariant: what is left of the owner's call fits the socket and
  the thread there are (`ScriptOk`), and every socket but the current one has
  been closed once.
-/
import Mathlib.Tactic
import DoubleTurnouts.Lib.Bytes
import DoubleTurnouts.Lib.Run

namespace DoubleTurnouts

/-- `mode_`; `other` is a socket type `creat` has no case for. -/
inductive ZmqMode
  | pub
  | sub
  | push
  | pull
  | rpc_fun
  | rpc_call
  | other
  deriving DecidableEq, Repr

/-- A zmq call on a socket, other than closing it. -/
inductive ZmqCall
  | zmq_setsockopt
  | zmq_bind
  | zmq_connect
  | zmq_send
  | zmq_msg_recv
  | zmq_poll
  deriving DecidableEq, Repr

/-- The steps the owner's calls are made of.  `forget` is `zmq_socket_ = NULL`, `ended` the
    end of the destructor. -/
inductive OwnerAct
  | zmq_socket
  | call (c : ZmqCall)
  | start_thread
  | zmq_close
  | forget
  | set_flage
  | zmq_ctx_shutdown
  | join
  | ended
  deriving DecidableEq, Repr

/-- Where the receiver thread is in `zmq_event_loop`. -/
inductive ReceiverPoint
  | whileTest
  | zmq_poll
  | zmq_close
  | zmq_msg_recv
  | zmq_msg_recv1
  | rpc_call
  | zmq_send
  | raw_call
  | exited
  deriving DecidableEq, Repr

/-- A socket: how often it was closed, and how many calls it got after that. -/
structure SocketUse where
  closes : Nat
  late : Nat
  deriving DecidableEq, Repr

/-- A `pzmq` object.  `items` is the socket the receiver thread polls, `todo` what is left of
    the owner's call, `sockets` are all sockets `creat` has made, in order. -/
structure Pzmq where
  mode_ : ZmqMode
  rpc_server_ : Bytes
  zmq_fun_ : List Bytes
  zmq_socket_ : Option Nat
  flage_ : Bool
  ctxShut : Bool
  zmq_thread_ : Option ReceiverPoint
  items : Option Nat
  todo : List OwnerAct
  sockets : List SocketUse
  destructing : Bool
  done : Bool
  terminated : Bool
  deriving DecidableEq, Repr

/-- How a zmq call of the receiver thread ends: `zmq_poll` fails, reports something else than
    `ZMQ_POLLIN`, or reports it; `zmq_msg_recv` returns a positive number or not. -/
inductive PollResult
  | fails
  | otherEvent
  | pollin
  deriving DecidableEq, Repr

/-- How an RPC call goes: the socket file of a local server is missing, the connect fails, or
    the exchange takes place and the callback returns, throws an `int`, or throws something
    else, which is not caught. -/
inductive CallOutcome
  | noFile
  | refused
  | returned
  | threwInt
  | threwOther
  deriving DecidableEq, Repr

/-- A move: a call of the owner, the owner's next step, or one of the receiver thread. -/
inductive PzmqEvent
  | send_data
  | register_rpc_action (action : Bytes)
  | unregister_rpc_action (action : Bytes)
  | call_rpc_action (outcome : CallOutcome)
  | destruct
  | owner
  | receiver (poll : PollResult) (received : Bool)
  deriving DecidableEq, Repr

namespace Pzmq

/-! ## The calls written out -/

/-- `creat`, with the function it ends in.  `creat_req` gives up when the socket file of a
    local server is missing. -/
def creat (mode_ : ZmqMode) (fileFound : Bool) : List OwnerAct :=
  .zmq_socket ::
    match mode_ with
    | .pub => [.call .zmq_bind]
    | .sub =>
        [.call .zmq_setsockopt, .call .zmq_setsockopt, .call .zmq_connect, .call .zmq_setsockopt,
          .start_thread]
    | .push =>
        [.call .zmq_setsockopt, .call .zmq_setsockopt, .call .zmq_setsockopt, .call .zmq_connect]
    | .pull | .rpc_fun => [.call .zmq_bind, .start_thread]
    | .rpc_call =>
        if fileFound then [.call .zmq_setsockopt, .call .zmq_setsockopt, .call .zmq_connect]
        else []
    | .other => []

/-- `close_zmq`, without the context and the socket file. -/
def close_zmq : List OwnerAct := [.zmq_close, .forget]

/-- The request and its reply. -/
def exchange : List OwnerAct := [.call .zmq_send, .call .zmq_send, .call .zmq_msg_recv]

/-- `call_rpc_action` from the connect on: a failed connect is thrown past the exchange, and
    only what is thrown and is no `int` gets past `close_zmq`. -/
def requist : CallOutcome → List OwnerAct
  | .noFile | .refused => close_zmq
  | .returned | .threwInt => exchange ++ close_zmq
  | .threwOther => exchange

/-- A destructor that finds no socket returns at once. -/
def destructor (zmq_socket_ : Option Nat) : List OwnerAct :=
  match zmq_socket_ with
  | none => [.ended]
  | some _ => [.set_flage, .zmq_ctx_shutdown, .join] ++ close_zmq ++ [.ended]

/-! ## Objects -/

/-- `pzmq(server)`, which makes no socket yet, or `pzmq(url, mode)`, which makes one unless it
    is to serve RPCs.  `fileFound` is the answer of `access`, should `creat_req` ask for it. -/
def new (rpc_server_ : Bytes) (mode : Option ZmqMode) (fileFound : Bool) : Pzmq where
  mode_ := mode.getD .other
  rpc_server_ := rpc_server_
  zmq_fun_ := []
  zmq_socket_ := none
  flage_ := true
  ctxShut := false
  zmq_thread_ := none
  items := none
  todo :=
    match mode with
    | none | some .rpc_fun => []
    | some mode => creat mode fileFound
  sockets := []
  destructing := false
  done := false
  terminated := false

/-- A zmq call on a socket, or on `NULL`. -/
def zmq (s : Pzmq) (socket : Option Nat) : Pzmq :=
  match socket with
  | none => s
  | some i =>
      { s with sockets := s.sockets.modify i fun k =>
        { k with late := if 0 < k.closes then k.late + 1 else k.late } }

/-- `zmq_close`; closing a closed socket is a call on it, too. -/
def zmq_close (s : Pzmq) : Pzmq :=
  match s.zmq_socket_ with
  | none => s
  | some i =>
      { s with sockets := s.sockets.modify i fun k =>
        { closes := k.closes + 1, late := if 0 < k.closes then k.late + 1 else k.late } }

/-- One step of the owner's call.  Assigning or destroying a thread that was not joined
    terminates the process; `join` waits for the thread to end. -/
def act (s : Pzmq) : OwnerAct → Pzmq
  | .zmq_socket =>
      { s with zmq_socket_ := some s.sockets.length, sockets := s.sockets ++ [⟨0, 0⟩] }
  | .call _ => s.zmq s.zmq_socket_
  | .start_thread =>
      if s.zmq_thread_.isSome then { s with terminated := true }
      else { s with
        flage_ := false, zmq_thread_ := some .whileTest, items := s.zmq_socket_ }
  | .zmq_close => s.zmq_close
  | .forget => { s with zmq_socket_ := none }
  | .set_flage => { s with flage_ := true }
  | .zmq_ctx_shutdown => { s with ctxShut := true }
  | .join => { s with zmq_thread_ := none }
  | .ended =>
      if s.zmq_thread_.isSome then { s with terminated := true } else { s with done := true }

/-- The owner goes on, unless it waits for the thread. -/
def owner (s : Pzmq) : Pzmq :=
  match s.todo with
  | [] => s
  | a :: rest =>
      if a = .join ∧ s.zmq_thread_ ≠ none ∧ s.zmq_thread_ ≠ some .exited then s
      else { s.act a with todo := rest }

/-- `register_rpc_action`: the first registration makes the server. -/
def register_rpc_action (s : Pzmq) (action : Bytes) : Pzmq :=
  if action ∈ s.zmq_fun_ then s
  else if s.zmq_fun_ = [] then
    { s with
      mode_ := .rpc_fun
      zmq_fun_ := if action = str "list_action" then [action] else [str "list_action", action]
      todo := creat .rpc_fun true }
  else { s with zmq_fun_ := s.zmq_fun_ ++ [action] }

def call_rpc_action (s : Pzmq) (outcome : CallOutcome) : Pzmq :=
  match s.zmq_socket_ with
  | some _ =>
      -- an open socket is used as it is
      let outcome := if outcome = .noFile ∨ outcome = .refused then .returned else outcome
      { s with todo := requist outcome }
  | none =>
      if s.rpc_server_ = [] then s
      else { s with
        mode_ := .rpc_call
        todo := creat .rpc_call (outcome ≠ .noFile) ++ requist outcome }

/-- One step of the receiver thread in `zmq_event_loop`. -/
def zmq_event_loop (s : Pzmq) (poll : PollResult) (received : Bool) : Pzmq :=
  match s.zmq_thread_ with
  | none | some .exited => s
  | some .whileTest =>
      let next : ReceiverPoint :=
        if s.flage_ then .exited else if s.mode_ = .pull then .zmq_poll else .zmq_msg_recv
      { s with zmq_thread_ := some next }
  | some .zmq_poll =>
      let next : ReceiverPoint := match poll with
        | .fails => .zmq_close
        | .otherEvent => .whileTest
        | .pollin => .zmq_msg_recv
      { s.zmq s.items with zmq_thread_ := some next }
  | some .zmq_close => { s.zmq_close with zmq_thread_ := some .whileTest }
  | some .zmq_msg_recv =>
      let next : ReceiverPoint :=
        if !received then .whileTest
        else if s.mode_ = .rpc_fun then .zmq_msg_recv1 else .raw_call
      { s.zmq s.zmq_socket_ with zmq_thread_ := some next }
  | some .zmq_msg_recv1 => { s.zmq s.zmq_socket_ with zmq_thread_ := some .rpc_call }
  | some .rpc_call => { s with zmq_thread_ := some .zmq_send }
  | some .zmq_send => { s.zmq s.zmq_socket_ with zmq_thread_ := some .whileTest }
  | some .raw_call => { s with zmq_thread_ := some .whileTest }

/-- The owner starts a call when it is done with the last one, and none after the
    destructor. -/
def step (s : Pzmq) (e : PzmqEvent) : Pzmq :=
  if s.terminated then s
  else
    match e with
    | .owner => s.owner
    | .receiver poll received => s.zmq_event_loop poll received
    | e =>
        if s.todo ≠ [] ∨ s.destructing then s
        else
          match e with
          | .send_data => { s with todo := [.call .zmq_send] }
          | .register_rpc_action action => s.register_rpc_action action
          | .unregister_rpc_action action => { s with zmq_fun_ := s.zmq_fun_.erase action }
          | .call_rpc_action outcome => s.call_rpc_action outcome
          | .destruct => { s with destructing := true, todo := destructor s.zmq_socket_ }
          | _ => s

/-- No socket is closed twice or used after it was closed, and all are closed when the object
    is gone. -/
def ClosedOnce (s : Pzmq) : Prop :=
  s.terminated = false ∧
    ∀ k ∈ s.sockets, k.closes ≤ 1 ∧ k.late = 0 ∧ (s.done = true → k.closes = 1)

/-- The condition on a move: no poll of the receiver thread fails, no RPC call is made on an
    object with a receiver thread, and an object that has a socket is not made a server. -/
def Orderly (s : Pzmq) : PzmqEvent → Prop
  | .receiver poll _ => s.zmq_thread_ = some .zmq_poll → poll ≠ .fails
  | .call_rpc_action _ => s.zmq_thread_ = none
  | .register_rpc_action _ => s.zmq_fun_ = [] → s.zmq_socket_ = none
  | _ => True

/-! ## The invariant -/

/-- What `zmq_socket_` points to: nothing, an open socket, or one that has been closed. -/
inductive Pointer
  | null
  | live
  | dangling
  deriving DecidableEq, Repr

def pointer (s : Pzmq) : Pointer :=
  match s.zmq_socket_ with
  | none => .null
  | some i => if s.sockets[i]?.map SocketUse.closes = some 0 then .live else .dangling

/-- The steps may be taken one after the other: sockets are made when there is none and the
    thread when there is none, a socket is closed when the thread is gone, and nothing is
    called on a closed one. -/
def ScriptOk : Pointer → Bool → List OwnerAct → Prop
  | p, _, [] => p ≠ .dangling
  | p, thread, .zmq_socket :: rest => p = .null ∧ thread = false ∧ ScriptOk .live thread rest
  | p, thread, .call _ :: rest => p ≠ .dangling ∧ ScriptOk p thread rest
  | p, thread, .start_thread :: rest => p = .live ∧ thread = false ∧ ScriptOk p true rest
  | p, thread, .zmq_close :: rest => p = .live ∧ thread = false ∧ ScriptOk .dangling thread rest
  | p, thread, .forget :: rest => p = .dangling ∧ thread = false ∧ ScriptOk .null thread rest
  | p, thread, .set_flage :: rest => ScriptOk p thread rest
  | p, thread, .zmq_ctx_shutdown :: rest => ScriptOk p thread rest
  | p, _, .join :: rest => ScriptOk p false rest
  | p, thread, .ended :: rest => p = .null ∧ thread = false ∧ rest = []

structure Inv (s : Pzmq) : Prop where
  running : s.terminated = false
  script : ScriptOk s.pointer s.zmq_thread_.isSome s.todo
  thread : s.zmq_thread_.isSome = true → s.pointer = .live ∧ s.items = s.zmq_socket_
  noClose : s.zmq_thread_ ≠ some .zmq_close
  used : ∀ (i : Nat) k, s.sockets[i]? = some k →
    k.late = 0 ∧ k.closes ≤ 1 ∧ (s.zmq_socket_ ≠ some i → k.closes = 1)
  ending : .ended ∈ s.todo → s.destructing = true
  done : s.done = true → s.zmq_socket_ = none ∧ s.todo = [] ∧ s.destructing = true

section Steps

variable {s : Pzmq}

theorem Inv.closedOnce (h : Inv s) : s.ClosedOnce := by
  refine ⟨h.running, fun k hk => ?_⟩
  obtain ⟨i, hi⟩ := List.mem_iff_getElem?.mp hk
  obtain ⟨hlate, hcloses, hold⟩ := h.used i k hi
  exact ⟨hcloses, hlate, fun hdone => hold (by simp [(h.done hdone).1])⟩

theorem pointer_eq_null : s.pointer = .null ↔ s.zmq_socket_ = none := by
  unfold pointer
  split
  · simp_all
  · split <;> simp_all

/-- An open socket has not been closed. -/
theorem exists_of_live (h : s.pointer = .live) :
    ∃ i k, s.zmq_socket_ = some i ∧ s.sockets[i]? = some k ∧ k.closes = 0 := by
  unfold pointer at h
  split at h
  · cases h
  · rename_i i hi
    split at h
    · rename_i hzero
      obtain ⟨k, hk, hcloses⟩ := Option.map_eq_some_iff.mp hzero
      exact ⟨i, k, hi, hk, hcloses⟩
    · cases h

/-- Calls on an open socket, or on `NULL`, leave no trace. -/
theorem zmq_eq_self (h : s.pointer ≠ .dangling) : s.zmq s.zmq_socket_ = s := by
  cases hp : s.pointer with
  | null =>
      rw [pointer_eq_null.mp hp]
      rfl
  | dangling => exact absurd hp h
  | live =>
      obtain ⟨i, k, hsock, hk, hcloses⟩ := exists_of_live hp
      have hsame : s.sockets.modify i (fun k =>
          { k with late := if 0 < k.closes then k.late + 1 else k.late }) = s.sockets := by
        apply List.ext_getElem?
        intro j
        rcases eq_or_ne i j with rfl | hne
        · rw [List.getElem?_modify_eq, hk]
          show some (SocketUse.mk k.closes (if 0 < k.closes then k.late + 1 else k.late)) = some k
          rw [if_neg (by omega)]
        · rw [List.getElem?_modify_ne _ _ hne]
      rw [hsock]
      unfold zmq
      dsimp only
      rw [hsame]

/-- A step that leaves the sockets alone. -/
theorem Inv.of_sockets {s' : Pzmq} (h : Inv s) (hrunning : s'.terminated = false)
    (hsock : s'.zmq_socket_ = s.zmq_socket_) (hsockets : s'.sockets = s.sockets)
    (hscript : ScriptOk s.pointer s'.zmq_thread_.isSome s'.todo)
    (hthread : s'.zmq_thread_.isSome = true → s.pointer = .live ∧ s'.items = s.zmq_socket_)
    (hnoClose : s'.zmq_thread_ ≠ some .zmq_close)
    (hending : .ended ∈ s'.todo → s'.destructing = true)
    (hdone : s'.done = true → s.zmq_socket_ = none ∧ s'.todo = [] ∧ s'.destructing = true) :
    Inv s' := by
  have hpointer : s'.pointer = s.pointer := by simp only [pointer, hsock, hsockets]
  exact
    { running := hrunning
      script := hpointer ▸ hscript
      thread := by rwa [hpointer, hsock]
      noClose := hnoClose
      used := by
        rw [hsock, hsockets]
        exact h.used
      ending := hending
      done := by rwa [hsock] }

section Act

variable {a : OwnerAct} {rest : List OwnerAct}

theorem Inv.ending_rest (h : Inv s) (htodo : s.todo = a :: rest) :
    .ended ∈ rest → s.destructing = true := by
  intro hin
  exact h.ending (by rw [htodo]; exact List.mem_cons_of_mem _ hin)

/-- A destructor that has ended has nothing left to do. -/
theorem Inv.not_done (h : Inv s) (htodo : s.todo = a :: rest) : s.done ≠ true := by
  intro hdone
  have hnil := (h.done hdone).2.1
  rw [htodo] at hnil
  cases hnil

/-- A step that leaves the sockets and the end alone. -/
theorem Inv.of_act {s' : Pzmq} (h : Inv s) (htodo : s.todo = a :: rest)
    (hsame : s'.terminated = s.terminated ∧ s'.zmq_socket_ = s.zmq_socket_ ∧
      s'.sockets = s.sockets ∧ s'.destructing = s.destructing ∧ s'.done = s.done ∧
      s'.todo = rest)
    (hscript : ScriptOk s.pointer s'.zmq_thread_.isSome rest)
    (hthread : s'.zmq_thread_.isSome = true → s.pointer = .live ∧ s'.items = s.zmq_socket_)
    (hnoClose : s'.zmq_thread_ ≠ some .zmq_close) : Inv s' := by
  obtain ⟨hterm, hsock, hsockets, hdestructing, hdone, htodo'⟩ := hsame
  refine h.of_sockets (hterm.trans h.running) hsock hsockets (htodo' ▸ hscript) hthread hnoClose ?_
    fun hd => absurd (hdone.symm.trans hd) (h.not_done htodo)
  rw [htodo', hdestructing]
  exact h.ending_rest htodo

/-- The new socket is the last of the list, open and without a late call. -/
theorem Inv.act_zmq_socket (h : Inv s) (htodo : s.todo = .zmq_socket :: rest) :
    Inv { s.act .zmq_socket with todo := rest } := by
  have hscript := h.script
  rw [htodo] at hscript
  obtain ⟨hnull, hthread, hrest⟩ := hscript
  have hsock := pointer_eq_null.mp hnull
  have hlive : ({ s.act .zmq_socket with todo := rest } : Pzmq).pointer = .live := by
    simp [pointer, Pzmq.act]
  refine ⟨h.running, hlive ▸ hrest, ?_, h.noClose, ?_, h.ending_rest htodo,
    fun hd => absurd hd (h.not_done htodo)⟩
  · intro ht
    exact absurd (hthread.symm.trans ht) (by decide)
  · intro i k hk
    have hk : (s.sockets ++ [⟨0, 0⟩])[i]? = some k := hk
    rcases lt_trichotomy i s.sockets.length with hlt | rfl | hgt
    · rw [List.getElem?_append_left hlt] at hk
      obtain ⟨hlate, hcloses, hold⟩ := h.used i k hk
      exact ⟨hlate, hcloses, fun _ => hold (by simp [hsock])⟩
    · rw [List.getElem?_concat_length] at hk
      cases hk
      exact ⟨rfl, by decide, fun hne => absurd rfl hne⟩
    · rw [List.getElem?_eq_none (by simp; omega)] at hk
      cases hk

/-- The thread gets the pointer as it is now. -/
theorem Inv.act_start_thread (h : Inv s) (htodo : s.todo = .start_thread :: rest) :
    Inv { s.act .start_thread with todo := rest } := by
  have hscript := h.script
  rw [htodo] at hscript
  obtain ⟨hlive, hthread, hrest⟩ := hscript
  have hact : s.act .start_thread =
      { s with flage_ := false, zmq_thread_ := some .whileTest, items := s.zmq_socket_ } := by
    simp [Pzmq.act, hthread]
  rw [hact]
  exact h.of_act htodo ⟨rfl, rfl, rfl, rfl, rfl, rfl⟩ hrest (fun _ => ⟨hlive, rfl⟩) (by simp)

/-- `zmq_socket_` keeps the address of what it has closed. -/
theorem Inv.act_zmq_close (h : Inv s) (htodo : s.todo = .zmq_close :: rest) :
    Inv { s.act .zmq_close with todo := rest } := by
  have hscript := h.script
  rw [htodo] at hscript
  obtain ⟨hlive, hthread, hrest⟩ := hscript
  obtain ⟨i, k, hsock, hk, hcloses⟩ := exists_of_live hlive
  have hact : s.act .zmq_close = { s with sockets := s.sockets.modify i fun k =>
      { closes := k.closes + 1, late := if 0 < k.closes then k.late + 1 else k.late } } := by
    simp [Pzmq.act, Pzmq.zmq_close, hsock]
  rw [hact]
  have hdangling : ({ s with todo := rest, sockets := s.sockets.modify i fun k =>
      { closes := k.closes + 1, late := if 0 < k.closes then k.late + 1 else k.late } } :
        Pzmq).pointer = .dangling := by
    simp [pointer, hsock, hk]
  refine ⟨h.running, hdangling ▸ hrest, ?_, h.noClose, ?_, h.ending_rest htodo,
    fun hd => absurd hd (h.not_done htodo)⟩
  · intro ht
    exact absurd (hthread.symm.trans ht) (by decide)
  · intro j k' hk'
    rcases eq_or_ne i j with rfl | hne
    · -- the socket that is closed was open and had no late call
      simp only [List.getElem?_modify_eq, hk, Option.map_eq_map, Option.map_some,
        Option.some.injEq] at hk'
      subst hk'
      obtain ⟨hlate, -, -⟩ := h.used i k hk
      simp [hcloses, hlate, hsock]
    · simp only [List.getElem?_modify_ne _ _ hne] at hk'
      exact h.used j k' hk'

/-- The socket that is forgotten has been closed. -/
theorem Inv.act_forget (h : Inv s) (htodo : s.todo = .forget :: rest) :
    Inv { s.act .forget with todo := rest } := by
  have hscript := h.script
  rw [htodo] at hscript
  obtain ⟨hdangling, hthread, hrest⟩ := hscript
  refine ⟨h.running, hrest, ?_, h.noClose, ?_, h.ending_rest htodo,
    fun hd => absurd hd (h.not_done htodo)⟩
  · intro ht
    exact absurd (hthread.symm.trans ht) (by decide)
  · intro i k hk
    obtain ⟨hlate, hcloses, hold⟩ := h.used i k hk
    refine ⟨hlate, hcloses, fun _ => ?_⟩
    by_cases hsock : s.zmq_socket_ = some i
    · have hk : s.sockets[i]? = some k := hk
      have hne : k.closes ≠ 0 := by
        intro hzero
        simp [pointer, hsock, hk, hzero] at hdangling
      omega
    · exact hold hsock

theorem Inv.act_ended (h : Inv s) (htodo : s.todo = .ended :: rest) :
    Inv { s.act .ended with todo := rest } := by
  have hscript := h.script
  rw [htodo] at hscript
  obtain ⟨hnull, hthread, rfl⟩ := hscript
  have hact : s.act .ended = { s with done := true } := by simp [Pzmq.act, hthread]
  rw [hact]
  refine h.of_sockets h.running rfl rfl ?_ h.thread h.noClose (by simp) ?_
  · rw [hnull]
    simp [ScriptOk]
  · exact fun _ => ⟨pointer_eq_null.mp hnull, rfl, h.ending (by rw [htodo]; simp)⟩

/-- One step of a call that fits. -/
theorem Inv.act (h : Inv s) (htodo : s.todo = a :: rest) :
    Inv { s.act a with todo := rest } := by
  have hscript := h.script
  rw [htodo] at hscript
  cases a with
  | zmq_socket => exact h.act_zmq_socket htodo
  | start_thread => exact h.act_start_thread htodo
  | zmq_close => exact h.act_zmq_close htodo
  | forget => exact h.act_forget htodo
  | ended => exact h.act_ended htodo
  | call c =>
      have hself : s.act (.call c) = s := zmq_eq_self hscript.1
      rw [hself]
      exact h.of_act htodo ⟨rfl, rfl, rfl, rfl, rfl, rfl⟩ hscript.2 h.thread h.noClose
  | set_flage | zmq_ctx_shutdown =>
      exact h.of_act htodo ⟨rfl, rfl, rfl, rfl, rfl, rfl⟩ hscript h.thread h.noClose
  | join =>
      exact h.of_act htodo ⟨rfl, rfl, rfl, rfl, rfl, rfl⟩ hscript (by simp [Pzmq.act])
        (by simp [Pzmq.act])

end Act

theorem Inv.owner (h : Inv s) : Inv s.owner := by
  unfold Pzmq.owner
  split
  · exact h
  · rename_i a rest htodo
    split
    · exact h
    · exact h.act htodo

/-- The receiver thread calls on the open socket only, as long as no poll fails. -/
theorem Inv.zmq_event_loop (h : Inv s) (poll : PollResult) (received : Bool)
    (hpoll : s.zmq_thread_ = some .zmq_poll → poll ≠ .fails) :
    Inv (s.zmq_event_loop poll received) := by
  -- wherever the thread goes, the rest stays as it is
  have hmove : ∀ point : ReceiverPoint, s.zmq_thread_.isSome = true → point ≠ .zmq_close →
      Inv { s with zmq_thread_ := some point } := by
    intro point hsome hpoint
    refine h.of_sockets h.running rfl rfl ?_ (fun _ => h.thread hsome) (by simpa using hpoint)
      h.ending h.done
    have hscript := h.script
    rwa [hsome] at hscript
  cases hthread : s.zmq_thread_ with
  | none =>
      simp only [Pzmq.zmq_event_loop, hthread]
      exact h
  | some point =>
      have hsome : s.zmq_thread_.isSome = true := by simp [hthread]
      obtain ⟨hlive, hitems⟩ := h.thread hsome
      have hself : s.zmq s.zmq_socket_ = s := zmq_eq_self (by simp [hlive])
      have hpolled : s.zmq s.items = s := by
        rw [hitems]
        exact hself
      cases point with
      | zmq_close => exact absurd hthread h.noClose
      | exited =>
          simp only [Pzmq.zmq_event_loop, hthread]
          exact h
      | whileTest =>
          simp only [Pzmq.zmq_event_loop, hthread]
          exact hmove _ hsome (by split <;> [simp; (split <;> simp)])
      | zmq_poll =>
          simp only [Pzmq.zmq_event_loop, hthread, hpolled]
          refine hmove _ hsome ?_
          cases poll with
          | fails => exact absurd rfl (hpoll hthread)
          | otherEvent => simp
          | pollin => simp
      | zmq_msg_recv =>
          simp only [Pzmq.zmq_event_loop, hthread, hself]
          exact hmove _ hsome (by split <;> [simp; (split <;> simp)])
      | zmq_msg_recv1 =>
          simp only [Pzmq.zmq_event_loop, hthread, hself]
          exact hmove _ hsome (by simp)
      | rpc_call =>
          simp only [Pzmq.zmq_event_loop, hthread]
          exact hmove _ hsome (by simp)
      | zmq_send =>
          simp only [Pzmq.zmq_event_loop, hthread, hself]
          exact hmove _ hsome (by simp)
      | raw_call =>
          simp only [Pzmq.zmq_event_loop, hthread]
          exact hmove _ hsome (by simp)

/-! ## Starting a call -/

theorem scriptOk_creat_of_null (mode : ZmqMode) (fileFound : Bool) :
    ScriptOk .null false (creat mode fileFound) := by
  cases mode <;> cases fileFound <;> simp [creat, ScriptOk]

/-- An RPC call on a connected socket. -/
theorem scriptOk_requist (outcome : CallOutcome) : ScriptOk .live false (requist outcome) := by
  cases outcome <;> simp [requist, exchange, close_zmq, ScriptOk]

theorem scriptOk_call (outcome : CallOutcome) :
    ScriptOk .null false (creat .rpc_call (outcome ≠ .noFile) ++ requist outcome) := by
  cases outcome <;> simp [creat, requist, exchange, close_zmq, ScriptOk]

theorem scriptOk_destructor {zmq_socket_ : Option Nat} {p : Pointer} {thread : Bool}
    (hnull : zmq_socket_ = none → p = .null ∧ thread = false)
    (hlive : zmq_socket_ ≠ none → p = .live) : ScriptOk p thread (destructor zmq_socket_) := by
  cases zmq_socket_ with
  | none =>
      obtain ⟨rfl, rfl⟩ := hnull rfl
      simp [destructor, ScriptOk]
  | some i =>
      rw [hlive (by simp)]
      simp [destructor, close_zmq, ScriptOk]

/-- A call is started with a script that fits. -/
theorem Inv.start (h : Inv s) (hnot : s.destructing = false) {s' : Pzmq} {todo : List OwnerAct}
    (hscript : ScriptOk s.pointer s.zmq_thread_.isSome todo)
    (hsame : s'.terminated = s.terminated ∧ s'.zmq_socket_ = s.zmq_socket_ ∧
      s'.sockets = s.sockets ∧ s'.zmq_thread_ = s.zmq_thread_ ∧ s'.items = s.items ∧
      s'.done = s.done ∧ s'.todo = todo)
    (hending : .ended ∈ todo → s'.destructing = true) : Inv s' := by
  obtain ⟨hterm, hsock, hsockets, hthread, hitems, hdone, htodo⟩ := hsame
  refine h.of_sockets (hterm.trans h.running) hsock hsockets ?_ ?_ ?_ ?_ ?_
  · rw [hthread, htodo]
    exact hscript
  · rw [hthread, hitems]
    exact h.thread
  · rw [hthread]
    exact h.noClose
  · rw [htodo]
    exact hending
  · intro hd
    rw [hdone] at hd
    rw [(h.done hd).2.2] at hnot
    cases hnot

/-- Between two calls the object has an open socket or none, and no thread without one. -/
theorem Inv.idle (h : Inv s) (hidle : s.todo = []) :
    (s.zmq_socket_ = none → s.pointer = .null ∧ s.zmq_thread_.isSome = false) ∧
      (s.zmq_socket_ ≠ none → s.pointer = .live) := by
  have hscript := h.script
  rw [hidle] at hscript
  constructor
  · intro hnone
    have hnull := pointer_eq_null.mpr hnone
    refine ⟨hnull, ?_⟩
    cases hthread : s.zmq_thread_.isSome with
    | false => rfl
    | true =>
        have hlive := (h.thread hthread).1
        rw [hnull] at hlive
        cases hlive
  · intro hsock
    have hne : s.pointer ≠ .null := fun hnull => hsock (pointer_eq_null.mp hnull)
    cases hp : s.pointer with
    | null => exact absurd hp hne
    | live => rfl
    | dangling => exact absurd hp hscript

theorem Inv.register_rpc_action (h : Inv s) (hidle : s.todo = []) (hnot : s.destructing = false)
    (action : Bytes) (hnone : s.zmq_fun_ = [] → s.zmq_socket_ = none) :
    Inv (s.register_rpc_action action) := by
  unfold Pzmq.register_rpc_action
  split
  · exact h
  · split
    · rename_i hempty
      obtain ⟨hnull, hthread⟩ := (h.idle hidle).1 (hnone hempty)
      refine h.start hnot ?_ ⟨rfl, rfl, rfl, rfl, rfl, rfl, rfl⟩ (by simp [creat])
      rw [hnull, hthread]
      exact scriptOk_creat_of_null .rpc_fun true
    · exact h.start hnot h.script ⟨rfl, rfl, rfl, rfl, rfl, rfl, rfl⟩ h.ending

theorem not_ended_requist (outcome : CallOutcome) : .ended ∉ requist outcome := by
  cases outcome <;> simp [requist, exchange, close_zmq]

theorem not_ended_creat (mode : ZmqMode) (fileFound : Bool) : .ended ∉ creat mode fileFound := by
  cases mode <;> cases fileFound <;> simp [creat]

theorem Inv.call_rpc_action (h : Inv s) (hidle : s.todo = []) (hnot : s.destructing = false)
    (outcome : CallOutcome) (hthread : s.zmq_thread_ = none) :
    Inv (s.call_rpc_action outcome) := by
  unfold Pzmq.call_rpc_action
  split
  · rename_i i hsock
    refine h.start hnot ?_ ⟨rfl, rfl, rfl, rfl, rfl, rfl, rfl⟩
      fun hin => absurd hin (not_ended_requist _)
    rw [(h.idle hidle).2 (by simp [hsock]), hthread]
    exact scriptOk_requist _
  · rename_i hsock
    split
    · exact h
    · refine h.start hnot ?_ ⟨rfl, rfl, rfl, rfl, rfl, rfl, rfl⟩ fun hin => ?_
      · rw [((h.idle hidle).1 hsock).1, hthread]
        exact scriptOk_call outcome
      · rcases List.mem_append.mp hin with hin | hin
        · exact absurd hin (not_ended_creat _ _)
        · exact absurd hin (not_ended_requist _)

/-- Every orderly move keeps the invariant. -/
theorem Inv.step (h : Inv s) (e : PzmqEvent) (horderly : s.Orderly e) : Inv (s.step e) := by
  unfold Pzmq.step
  rw [if_neg (by simp [h.running])]
  -- a call of the owner starts only between two calls
  have hstart : ∀ {s' : Pzmq}, (s.todo = [] → s.destructing = false → Inv s') →
      Inv (if s.todo ≠ [] ∨ s.destructing = true then s else s') := by
    intro s' hs'
    split
    · exact h
    · rename_i hnot
      obtain ⟨hidle, hnot⟩ := not_or.mp hnot
      exact hs' (by simpa using hidle) (by simpa using hnot)
  cases e with
  | owner => exact h.owner
  | receiver poll received => exact h.zmq_event_loop poll received horderly
  | send_data =>
      refine hstart fun hidle hnot =>
        h.start hnot ?_ ⟨rfl, rfl, rfl, rfl, rfl, rfl, rfl⟩ (by simp)
      have hscript := h.script
      rw [hidle] at hscript
      exact ⟨hscript, hscript⟩
  | register_rpc_action action =>
      exact hstart fun hidle hnot => h.register_rpc_action hidle hnot action horderly
  | unregister_rpc_action action =>
      exact hstart fun _ hnot =>
        h.start hnot h.script ⟨rfl, rfl, rfl, rfl, rfl, rfl, rfl⟩ h.ending
  | call_rpc_action outcome =>
      exact hstart fun hidle hnot => h.call_rpc_action hidle hnot outcome horderly
  | destruct =>
      refine hstart fun hidle hnot =>
        h.start hnot ?_ ⟨rfl, rfl, rfl, rfl, rfl, rfl, rfl⟩ fun _ => rfl
      exact scriptOk_destructor (h.idle hidle).1 (h.idle hidle).2

end Steps

theorem inv_new (rpc_server_ : Bytes) (mode : Option ZmqMode) (fileFound : Bool) :
    Inv (new rpc_server_ mode fileFound) := by
  have hscript : ScriptOk .null false (new rpc_server_ mode fileFound).todo ∧
      .ended ∉ (new rpc_server_ mode fileFound).todo := by
    rcases mode with _ | mode
    · simp [new, ScriptOk]
    · have hcreat := scriptOk_creat_of_null mode fileFound
      have hended := not_ended_creat mode fileFound
      cases mode with
      | rpc_fun => simp [new, ScriptOk]
      | pub | sub | push | pull | rpc_call | other => exact ⟨hcreat, hended⟩
  exact
    { running := rfl
      script := hscript.1
      thread := by simp [new]
      noClose := by simp [new]
      used := by simp [new]
      ending := fun hin => absurd hin hscript.2
      done := by simp [new] }

instance (s : Pzmq) (e : PzmqEvent) : Decidable (s.Orderly e) :=
  match e with
  | .receiver poll _ => inferInstanceAs (Decidable (s.zmq_thread_ = some .zmq_poll → poll ≠ .fails))
  | .call_rpc_action _ => inferInstanceAs (Decidable (s.zmq_thread_ = none))
  | .register_rpc_action _ => inferInstanceAs (Decidable (s.zmq_fun_ = [] → s.zmq_socket_ = none))
  | .send_data | .unregister_rpc_action _ | .destruct | .owner => inferInstanceAs (Decidable True)

instance (s : Pzmq) : Decidable s.ClosedOnce :=
  inferInstanceAs (Decidable (s.terminated = false ∧
    ∀ k ∈ s.sockets, k.closes ≤ 1 ∧ k.late = 0 ∧ (s.done = true → k.closes = 1)))

/-! ## Whole runs -/

/-- In every run of orderly moves, in every mode, each socket is closed once when the object is
    gone, never twice, and not used after that. -/
theorem sockets_closed_once (rpc_server_ : Bytes) (mode : Option ZmqMode) (fileFound : Bool)
    (es : List PzmqEvent)
    (hes : Run.AllSteps step Orderly (new rpc_server_ mode fileFound) es) :
    (Run.exec step (new rpc_server_ mode fileFound) es).ClosedOnce := by
  have hinv : Inv (Run.exec step (new rpc_server_ mode fileFound) es) := by
    refine Run.exec_invariant (I := Inv) ?_ (inv_new rpc_server_ mode fileFound) hes
    intro s e h he
    exact h.step e he
  exact hinv.closedOnce

/-- A subscriber from its constructor to the end of its destructor, with the receive that the
    shutdown of the context makes fail. -/
def subscriberLife : List PzmqEvent :=
  List.replicate 6 .owner ++
    [.receiver .pollin true, .receiver .pollin true, .receiver .pollin true,
      .receiver .pollin true, .destruct, .owner, .owner, .receiver .pollin false,
      .receiver .pollin true, .owner, .owner, .owner, .owner]

theorem sockets_closed_once_subscriber :
    (Run.exec step (new [] (some .sub) true) subscriberLife).done = true ∧
      (Run.exec step (new [] (some .sub) true) subscriberLife).sockets = [⟨1, 0⟩] ∧
      (Run.exec step (new [] (some .sub) true) subscriberLife).ClosedOnce :=
  ⟨by decide, by decide, sockets_closed_once [] (some .sub) true subscriberLife (by decide)⟩

/-- A puller whose destructor shuts the context down while its thread polls: the thread closes
    the socket and sees the flag, and the destructor closes the socket again. -/
def pullerLife : List PzmqEvent :=
  List.replicate 3 .owner ++
    [.receiver .pollin true, .destruct, .owner, .owner, .receiver .fails true,
      .receiver .fails true, .receiver .fails true, .owner, .owner, .owner, .owner]

theorem puller_closes_twice :
    (Run.exec step (new [] (some .pull) true) pullerLife).done = true ∧
      (Run.exec step (new [] (some .pull) true) pullerLife).sockets = [⟨2, 1⟩] ∧
      ¬ (Run.exec step (new [] (some .pull) true) pullerLife).ClosedOnce := by
  decide

end Pzmq
end DoubleTurnouts
