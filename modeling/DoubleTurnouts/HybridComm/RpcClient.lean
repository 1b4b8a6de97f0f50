/-
  DoubleTurnouts.HybridComm.RpcClient

  The client half of `pzmq`: `call_rpc_action` connects on demand
  (`creat_req`), sends the two frames, receives the reply and hands it to a
  callback.  The file system, the connect and the exchange itself are outside
  the repository and are parameters; a receive that fails leaves the message
  empty.

  Success is signalled by what `zmq_connect` returned: neither the sends nor
  the receive are looked at, and the callback runs in any case.  So a call
  tells the truth exactly when it does not connect, or is answered
  (`truthful_iff`).
-/
import Mathlib.Tactic
import DoubleTurnouts.HybridComm.PzmqData

namespace DoubleTurnouts

open Text

/-! ## Outside -/

/-- One exchange: the return values of the two `zmq_send`s, and the reply `zmq_msg_recv`
    delivered (`none` when it returned `-1`). -/
structure Exchange where
  sentAction : Int
  sentData : Int
  reply : Option Bytes
  deriving DecidableEq, Repr

/-- What a client meets: `access(file, F_OK)`, `zmq_connect`, and the exchange over a
    connected socket. -/
structure ZmqNet where
  access : Bytes → Int
  zmq_connect : Bytes → Int
  exchange : (url action data : Bytes) → Exchange

/-! ## The client -/

/-- A `pzmq` used as a client.  `zmq_socket_` tells whether the pointer is set. -/
structure RpcClient where
  rpc_url_head_ : Bytes
  rpc_server_ : Bytes
  zmq_url_ : Bytes
  zmq_socket_ : Bool
  deriving DecidableEq, Repr

/-- `rpc_url_head_length`. -/
def rpc_url_head_length : Nat := 6

namespace RpcClient

/-- `pzmq(const std::string &server)`: a name that is a URL already gets no head. -/
def pzmq (server : Bytes) : RpcClient where
  rpc_url_head_ := if (find (str "://") server).isSome then [] else str "ipc:///tmp/rpc."
  rpc_server_ := server
  zmq_url_ := []
  zmq_socket_ := false

/-- `creat_req`: a local server is looked for in the file system first. -/
def creat_req (net : ZmqNet) (c : RpcClient) (url : Bytes) : Int :=
  if c.rpc_url_head_ ≠ [] ∧ net.access (url.drop rpc_url_head_length) ≠ 0 then -1
  else net.zmq_connect url

/-- `creat` in `ZMQ_RPC_CALL` mode. -/
def creat (net : ZmqNet) (c : RpcClient) (url : Bytes) : Int × RpcClient :=
  (c.creat_req net url, { c with zmq_url_ := url, zmq_socket_ := true })

/-- `close_zmq`; a client leaves the socket file alone. -/
def close_zmq (c : RpcClient) : RpcClient := { c with zmq_socket_ := false }

/-- How a call ends: the return value, the messages `raw_call` was invoked with, and the
    client. -/
structure Outcome where
  ret : Int
  raw_call : List Bytes
  client : RpcClient
  deriving DecidableEq, Repr

/-- The end of the `try` block over a connected socket.  The return values of the exchange are
    not looked at; `msg_ptr` starts out empty. -/
def requist (net : ZmqNet) (c : RpcClient) (ret : Int) (action data : Bytes) : Outcome :=
  ⟨ret, [(net.exchange c.zmq_url_ action data).reply.getD []], c.close_zmq⟩

/-- `call_rpc_action`.  `ret` is the indeterminate value of the local variable, which is
    returned when the socket was open before the call. -/
def call_rpc_action (net : ZmqNet) (c : RpcClient) (ret : Int) (action data : Bytes) :
    Outcome :=
  -- the connect is skipped, and with it the assignment to ret
  if c.zmq_socket_ then c.requist net ret action data
  else if c.rpc_server_ = [] then ⟨-1, [], c⟩
  else
    let (ret, c) := c.creat net (c.rpc_url_head_ ++ c.rpc_server_)
    -- `throw ret`, caught below as the return value
    if ret ≠ 0 then ⟨ret, [], c.close_zmq⟩ else c.requist net ret action data

end RpcClient

/-! ## What happened -/

namespace ZmqNet

/-- The URL a call to `server` uses. -/
def url (server : Bytes) : Bytes :=
  (RpcClient.pzmq server).rpc_url_head_ ++ (RpcClient.pzmq server).rpc_server_

/-- The call gets as far as the exchange: the server has a name, the socket file of a local one
    exists, and the connect succeeds. -/
def Connects (net : ZmqNet) (server : Bytes) : Prop :=
  server ≠ [] ∧ (RpcClient.pzmq server).creat_req net (url server) = 0

instance (net : ZmqNet) (server : Bytes) : Decidable (net.Connects server) := by
  unfold Connects
  infer_instance

/-- The server's reply to a call, if one was received. -/
def replyTo (net : ZmqNet) (server action data : Bytes) : Option Bytes :=
  if net.Connects server then (net.exchange (url server) action data).reply else none

/-- A call that connects is answered. -/
def AnsweredIfConnected (net : ZmqNet) (server action data : Bytes) : Prop :=
  net.Connects server → (net.exchange (url server) action data).reply.isSome

instance (net : ZmqNet) (server action data : Bytes) :
    Decidable (net.AnsweredIfConnected server action data) := by
  unfold AnsweredIfConnected
  infer_instance

end ZmqNet

namespace RpcClient

/-- The outcome tells what happened: zero and one callback with the reply, or non-zero and no
    callback. -/
def Truthful (reply : Option Bytes) (o : Outcome) : Prop :=
  match reply with
  | some r => o.ret = 0 ∧ o.raw_call = [r]
  | none => o.ret ≠ 0 ∧ o.raw_call = []

/-- A fresh client has no socket, so every call starts by connecting. -/
theorem call_rpc_action_pzmq (net : ZmqNet) (server : Bytes) (ret : Int) (action data : Bytes) :
    (pzmq server).call_rpc_action net ret action data =
      let c := { pzmq server with zmq_url_ := ZmqNet.url server, zmq_socket_ := true }
      if server = [] then ⟨-1, [], pzmq server⟩
      else if (pzmq server).creat_req net (ZmqNet.url server) ≠ 0 then
        ⟨(pzmq server).creat_req net (ZmqNet.url server), [], c.close_zmq⟩
      else c.requist net ((pzmq server).creat_req net (ZmqNet.url server)) action data :=
  rfl

/-- A call without a connection fails and calls nothing back. -/
theorem call_of_not_connects {net : ZmqNet} {server : Bytes} (h : ¬ net.Connects server)
    (ret : Int) (action data : Bytes) :
    ((pzmq server).call_rpc_action net ret action data).ret ≠ 0 ∧
      ((pzmq server).call_rpc_action net ret action data).raw_call = [] := by
  rw [call_rpc_action_pzmq]
  by_cases hname : server = []
  · simp only [if_pos hname]
    exact ⟨by decide, trivial⟩
  · have hret : (pzmq server).creat_req net (ZmqNet.url server) ≠ 0 :=
      fun hzero => h ⟨hname, hzero⟩
    simp only [if_neg hname, if_pos hret]
    exact ⟨hret, trivial⟩

/-- A call over a connection returns zero and calls back with whatever the message holds. -/
theorem call_of_connects {net : ZmqNet} {server : Bytes} (h : net.Connects server) (ret : Int)
    (action data : Bytes) :
    ((pzmq server).call_rpc_action net ret action data).ret = 0 ∧
      ((pzmq server).call_rpc_action net ret action data).raw_call
        = [(net.exchange (ZmqNet.url server) action data).reply.getD []] := by
  obtain ⟨hname, hzero⟩ := h
  rw [call_rpc_action_pzmq]
  simp only [if_neg hname, if_neg (not_not_intro hzero)]
  exact ⟨hzero, rfl⟩

theorem truthful_iff (net : ZmqNet) (server : Bytes) (ret : Int) (action data : Bytes) :
    Truthful (net.replyTo server action data)
        ((pzmq server).call_rpc_action net ret action data) ↔
      net.AnsweredIfConnected server action data := by
  unfold ZmqNet.replyTo ZmqNet.AnsweredIfConnected
  by_cases hconn : net.Connects server
  · obtain ⟨hret, hcall⟩ := call_of_connects hconn ret action data
    rw [if_pos hconn]
    -- with a connection the call says success, so an answer is what is needed
    cases hreply : (net.exchange (ZmqNet.url server) action data).reply with
    | none => simp [Truthful, hret, hconn]
    | some r => simp [Truthful, hret, hcall, hreply]
  · rw [if_neg hconn]
    exact iff_of_true (call_of_not_connects hconn ret action data) fun h => absurd h hconn

/-- The return value alone is non-zero exactly when no connection was made. -/
theorem call_ret_eq_zero_iff (net : ZmqNet) (server : Bytes) (ret : Int) (action data : Bytes) :
    ((pzmq server).call_rpc_action net ret action data).ret = 0 ↔ net.Connects server := by
  constructor
  · intro hzero
    by_contra hconn
    exact (call_of_not_connects hconn ret action data).1 hzero
  · intro hconn
    exact (call_of_connects hconn ret action data).1

end RpcClient
end DoubleTurnouts
