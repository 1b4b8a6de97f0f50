/-
  DoubleTurnouts.Network.TcpClient

  `network::TcpClient` over its `Connector`, its connections and the loop that
  runs all of them.  The connector hands a socket to `newConnection`; when the
  connection closes, `removeConnection` lets go of it and, with `retry_`, sends
  the connector off again.

  `restart` needs the channel of the last attempt to be gone, and that channel
  is destroyed by a functor.  So the functors are in one queue here, which the
  loop takes in order and in batches, between the channels of one poll and the
  next.  Calls of the user may come at any point, also between the callback
  that tells of a close and the removal that follows it.

  `alive` tells that the destructor has not run.  What still uses the client,
  the connector or a finished connection then is recorded in `dangling`; an
  assertion that fails is recorded in `failed`, those of the connector in its
  own.
-/
import Mathlib.Tactic
import DoubleTurnouts.Lib.Run
import DoubleTurnouts.Network.Connector
import DoubleTurnouts.Network.TcpConnection

namespace DoubleTurnouts

/-- A fresh attempt: `startInLoop` runs at once, whatever is left of the last one. -/
def Connector.restart (s : Connector) (savedErrno : ConnectErrno) : Connector :=
  startInLoop { s with state_ := .kDisconnected, connect_ := true } savedErrno

/-- What is queued in the loop. -/
inductive ClientFunctor
  | connector (f : ConnectorFunctor)
  | setCloseCallback (c : Nat)
  | shutdownInLoop (c : Nat)
  | forceCloseInLoop (c : Nat)
  | connectDestroyed (c : Nat)
  deriving DecidableEq, Repr

/-- A channel that `poll` reports: the connector's, or that of a connection. -/
inductive ClientChannel
  | connector (revents_ : Revents)
  | connection (c : Nat)
  deriving DecidableEq, Repr

/-- The connection whose channel it is, `none` for the connector's. -/
def ClientChannel.owner : ClientChannel → Option Nat
  | .connector _ => none
  | .connection c => some c

/-- The connection a functor is for. -/
def ClientFunctor.conn? : ClientFunctor → Option Nat
  | .connector _ => none
  | .setCloseCallback c | .shutdownInLoop c | .forceCloseInLoop c | .connectDestroyed c => some c

def ClientFunctor.connector? : ClientFunctor → Option ConnectorFunctor
  | .connector f => some f
  | _ => none

/-- `TcpConnection::closeCallback_`: the client's `removeConnection`, or, after the client's
    destructor, `detail::removeConnection`. -/
inductive CloseCallback
  | client
  | detail
  deriving DecidableEq, Repr

/-- A connection of a client; `destroyed` counts the runs of `connectDestroyed`. -/
structure ClientConn where
  sockfd : Nat
  state_ : StateE
  closeCallback_ : CloseCallback
  destroyed : Nat
  deriving DecidableEq, Repr

inductive ClientAssert
  | handleClose
  | removeConnection
  | channelRemove
  | connectorDestroyed
  deriving DecidableEq, Repr

/-- A use of what the destructor has destroyed, or of a connection after its `connectDestroyed`
    through a functor that does not hold it. -/
inductive Dangling
  | connector
  | client
  | connection (c : Nat)
  deriving DecidableEq, Repr

/-- A client with its loop.  Connections are numbered as they are made.  `active` is what is left of
    the channels the last poll reported, `doing` tells that the loop is in `doPendingFunctors`, with
    `left` functors of the batch to go, and `closing` is the connection whose `handleClose` is
    between its two callbacks. -/
structure TcpClient where
  connector_ : Connector
  retry_ : Bool
  connect_ : Bool
  connection_ : Option Nat
  conns : List ClientConn
  pendingFunctors_ : List ClientFunctor
  active : List ClientChannel
  doing : Bool
  left : Nat
  closing : Option Nat
  alive : Bool
  failed : List ClientAssert
  dangling : List Dangling
  deriving DecidableEq, Repr

/-- What the loop may come to know in one step: the channels that are ready, should it poll; the
    result of `connect`; the socket's error and whether it is connected to itself; and whether the
    callbacks of a connection's channel come to `handleClose`. -/
structure ClientAnswers where
  ready : List ClientChannel
  savedErrno : ConnectErrno
  err : Int
  isSelfConnect : Bool
  closes : Bool
  deriving DecidableEq, Repr

/-- The user's calls, with whether they are made in the loop's thread, and the steps of the loop. -/
inductive ClientEvent
  | connect (inLoop : Bool) (savedErrno : ConnectErrno)
  | disconnect (inLoop : Bool)
  | stop
  | enableRetry
  | shutdown (inLoop : Bool) (c : Nat)
  | forceClose (c : Nat)
  | destroy (inLoop unique : Bool)
  | loop (answers : ClientAnswers)
  deriving DecidableEq, Repr

namespace ClientConn

/-- `state_ == kConnected || state_ == kDisconnecting`. -/
def isOpen (k : ClientConn) : Bool := k.state_ = .kConnected || k.state_ = .kDisconnecting

def setState (k : ClientConn) (state : StateE) : ClientConn := { k with state_ := state }

end ClientConn

namespace TcpClient

/-- The constructor. -/
def new : TcpClient where
  connector_ := .new
  retry_ := false
  connect_ := true
  connection_ := none
  conns := []
  pendingFunctors_ := []
  active := []
  doing := true
  left := 0
  closing := none
  alive := true
  failed := []
  dangling := []

/-- `assert(p)`. -/
def check (s : TcpClient) (a : ClientAssert) (p : Prop) [Decidable p] : TcpClient :=
  { s with failed := s.failed ++ if p then [] else [a] }

def queueInLoop (s : TcpClient) (cb : ClientFunctor) : TcpClient :=
  { s with pendingFunctors_ := s.pendingFunctors_ ++ [cb] }

def modifyConn (s : TcpClient) (c : Nat) (f : ClientConn → ClientConn) : TcpClient :=
  { s with conns := s.conns.modify c f }

/-- The connector has become `connector_`: what it queued goes to the end of the loop's queue. -/
def withConnector (s : TcpClient) (kept : Nat) (connector_ : Connector) : TcpClient :=
  { s with
    connector_ := connector_
    pendingFunctors_ :=
      s.pendingFunctors_ ++ (connector_.pendingFunctors_.drop kept).map .connector }

/-- A step of the connector other than one of its functors. -/
def connectorStep (s : TcpClient) (e : ConnectorEvent) : TcpClient :=
  s.withConnector s.connector_.pendingFunctors_.length (s.connector_.step e)

/-! ## Connections -/

/-- `TcpConnection::shutdown`. -/
def shutdown (s : TcpClient) (inLoop : Bool) (c : Nat) : TcpClient :=
  match s.conns[c]? with
  | none => s
  | some k =>
      if k.state_ = .kConnected then
        let s := s.modifyConn c fun k => k.setState .kDisconnecting
        -- `shutdownInLoop` touches nothing but the socket; its functor holds the bare this
        if inLoop then s else s.queueInLoop (.shutdownInLoop c)
      else s

/-- `TcpConnection::forceClose`. -/
def forceClose (s : TcpClient) (c : Nat) : TcpClient :=
  match s.conns[c]? with
  | none => s
  | some k =>
      if k.isOpen then
        (s.modifyConn c fun k => k.setState .kDisconnecting).queueInLoop (.forceCloseInLoop c)
      else s

/-- `TcpConnection::handleClose` as far as `connectionCallback_`. -/
def handleClose (s : TcpClient) (c : Nat) : TcpClient :=
  match s.conns[c]? with
  | none => s
  | some k =>
      let s := s.check .handleClose (k.isOpen = true)
      { s.modifyConn c fun k => k.setState .kDisconnected with closing := some c }

/-- `TcpConnection::forceCloseInLoop`. -/
def forceCloseInLoop (s : TcpClient) (c : Nat) : TcpClient :=
  match s.conns[c]? with
  | none => s
  | some k => if k.isOpen then s.handleClose c else s

/-- `TcpConnection::connectDestroyed`; a channel asks for events as long as nothing has set the
    state to `kDisconnected`. -/
def connectDestroyed (s : TcpClient) (c : Nat) : TcpClient :=
  match s.conns[c]? with
  | none => s
  | some k =>
      let state := if k.state_ = .kConnected then .kDisconnected else k.state_
      let s := s.check .channelRemove (state = .kDisconnected)
      s.modifyConn c fun k => { k with state_ := state, destroyed := k.destroyed + 1 }

/-- `TcpConnection::setCloseCallback` with `detail::removeConnection`. -/
def setCloseCallback (s : TcpClient) (c : Nat) : TcpClient :=
  s.modifyConn c fun k => { k with closeCallback_ := .detail }

/-! ## The client -/

def connect (s : TcpClient) (inLoop : Bool) (savedErrno : ConnectErrno) : TcpClient :=
  { s with connect_ := true }.connectorStep (.start inLoop savedErrno)

def disconnect (s : TcpClient) (inLoop : Bool) : TcpClient :=
  let s := { s with connect_ := false }
  match s.connection_ with
  | none => s
  | some c => s.shutdown inLoop c

def stop (s : TcpClient) : TcpClient := { s with connect_ := false }.connectorStep .stop

def enableRetry (s : TcpClient) : TcpClient := { s with retry_ := true }

/-- `newConnection`, with `connectEstablished` as far as `connectionCallback_`. -/
def newConnection (s : TcpClient) (sockfd : Nat) : TcpClient :=
  let c := s.conns.length
  { s with
    conns := s.conns ++ [⟨sockfd, .kConnected, .client, 0⟩]
    connection_ := some c }

def removeConnection (s : TcpClient) (c : Nat) (savedErrno : ConnectErrno) : TcpClient :=
  let s := s.check .removeConnection (s.connection_ = some c)
  let s := { s with connection_ := none }
  let s := s.queueInLoop (.connectDestroyed c)
  if s.retry_ && s.connect_ then
    s.withConnector s.connector_.pendingFunctors_.length (s.connector_.restart savedErrno)
  else s

/-- `~TcpClient`, and the `~Connector` that follows it: nobody else holds the connector.  `unique`
    is `connection_.unique()`. -/
def destroy (s : TcpClient) (inLoop unique : Bool) : TcpClient :=
  let s :=
    match s.connection_ with
    | some c =>
        let s := if inLoop then s.setCloseCallback c else s.queueInLoop (.setCloseCallback c)
        if unique then s.forceClose c else s
    | none => s.connectorStep .stop
  let s := s.check .connectorDestroyed (s.connector_.channel_ = none)
  { s with connection_ := none, alive := false }

/-! ## The loop -/

/-- `closeCallback_(guardThis)`, the end of `handleClose`. -/
def closeCallback (s : TcpClient) (c : Nat) (savedErrno : ConnectErrno) : TcpClient :=
  match s.conns[c]? with
  | none => s
  | some k =>
      match k.closeCallback_ with
      | .detail => s.queueInLoop (.connectDestroyed c)
      | .client =>
          if s.alive then s.removeConnection c savedErrno
          else { s with dangling := s.dangling ++ [.client] }

/-- What is left of the connector's handler goes on; at its end the socket may be handed over. -/
def connectorPart (s : TcpClient) (answers : ClientAnswers) : TcpClient :=
  if s.alive then
    let s' := s.connectorStep (.part answers.err answers.isSelfConnect)
    (s'.connector_.handed.drop s.connector_.handed.length).foldl newConnection s'
  else
    { s with
      connector_ := { s.connector_ with parts := [] }
      dangling := s.dangling ++ [.connector] }

/-- `Channel::handleEvent` of a channel that was reported. -/
def handleEvent (s : TcpClient) (answers : ClientAnswers) : ClientChannel → TcpClient
  | .connector revents_ =>
      if s.alive then s.connectorStep (.poll revents_)
      else { s with dangling := s.dangling ++ [.connector] }
  | .connection c => if answers.closes then s.handleClose c else s

/-- The loop runs a functor, which it has taken off the queue. -/
def runFunctor (s : TcpClient) (savedErrno : ConnectErrno) : ClientFunctor → TcpClient
  | .connector _ =>
      if s.alive then
        s.withConnector (s.connector_.pendingFunctors_.length - 1)
          (s.connector_.step (.functor 0 savedErrno))
      else { s with dangling := s.dangling ++ [.connector] }
  | .setCloseCallback c => s.setCloseCallback c
  | .shutdownInLoop c =>
      match s.conns[c]? with
      | none => s
      | some k =>
          if k.destroyed = 0 then s else { s with dangling := s.dangling ++ [.connection c] }
  | .forceCloseInLoop c => s.forceCloseInLoop c
  | .connectDestroyed c => s.connectDestroyed c

/-- The next step of the loop: the end of what it is in, the next channel that was reported, the
    next functor of the batch, or the next of its two stations. -/
def loop (s : TcpClient) (answers : ClientAnswers) : TcpClient :=
  match s.closing with
  | some c => { s with closing := none }.closeCallback c answers.savedErrno
  | none =>
      if s.connector_.parts ≠ [] then s.connectorPart answers
      else
        match s.active with
        | channel :: rest => { s with active := rest }.handleEvent answers channel
        | [] =>
            if s.doing then
              match s.left, s.pendingFunctors_ with
              | left + 1, cb :: rest =>
                  { s with pendingFunctors_ := rest, left := left }.runFunctor answers.savedErrno cb
              | _, _ => { s with doing := false, left := 0, active := answers.ready }
            else { s with doing := true, left := s.pendingFunctors_.length }

def step (s : TcpClient) : ClientEvent → TcpClient
  | .connect inLoop savedErrno => s.connect inLoop savedErrno
  | .disconnect inLoop => s.disconnect inLoop
  | .stop => s.stop
  | .enableRetry => s.enableRetry
  | .shutdown inLoop c => s.shutdown inLoop c
  | .forceClose c => s.forceClose c
  | .destroy inLoop unique => s.destroy inLoop unique
  | .loop answers => s.loop answers

/-! ## What the kernel and the user owe -/

/-- The loop is between two batches and polls next. -/
def Polls (s : TcpClient) : Prop :=
  s.closing = none ∧ s.connector_.parts = [] ∧ s.active = [] ∧ s.doing = true ∧
    (s.left = 0 ∨ s.pendingFunctors_ = [])

instance (s : TcpClient) : Decidable s.Polls := inferInstanceAs (Decidable (_ ∧ _))

/-- The functor that the loop runs next. -/
def nextFunctor (s : TcpClient) : Option ClientFunctor :=
  if s.closing = none ∧ s.connector_.parts = [] ∧ s.active = [] ∧ s.doing = true ∧ s.left ≠ 0 then
    s.pendingFunctors_.head?
  else none

/-- The channel is in the poller. -/
def Registered (s : TcpClient) : ClientChannel → Prop
  | .connector _ => s.connector_.channel_.any (fun c => c.2.index_ = .kAdded) = true
  | .connection c => s.conns[c]?.any ClientConn.isOpen = true

instance (s : TcpClient) (channel : ClientChannel) : Decidable (s.Registered channel) := by
  cases channel <;> unfold Registered <;> infer_instance

/-- `poll` reports channels that are in the poller, each once; and nobody calls a client that is
    destroyed. -/
def Possible (s : TcpClient) : ClientEvent → Prop
  | .loop answers =>
      s.Polls → (answers.ready.map ClientChannel.owner).Nodup ∧ ∀ x ∈ answers.ready, s.Registered x
  | .shutdown _ _ | .forceClose _ => True
  | .connect _ _ | .disconnect _ | .stop | .enableRetry | .destroy _ _ => s.alive = true

instance (s : TcpClient) (e : ClientEvent) : Decidable (s.Possible e) := by
  cases e <;> unfold Possible <;> infer_instance

/-- A `startInLoop` that a call of `connect` has brought about finds the connector where it is to be
    run.  Nothing is asked of those of `restart`. -/
def StartOk (s : TcpClient) : ClientEvent → Prop
  | .connect inLoop savedErrno => s.connector_.StartOk (.start inLoop savedErrno)
  | .loop answers =>
      s.nextFunctor = some (.connector .startInLoop) → s.connector_.Ready answers.savedErrno
  | _ => True

instance (s : TcpClient) (e : ClientEvent) : Decidable (s.StartOk e) := by
  cases e <;> unfold StartOk <;> infer_instance

end TcpClient
end DoubleTurnouts
