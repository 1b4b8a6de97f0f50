/-
  DoubleTurnouts.Network.TcpServer

  `network::TcpServer` and the life of the connections it accepts, across the
  base loop, the I/O loops and any other thread.  A connection is created by
  `newConnection`, started by `connectEstablished` in its I/O loop, closed by
  `handleClose`, taken out of the server's map by `removeConnectionInLoop` in
  the base loop and finished by `connectDestroyed`, back in its I/O loop.

  Loop 0 is the base loop, the others belong to the thread pool.  What `poll`
  reported to a loop is handled channel by channel before the loop runs
  functors; queued functors are taken in any order, which includes the order
  of the queue.  A user callback is what it does to the connection's context
  and the calls it makes, which are part of the event.

  An assertion that fails is recorded and the run goes on, so that a result
  about runs can say that none fails.
-/
import Mathlib.Tactic
import DoubleTurnouts.Lib.Decimal
import DoubleTurnouts.Network.TcpConnection

namespace DoubleTurnouts

open Decimal

/-! ## Names -/

/-- A socket address.  `ip` is what `inet_ntop` makes of it, at most eight groups of four
    digits. -/
structure InetAddress where
  ipv6 : Bool
  ip : Bytes
  port : UInt16
  ip_length : ip.length ≤ 39

/-- What `snprintf` leaves in a buffer of 64 characters. -/
def snprintf64 (text : Bytes) : Bytes := text.take 63

def InetAddress.toIpPort (addr : InetAddress) : Bytes :=
  let port := to_string addr.port.toNat
  if addr.ipv6 then snprintf64 (str "[" ++ addr.ip ++ str "]:" ++ port)
  else snprintf64 (addr.ip ++ str ":" ++ port)

/-- The name `newConnection` gives to the connection with number `nextConnId_`. -/
def connName (name_ ipPort_ : Bytes) (nextConnId_ : Int) : Bytes :=
  name_ ++ snprintf64 (str "-" ++ ipPort_ ++ str "#" ++ to_string nextConnId_)

/-! ## Channels and connections -/

/-- `Channel::index_`. -/
inductive PollIndex
  | kNew
  | kAdded
  | kDeleted
  deriving DecidableEq, Repr

/-- `Channel::revents_`. -/
structure Revents where
  pollin : Bool
  pollpri : Bool
  pollout : Bool
  pollerr : Bool
  pollhup : Bool
  pollnval : Bool
  pollrdhup : Bool
  deriving DecidableEq, Repr

/-- What a connection has been through: the functions that frame its life and the callbacks
    that were run, `connectionCallback_` with what `connected()` returns. -/
inductive Callback
  | connectEstablished
  | connection (connected : Bool)
  | close
  | connectDestroyed
  deriving DecidableEq, Repr

/-- The functors that are queued for a connection. -/
inductive ConnFunctor
  | connectEstablished
  | removeConnectionInLoop
  | connectDestroyed
  | forceCloseInLoop
  | sendInLoop (message : Bytes)
  | shutdownInLoop
  | writeComplete
  deriving DecidableEq, Repr

/-- A `TcpConnection` with its channel.  `reading` is `channel_->isReading()`, the write side
    is in `sendSide`, `destructed` tells that the destructor has run and closed the fd. -/
structure TcpConn (κ : Type) where
  name_ : Bytes
  loop_ : Nat
  fd : Nat
  sendSide : SendSide
  reading : Bool
  index_ : PollIndex
  addedToLoop_ : Bool
  context_ : Option κ
  callbacks : List Callback
  destructed : Bool

/-- The assertions on the way of a connection. -/
inductive ConnAssert
  | connectEstablished
  | handleClose
  | removeConnectionInLoop
  | updateChannel
  | channelRemove
  | removeChannel
  | destructor
  deriving DecidableEq, Repr

namespace TcpConn

variable {κ : Type}

def state_ (k : TcpConn κ) : StateE := k.sendSide.state_

def connected (k : TcpConn κ) : Bool := k.state_ = .kConnected

/-- `channel_->isNoneEvent()`. -/
def isNoneEvent (k : TcpConn κ) : Bool := !k.reading && !k.sendSide.writing

/-- `state_ == kConnected || state_ == kDisconnecting`. -/
def isOpen (k : TcpConn κ) : Bool := k.state_ = .kConnected || k.state_ = .kDisconnecting

def setState (k : TcpConn κ) (state : StateE) : TcpConn κ :=
  { k with sendSide := { k.sendSide with state_ := state } }

def enableReading (k : TcpConn κ) : TcpConn κ := { k with reading := true }

/-- The channel asks for no event any more. -/
def disableAll (k : TcpConn κ) : TcpConn κ :=
  { k with reading := false, sendSide := { k.sendSide with writing := false } }

/-- One of the functions or callbacks on the way of the connection has run. -/
def ran (k : TcpConn κ) (callback : Callback) : TcpConn κ :=
  { k with callbacks := k.callbacks ++ [callback] }

/-- The channel after `EPOLL_CTL_ADD`. -/
def epollAdd (k : TcpConn κ) : TcpConn κ := { k with index_ := .kAdded, addedToLoop_ := true }

/-- The channel after `EPOLL_CTL_MOD`, or `EPOLL_CTL_DEL` if it asks for nothing. -/
def epollMod (k : TcpConn κ) : TcpConn κ :=
  { k with index_ := if k.isNoneEvent then .kDeleted else .kAdded, addedToLoop_ := true }

/-- The channel after `Channel::remove`. -/
def epollRemoved (k : TcpConn κ) : TcpConn κ := { k with index_ := .kNew, addedToLoop_ := false }

end TcpConn

/-- A public call on a connection, a direct write with the kernel's answer. -/
inductive ConnCall
  | send (message : Bytes) (r : WriteResult)
  | shutdown
  | forceClose
  deriving DecidableEq, Repr

/-! ## The server -/

/-- The server with its loops.  Connections are numbered as they are accepted; `channels_` are
    the pollers' maps and `active` what is left of `activeChannels_`, by loop. -/
structure TcpServer (κ : Type) where
  name_ : Bytes
  ipPort_ : Bytes
  loops_ : Nat
  next_ : Nat
  nextConnId_ : Int
  connectionCallback_ : Nat → Bool → Option κ → Option κ
  messageCallback_ : Nat → Option κ → Option κ
  writeCompleteCallback_ : Bool
  connections_ : Map Bytes Nat
  conns : List (TcpConn κ)
  channels_ : Nat → Nat → Option Nat
  active : Nat → List (Nat × Revents)
  pending : List (Nat × Nat × ConnFunctor)
  failed : List ConnAssert

namespace TcpServer

variable {κ : Type}

/-- A started server whose pool has `loops_` threads. -/
def new (name_ : Bytes) (listenAddr : InetAddress) (loops_ : Nat)
    (connectionCallback_ : Nat → Bool → Option κ → Option κ)
    (messageCallback_ : Nat → Option κ → Option κ) (writeCompleteCallback_ : Bool) :
    TcpServer κ where
  name_ := name_
  ipPort_ := listenAddr.toIpPort
  loops_ := loops_
  next_ := 0
  nextConnId_ := 1
  connectionCallback_ := connectionCallback_
  messageCallback_ := messageCallback_
  writeCompleteCallback_ := writeCompleteCallback_
  connections_ := ∅
  conns := []
  channels_ := fun _ _ => none
  active := fun _ => []
  pending := []
  failed := []

/-- `assert(p)`. -/
def check (s : TcpServer κ) (a : ConnAssert) (p : Prop) [Decidable p] : TcpServer κ :=
  if p then s else { s with failed := s.failed ++ [a] }

def modifyConn (s : TcpServer κ) (c : Nat) (f : TcpConn κ → TcpConn κ) : TcpServer κ :=
  { s with conns := s.conns.modify c f }

def queueInLoop (s : TcpServer κ) (loop c : Nat) (f : ConnFunctor) : TcpServer κ :=
  { s with pending := s.pending ++ [(loop, c, f)] }

/-- `channels_[fd] = channel` or `channels_.erase(fd)` in the poller of a loop. -/
def setChannel (s : TcpServer κ) (loop fd : Nat) (channel : Option Nat) : TcpServer κ :=
  let channels := Function.update (s.channels_ loop) fd channel
  { s with channels_ := Function.update s.channels_ loop channels }

/-- `Channel::update` and `Poller::updateChannel`, for a connection whose event flags have
    just been changed. -/
def updateChannel (s : TcpServer κ) (c : Nat) : TcpServer κ :=
  match s.conns[c]? with
  | none => s
  | some k =>
      match k.index_ with
      | .kNew =>
          -- the fd must be new to the poller's map, or be there with this channel
          let s := s.check .updateChannel (s.channels_ k.loop_ k.fd = none)
          let s := s.setChannel k.loop_ k.fd (some c)
          s.modifyConn c TcpConn.epollAdd
      | .kDeleted =>
          let s := s.check .updateChannel (s.channels_ k.loop_ k.fd = some c)
          s.modifyConn c TcpConn.epollAdd
      | .kAdded =>
          let s := s.check .updateChannel (s.channels_ k.loop_ k.fd = some c)
          s.modifyConn c TcpConn.epollMod

/-- `Channel::remove` and `Poller::removeChannel`. -/
def remove (s : TcpServer κ) (c : Nat) : TcpServer κ :=
  match s.conns[c]? with
  | none => s
  | some k =>
      let s := s.check .channelRemove (k.isNoneEvent = true)
      let s := s.check .removeChannel
        (s.channels_ k.loop_ k.fd = some c ∧ k.isNoneEvent = true ∧
          (k.index_ = .kAdded ∨ k.index_ = .kDeleted))
      let s := s.setChannel k.loop_ k.fd none
      s.modifyConn c TcpConn.epollRemoved

/-! ### The send side -/

/-- Carry out a change of the send side: queue the completion callbacks it asks for, and
    tell the poller if the write interest changed. -/
def onSendSide (s : TcpServer κ) (c : Nat) (f : SendSide → SendSide) : TcpServer κ :=
  match s.conns[c]? with
  | none => s
  | some k =>
      let sendSide := f k.sendSide
      let s := s.modifyConn c fun k => { k with sendSide := sendSide }
      let s := if sendSide.queued = k.sendSide.queued then s
        else s.queueInLoop k.loop_ c .writeComplete
      if sendSide.writing = k.sendSide.writing then s else s.updateChannel c

def sendInLoop (s : TcpServer κ) (c : Nat) (message : Bytes) (r : WriteResult) : TcpServer κ :=
  s.onSendSide c fun side => side.sendInLoop message r

def handleWrite (s : TcpServer κ) (c : Nat) (r : WriteResult) : TcpServer κ :=
  s.onSendSide c fun side => side.handleWrite r

def shutdownInLoop (s : TcpServer κ) (c : Nat) : TcpServer κ :=
  s.onSendSide c SendSide.shutdownInLoop

/-! ### Public calls

`caller` is the loop whose thread makes the call, or `none` for any other thread. -/

def send (s : TcpServer κ) (caller : Option Nat) (c : Nat) (message : Bytes) (r : WriteResult) :
    TcpServer κ :=
  match s.conns[c]? with
  | none => s
  | some k =>
      if k.state_ = .kConnected then
        if caller = some k.loop_ then s.sendInLoop c message r
        -- the bytes are copied, the functor holds the bare this
        else s.queueInLoop k.loop_ c (.sendInLoop message)
      else s

def shutdown (s : TcpServer κ) (caller : Option Nat) (c : Nat) : TcpServer κ :=
  match s.conns[c]? with
  | none => s
  | some k =>
      if k.state_ = .kConnected then
        let s := s.modifyConn c fun k => k.setState .kDisconnecting
        if caller = some k.loop_ then s.shutdownInLoop c
        else s.queueInLoop k.loop_ c .shutdownInLoop
      else s

def forceClose (s : TcpServer κ) (c : Nat) : TcpServer κ :=
  match s.conns[c]? with
  | none => s
  | some k =>
      if k.isOpen then
        let s := s.modifyConn c fun k => k.setState .kDisconnecting
        s.queueInLoop k.loop_ c .forceCloseInLoop
      else s

def call (caller : Option Nat) (s : TcpServer κ) (x : Nat × ConnCall) : TcpServer κ :=
  match x.2 with
  | .send message r => s.send caller x.1 message r
  | .shutdown => s.shutdown caller x.1
  | .forceClose => s.forceClose x.1

/-! ### The life of a connection -/

/-- `connectionCallback_(shared_from_this())`, in the connection's own loop, with the calls
    the callback makes. -/
def connectionCallback (s : TcpServer κ) (c : Nat) (script : List (Nat × ConnCall)) :
    TcpServer κ :=
  match s.conns[c]? with
  | none => s
  | some k =>
      let s := s.modifyConn c fun k =>
        { k.ran (.connection k.connected) with
          context_ := s.connectionCallback_ c k.connected k.context_ }
      script.foldl (call (some k.loop_)) s

def connectEstablished (s : TcpServer κ) (c : Nat) (script : List (Nat × ConnCall)) :
    TcpServer κ :=
  match s.conns[c]? with
  | none => s
  | some k =>
      let s := s.check .connectEstablished (k.state_ = .kConnecting)
      let s := s.modifyConn c fun k =>
        ((k.ran .connectEstablished).setState .kConnected).enableReading
      let s := s.updateChannel c
      s.connectionCallback c script

def removeConnectionInLoop (s : TcpServer κ) (c : Nat) : TcpServer κ :=
  match s.conns[c]? with
  | none => s
  | some k =>
      let s := s.check .removeConnectionInLoop ((s.connections_.lookup k.name_).isSome = true)
      -- erased by name: two connections of one name would share the entry
      let s := { s with connections_ := s.connections_.erase k.name_ }
      s.queueInLoop k.loop_ c .connectDestroyed

/-- `removeConnection`, run in the connection's loop: at once if that is the base loop. -/
def removeConnection (s : TcpServer κ) (c : Nat) : TcpServer κ :=
  match s.conns[c]? with
  | none => s
  | some k =>
      -- runInLoop of the base loop, called from the connection's own loop
      if k.loop_ = 0 then s.removeConnectionInLoop c
      else s.queueInLoop 0 c .removeConnectionInLoop

def handleClose (s : TcpServer κ) (c : Nat) (script : List (Nat × ConnCall)) : TcpServer κ :=
  match s.conns[c]? with
  | none => s
  | some k =>
      let s := s.check .handleClose (k.isOpen = true)
      let s := s.modifyConn c fun k => (k.setState .kDisconnected).disableAll
      let s := s.updateChannel c
      let s := s.connectionCallback c script
      -- closeCallback_ comes last, after the user has been told
      let s := s.modifyConn c fun k => k.ran .close
      s.removeConnection c

def forceCloseInLoop (s : TcpServer κ) (c : Nat) (script : List (Nat × ConnCall)) :
    TcpServer κ :=
  match s.conns[c]? with
  | none => s
  | some k => if k.isOpen then s.handleClose c script else s

def connectDestroyed (s : TcpServer κ) (c : Nat) (script : List (Nat × ConnCall)) :
    TcpServer κ :=
  match s.conns[c]? with
  | none => s
  | some k =>
      let s := s.modifyConn c fun k => k.ran .connectDestroyed
      let s :=
        if k.state_ = .kConnected then
          let s := s.modifyConn c fun k => (k.setState .kDisconnected).disableAll
          let s := s.updateChannel c
          s.connectionCallback c script
        else s
      s.remove c

/-- `handleRead`; an error is only logged. -/
def handleRead (s : TcpServer κ) (c : Nat) (n : ReadResult) (script : List (Nat × ConnCall)) :
    TcpServer κ :=
  match s.conns[c]? with
  | none => s
  | some k =>
      match n with
      | .data received =>
          if 0 < received.length then
            let s := s.modifyConn c fun k =>
              { k with context_ := s.messageCallback_ c k.context_ }
            script.foldl (call (some k.loop_)) s
          else s.handleClose c script
      | .error _ => s

/-- `Channel::handleEvent` of a connection's channel; `handleError` is only logged. -/
def handleEvent (s : TcpServer κ) (c : Nat) (revents_ : Revents) (n : ReadResult)
    (r : WriteResult) (script : List (Nat × ConnCall)) : TcpServer κ :=
  -- the conditions are tested one after the other, so a close may be followed by a read
  let s := if revents_.pollhup && !revents_.pollin then s.handleClose c script else s
  let s := if revents_.pollin || revents_.pollpri || revents_.pollrdhup then
      s.handleRead c n script else s
  if revents_.pollout then s.handleWrite c r else s

/-- `EventLoopThreadPool::getNextLoop`: round-robin over the pool, the base loop without
    one. -/
def getNextLoop (s : TcpServer κ) : Nat × TcpServer κ :=
  if s.loops_ = 0 then (0, s)
  else
    let next_ := s.next_ + 1
    (s.next_ + 1, { s with next_ := if s.loops_ ≤ next_ then 0 else next_ })

/-- The constructor of `TcpConnection`, with the callbacks `newConnection` sets. -/
def newConn (s : TcpServer κ) (loop_ : Nat) (name_ : Bytes) (sockfd : Nat) : TcpConn κ where
  name_ := name_
  loop_ := loop_
  fd := sockfd
  sendSide := { SendSide.established s.writeCompleteCallback_ with state_ := .kConnecting }
  reading := false
  index_ := .kNew
  addedToLoop_ := false
  context_ := none
  callbacks := []
  destructed := false

def newConnection (s : TcpServer κ) (sockfd : Nat) (script : List (Nat × ConnCall)) :
    TcpServer κ :=
  let (ioLoop, s) := s.getNextLoop
  let name := connName s.name_ s.ipPort_ s.nextConnId_
  let c := s.conns.length
  let s := { s with
    nextConnId_ := wrap32 (s.nextConnId_ + 1)
    conns := s.conns ++ [s.newConn ioLoop name sockfd]
    connections_ := s.connections_.insert name c }
  -- runInLoop: at once when there is no pool
  if ioLoop = 0 then s.connectEstablished c script
  else s.queueInLoop ioLoop c .connectEstablished

/-- `~TcpConnection` with its `Socket` and `Channel`. -/
def destruct (s : TcpServer κ) (c : Nat) : TcpServer κ :=
  match s.conns[c]? with
  | none => s
  | some k =>
      let s := s.check .destructor (k.state_ = .kDisconnected ∧ k.addedToLoop_ = false)
      s.modifyConn c fun k => { k with destructed := true }

/-- A loop runs a functor. -/
def runFunctor (s : TcpServer κ) (c : Nat) (r : WriteResult) (script : List (Nat × ConnCall)) :
    ConnFunctor → TcpServer κ
  | .connectEstablished => s.connectEstablished c script
  | .removeConnectionInLoop => s.removeConnectionInLoop c
  | .connectDestroyed => s.connectDestroyed c script
  | .forceCloseInLoop => s.forceCloseInLoop c script
  | .sendInLoop message => s.sendInLoop c message r
  | .shutdownInLoop => s.shutdownInLoop c
  | .writeComplete =>
      match s.conns[c]? with
      | none => s
      | some k => script.foldl (call (some k.loop_)) s

end TcpServer

/-! ## Runs -/

/-- What can happen.  `script` are the calls of the user callback, should one be run; `n` and
    `r` are the kernel's answers, should a read or a write be tried. -/
inductive ServerEvent
  | accept (sockfd : Nat) (script : List (Nat × ConnCall))
  | poll (loop : Nat) (ready : List (Nat × Revents))
  | handleEvent (loop : Nat) (n : ReadResult) (r : WriteResult) (script : List (Nat × ConnCall))
  | run (i : Nat) (r : WriteResult) (script : List (Nat × ConnCall))
  | call (caller : Option Nat) (x : Nat × ConnCall)
  | destruct (c : Nat)
  deriving DecidableEq, Repr

/-- A functor that holds the `shared_ptr` of its connection; the others hold `this`. -/
def ConnFunctor.holdsConn : ConnFunctor → Bool
  | .sendInLoop _ | .shutdownInLoop => false
  | _ => true

namespace TcpServer

variable {κ : Type}

def step (s : TcpServer κ) : ServerEvent → TcpServer κ
  | .accept sockfd script => s.newConnection sockfd script
  | .poll loop ready => { s with active := Function.update s.active loop ready }
  | .handleEvent loop n r script =>
      match s.active loop with
      | [] => s
      | (c, revents_) :: rest =>
          -- the channels that were reported are handled before the loop polls again
          { s with active := Function.update s.active loop rest }.handleEvent c revents_ n r script
  | .run i r script =>
      match s.pending[i]? with
      | none => s
      | some (_, c, f) => { s with pending := s.pending.eraseIdx i }.runFunctor c r script f
  | .call caller x => s.call caller x
  | .destruct c => s.destruct c

/-- What epoll may report for a connection: the events its channel asks for, and `POLLERR`
    and `POLLHUP` always. -/
def Requested (k : TcpConn κ) (revents_ : Revents) : Prop :=
  (revents_.pollin = true → k.reading = true) ∧
    (revents_.pollout = true → k.sendSide.writing = true) ∧
    revents_.pollpri = false ∧ revents_.pollrdhup = false ∧ revents_.pollnval = false

instance (k : TcpConn κ) (revents_ : Revents) : Decidable (Requested k revents_) := by
  unfold Requested
  infer_instance

/-- The channel of `c` is in the epoll set of the loop, where it asks for `revents_`. -/
def Ready (s : TcpServer κ) (loop : Nat) (x : Nat × Revents) : Prop :=
  ∃ k ∈ s.conns[x.1]?, k.loop_ = loop ∧ k.index_ = .kAdded ∧ Requested k x.2

instance (s : TcpServer κ) (loop : Nat) (x : Nat × Revents) : Decidable (s.Ready loop x) :=
  match h : s.conns[x.1]? with
  | none => isFalse fun ⟨k, hk, _⟩ => by simp [h] at hk
  | some k =>
      decidable_of_iff (k.loop_ = loop ∧ k.index_ = .kAdded ∧ Requested k x.2)
        (by simp [Ready, h])

/-- What the kernel, the loops and `shared_ptr` promise: an accepted fd belongs to no live
    socket; a loop polls when it is done with the last poll, and each channel is reported
    once; functors run when the active channels have been handled; a connection is
    destructed once, when neither the server's map nor a functor holds it. -/
def Possible (s : TcpServer κ) : ServerEvent → Prop
  | .accept sockfd _ => ∀ k ∈ s.conns, k.fd = sockfd → k.destructed = true
  | .poll loop ready =>
      s.active loop = [] ∧ (ready.map Prod.fst).Nodup ∧ ∀ x ∈ ready, s.Ready loop x
  | .handleEvent loop _ _ _ => s.active loop ≠ []
  | .run i _ _ => ∃ x ∈ s.pending[i]?, s.active x.1 = []
  | .call _ _ => True
  | .destruct c =>
      (∃ k ∈ s.conns[c]?, k.destructed = false ∧ s.connections_.lookup k.name_ ≠ some c) ∧
        ∀ x ∈ s.pending, x.2.1 = c → x.2.2.holdsConn = false

instance (s : TcpServer κ) (e : ServerEvent) : Decidable (s.Possible e) := by
  cases e <;> unfold Possible <;> infer_instance

end TcpServer
end DoubleTurnouts
