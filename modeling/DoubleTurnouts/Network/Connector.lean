/-
  DoubleTurnouts.Network.Connector

  `network::Connector`: the sockets it creates and the channels it watches them
  with.  A channel is taken out of the poller at once but destroyed by a
  functor, `resetChannel`, because the callback that is through with it may
  have been called by it.  Until that functor has run, `channel_` is occupied.

  Functors are taken in any order, which includes the order of the queue, and
  `start` and `stop` are called at any time, from the loop's own thread also
  between the callbacks of a handler.  An assertion that fails is recorded and
  the run goes on.

  `Phase` says where a connector can be as long as each `startInLoop` finds it
  `Ready`, and `Books` that every socket but the watched one has been disposed
  of once.
-/
import Mathlib.Tactic
import DoubleTurnouts.Lib.Run
import DoubleTurnouts.Network.Poller

namespace DoubleTurnouts

/-- `Connector::States`. -/
inductive ConnectorState
  | kDisconnected
  | kConnecting
  | kConnected
  deriving DecidableEq, Repr

/-- What `connect` may leave in `savedErrno`. -/
inductive ConnectErrno
  | success
  | EINPROGRESS
  | EINTR
  | EISCONN
  | EAGAIN
  | EADDRINUSE
  | EADDRNOTAVAIL
  | ECONNREFUSED
  | ENETUNREACH
  | EACCES
  | EPERM
  | EAFNOSUPPORT
  | EALREADY
  | EBADF
  | EFAULT
  | ENOTSOCK
  | other (errno : Int)
  deriving DecidableEq, Repr

/-- The errors after which `connect` goes on to `connecting`. -/
def ConnectErrno.GoesOn (savedErrno : ConnectErrno) : Prop :=
  savedErrno = .success ∨ savedErrno = .EINPROGRESS ∨ savedErrno = .EINTR ∨ savedErrno = .EISCONN

instance (savedErrno : ConnectErrno) : Decidable savedErrno.GoesOn := by
  unfold ConnectErrno.GoesOn
  infer_instance

inductive ConnectorFunctor
  | startInLoop
  | stopInLoop
  | resetChannel
  deriving DecidableEq, Repr

/-- The callbacks of the channel. -/
inductive ConnectorPart
  | handleWrite
  | handleError
  deriving DecidableEq, Repr

/-- The functions with an assertion. -/
inductive ConnectorAssert
  | startInLoop
  | connecting
  | handleWrite
  deriving DecidableEq, Repr

/-- The callbacks `handleEvent` runs for the channel of a connector, in its order. -/
def Revents.connectorParts (revents_ : Revents) : List ConnectorPart :=
  (if revents_.pollout then [.handleWrite] else []) ++
    if revents_.pollerr || revents_.pollnval then [.handleError] else []

/-- A connector.  Sockets are numbered as they are created, `channel_` has the socket its channel
    watches, `pendingFunctors_` are those of its own, and `parts` is what is left of the handler
    that runs.  The rest is recorded for the statements: the sockets closed and those handed to
    `newConnectionCallback_`, the channels destroyed with whether the poller still had them, the
    most channels there were at one time, the assertions that did not hold, whether a null
    `channel_` was used, and the calls on the channels. -/
structure Connector where
  connect_ : Bool
  state_ : ConnectorState
  channel_ : Option (Nat × PollChannel)
  pendingFunctors_ : List ConnectorFunctor
  parts : List ConnectorPart
  sockets : Nat
  closed : List Nat
  handed : List Nat
  destroyed : List (Nat × Bool)
  channels : Nat
  failed : List ConnectorAssert
  crashed : Bool
  calls : List (Nat × PollCall)
  deriving DecidableEq, Repr

/-- A `start` in the loop's own thread, and each step of the loop, comes with the kernel's answers
    to what it may ask. -/
inductive ConnectorEvent
  | start (inLoop : Bool) (savedErrno : ConnectErrno)
  | stop
  | functor (i : Nat) (savedErrno : ConnectErrno)
  | poll (revents_ : Revents)
  | part (err : Int) (isSelfConnect : Bool)
  deriving DecidableEq, Repr

namespace Connector

/-- The constructor. -/
def new : Connector where
  connect_ := false
  state_ := .kDisconnected
  channel_ := none
  pendingFunctors_ := []
  parts := []
  sockets := 0
  closed := []
  handed := []
  destroyed := []
  channels := 0
  failed := []
  crashed := false
  calls := []

def check (s : Connector) (a : ConnectorAssert) (p : Prop) [Decidable p] : Connector :=
  { s with failed := s.failed ++ if p then [] else [a] }

def queueInLoop (s : Connector) (cb : ConnectorFunctor) : Connector :=
  { s with pendingFunctors_ := s.pendingFunctors_ ++ [cb] }

def close (s : Connector) (sockfd : Nat) : Connector := { s with closed := s.closed ++ [sockfd] }

/-- What it does for `connect_` is a message. -/
def retry (s : Connector) (sockfd : Nat) : Connector :=
  { s.close sockfd with state_ := .kDisconnected }

/-- `channel_.reset(p)`: the new channel exists before the old one is destroyed. -/
def reset (s : Connector) (p : Option (Nat × PollChannel)) : Connector :=
  { s with
    channel_ := p
    channels := max s.channels (s.channel_.toList.length + p.toList.length)
    destroyed := s.destroyed ++ s.channel_.toList.map fun c => (c.1, c.2.addedToLoop_) }

/-- A call through `channel_->`. -/
def onChannel (s : Connector) (op : PollCall) : Connector :=
  match s.channel_ with
  | none => { s with crashed := true }
  | some (sockfd, channel) =>
      { s with channel_ := some (sockfd, channel.call op), calls := s.calls ++ [(sockfd, op)] }

def connecting (s : Connector) (sockfd : Nat) : Connector :=
  let s := { s with state_ := .kConnecting }
  let s := s.check .connecting (s.channel_ = none)
  let s := s.reset (some (sockfd, .new))
  s.onChannel .enableWriting

/-- The socket, or `none` if there is no channel. -/
def removeAndResetChannel (s : Connector) : Option (Nat × Connector) :=
  match s.channel_ with
  | none => none
  | some (sockfd, _) =>
      some (sockfd, ((s.onChannel .disableAll).onChannel .remove).queueInLoop .resetChannel)

def resetChannel (s : Connector) : Connector := s.reset none

def connect (s : Connector) (savedErrno : ConnectErrno) : Connector :=
  let sockfd := s.sockets
  let s := { s with sockets := s.sockets + 1 }
  match savedErrno with
  | .success | .EINPROGRESS | .EINTR | .EISCONN => s.connecting sockfd
  | .EAGAIN | .EADDRINUSE | .EADDRNOTAVAIL | .ECONNREFUSED | .ENETUNREACH => s.retry sockfd
  | .EACCES | .EPERM | .EAFNOSUPPORT | .EALREADY | .EBADF | .EFAULT | .ENOTSOCK => s.close sockfd
  | .other _ => s.close sockfd

def startInLoop (s : Connector) (savedErrno : ConnectErrno) : Connector :=
  let s := s.check .startInLoop (s.state_ = .kDisconnected)
  if s.connect_ then s.connect savedErrno else s

def start (s : Connector) (inLoop : Bool) (savedErrno : ConnectErrno) : Connector :=
  let s := { s with connect_ := true }
  if inLoop then s.startInLoop savedErrno else s.queueInLoop .startInLoop

def stop (s : Connector) : Connector := { s with connect_ := false }.queueInLoop .stopInLoop

def stopInLoop (s : Connector) : Connector :=
  if s.state_ = .kConnecting then
    let s := { s with state_ := .kDisconnected }
    match s.removeAndResetChannel with
    | none => { s with crashed := true }
    | some (sockfd, s) => s.retry sockfd
  else s

def handleWrite (s : Connector) (err : Int) (isSelfConnect : Bool) : Connector :=
  if s.state_ = .kConnecting then
    match s.removeAndResetChannel with
    | none => { s with crashed := true }
    | some (sockfd, s) =>
        if err ≠ 0 then s.retry sockfd
        else if isSelfConnect then s.retry sockfd
        else
          let s := { s with state_ := .kConnected }
          if s.connect_ then { s with handed := s.handed ++ [sockfd] } else s.close sockfd
  else s.check .handleWrite (s.state_ = .kDisconnected)

def handleError (s : Connector) : Connector :=
  if s.state_ = .kConnecting then
    match s.removeAndResetChannel with
    | none => { s with crashed := true }
    | some (sockfd, s) => s.retry sockfd
  else s

def runFunctor (s : Connector) (savedErrno : ConnectErrno) : ConnectorFunctor → Connector
  | .startInLoop => s.startInLoop savedErrno
  | .stopInLoop => s.stopInLoop
  | .resetChannel => s.resetChannel

def runPart (s : Connector) (err : Int) (isSelfConnect : Bool) : ConnectorPart → Connector
  | .handleWrite => s.handleWrite err isSelfConnect
  | .handleError => s.handleError

/-- One step; none is made after a crash.  Functors run, and the loop polls, when no handler is
    running; only a registered channel is reported. -/
def step (s : Connector) (e : ConnectorEvent) : Connector :=
  if s.crashed then s
  else
    match e with
    | .start inLoop savedErrno => s.start inLoop savedErrno
    | .stop => s.stop
    | .functor i savedErrno =>
        match s.parts, s.pendingFunctors_[i]? with
        | [], some f =>
            runFunctor { s with pendingFunctors_ := s.pendingFunctors_.eraseIdx i } savedErrno f
        | _, _ => s
    | .poll revents_ =>
        if s.parts = [] ∧ s.channel_.any (fun c => c.2.index_ = .kAdded) then
          { s with parts := revents_.connectorParts }
        else s
    | .part err isSelfConnect =>
        match s.parts with
        | [] => s
        | p :: rest => runPart { s with parts := rest } err isSelfConnect p

/-- Where `startInLoop` is to be run: in the state it asserts, and with no channel left should it
    get to `connecting`. -/
def Ready (s : Connector) (savedErrno : ConnectErrno) : Prop :=
  s.state_ = .kDisconnected ∧ (s.connect_ = true → savedErrno.GoesOn → s.channel_ = none)

instance (s : Connector) (savedErrno : ConnectErrno) : Decidable (s.Ready savedErrno) := by
  unfold Ready
  infer_instance

/-- A step that runs `startInLoop` runs it where it is to be run. -/
def StartOk (s : Connector) : ConnectorEvent → Prop
  | .start inLoop savedErrno => inLoop = true → { s with connect_ := true }.Ready savedErrno
  | .functor i savedErrno =>
      s.parts = [] → s.pendingFunctors_[i]? = some .startInLoop → s.Ready savedErrno
  | _ => True

instance (s : Connector) (e : ConnectorEvent) : Decidable (s.StartOk e) := by
  cases e <;> unfold StartOk <;> infer_instance

/-! ## The books -/

/-- Every socket but the one that is watched has been closed once or handed over once. -/
def Books (closed handed : List Nat) (sockets : Nat) (watched : Option Nat) : Prop :=
  ∀ k, closed.count k + handed.count k = if k < sockets ∧ watched ≠ some k then 1 else 0

section Books

variable {closed handed : List Nat} {sockets k : Nat}

/-- A socket has just been created. -/
theorem Books.create (h : Books closed handed sockets none) :
    Books closed handed (sockets + 1) (some sockets) := by
  intro j
  rw [h j]
  by_cases hj : j = sockets
  · simp [hj]
  · have hlt : j < sockets + 1 ↔ j < sockets := by omega
    simp [hlt, Ne.symm hj]

theorem Books.close (h : Books closed handed sockets (some k)) (hk : k < sockets) :
    Books (closed ++ [k]) handed sockets none := by
  intro j
  have hj := h j
  rw [List.count_append, List.count_singleton]
  by_cases hkj : k = j
  · subst hkj
    simp only [hk, ne_eq, not_true_eq_false, and_false, if_false] at hj
    simp [hk]
    omega
  · simp only [ne_eq, Option.some.injEq, hkj, not_false_eq_true, and_true] at hj
    simp [hkj, hj]

theorem Books.hand (h : Books closed handed sockets (some k)) (hk : k < sockets) :
    Books closed (handed ++ [k]) sockets none := by
  intro j
  have hj := (h.close hk) j
  rw [List.count_append] at hj ⊢
  omega

/-- What the books say of a socket that is not watched. -/
theorem Books.once {watched : Option Nat} (h : Books closed handed sockets watched)
    (hk : k < sockets) (hwatched : watched ≠ some k) :
    closed.count k = 1 ∧ handed.count k = 0 ∨ closed.count k = 0 ∧ handed.count k = 1 := by
  have hcount := h k
  rw [if_pos ⟨hk, hwatched⟩] at hcount
  omega

theorem Books.watched (h : Books closed handed sockets (some k)) :
    closed.count k = 0 ∧ handed.count k = 0 := by
  have hcount := h k
  rw [if_neg fun hk => hk.2 rfl] at hcount
  omega

end Books

/-! ## What the functions do -/

theorem check_of_true {s : Connector} (a : ConnectorAssert) {p : Prop} [Decidable p] (hp : p) :
    s.check a p = s := by
  simp [check, hp]

/-- A channel in the poller, waiting to become writable. -/
def watched : PollChannel := PollChannel.new.call .enableWriting

theorem watched_removed : (watched.call .disableAll).call .remove = .new := by decide

theorem connecting_eq {s : Connector} (hchannel : s.channel_ = none) (sockfd : Nat) :
    s.connecting sockfd =
      { s with
        state_ := .kConnecting
        channel_ := some (sockfd, watched)
        channels := max s.channels 1
        calls := s.calls ++ [(sockfd, .enableWriting)] } := by
  simp [connecting, check, reset, onChannel, hchannel, watched]

/-- The connector between `removeAndResetChannel` and the functor it queues. -/
def released (s : Connector) (sockfd : Nat) (channel : PollChannel) : Connector :=
  { s with
    channel_ := some (sockfd, (channel.call .disableAll).call .remove)
    pendingFunctors_ := s.pendingFunctors_ ++ [.resetChannel]
    calls := s.calls ++ [(sockfd, .disableAll), (sockfd, .remove)] }

theorem removeAndResetChannel_eq {s : Connector} {sockfd : Nat} {channel : PollChannel}
    (hchannel : s.channel_ = some (sockfd, channel)) :
    s.removeAndResetChannel = some (sockfd, s.released sockfd channel) := by
  simp [removeAndResetChannel, onChannel, queueInLoop, released, hchannel]

/-- The three ways `connect` may end. -/
theorem connect_cases (s : Connector) (savedErrno : ConnectErrno) :
    savedErrno.GoesOn ∧
        s.connect savedErrno = { s with sockets := s.sockets + 1 }.connecting s.sockets ∨
      s.connect savedErrno = { s with sockets := s.sockets + 1 }.retry s.sockets ∨
      s.connect savedErrno = { s with sockets := s.sockets + 1 }.close s.sockets := by
  cases savedErrno <;> simp [connect, ConnectErrno.GoesOn]

/-! ## Where a connector can be -/

/-- Without a channel; with one that is in the poller; or with one that is to be destroyed by the
    `resetChannel` that is queued. -/
inductive Phase (s : Connector) : Prop
  | idle (hchannel : s.channel_ = none) (hstate : s.state_ ≠ .kConnecting)
      (hreset : s.pendingFunctors_.count .resetChannel = 0) (hparts : s.parts = [])
      (hbooks : Books s.closed s.handed s.sockets none)
  | connecting (sockfd : Nat) (hchannel : s.channel_ = some (sockfd, watched))
      (hstate : s.state_ = .kConnecting) (hreset : s.pendingFunctors_.count .resetChannel = 0)
      (hparts : .handleWrite ∉ s.parts.tail) (hsockfd : sockfd < s.sockets)
      (hbooks : Books s.closed s.handed s.sockets (some sockfd))
  | removed (sockfd : Nat) (hchannel : s.channel_ = some (sockfd, .new))
      (hstate : s.state_ ≠ .kConnecting) (hreset : s.pendingFunctors_.count .resetChannel = 1)
      (hparts : .handleWrite ∉ s.parts) (hbooks : Books s.closed s.handed s.sockets none)

structure Inv (s : Connector) : Prop where
  phase : s.Phase
  channels : s.channels ≤ 1
  failed : s.failed = []
  destroyed : ∀ x ∈ s.destroyed, x.2 = false
  crashed : s.crashed = false

theorem new_inv : new.Inv where
  phase := .idle rfl (by decide) rfl rfl (by simp [Books, new])
  channels := by simp [new]
  failed := rfl
  destroyed := by simp [new]
  crashed := rfl

variable {s : Connector}

/-- Where the connector is does not depend on what its user wants. -/
theorem Inv.of_connect_ (h : s.Inv) (connect_ : Bool) : Inv { s with connect_ := connect_ } := by
  refine ⟨?_, h.channels, h.failed, h.destroyed, h.crashed⟩
  cases h.phase with
  | idle hchannel hstate hreset hparts hbooks => exact .idle hchannel hstate hreset hparts hbooks
  | connecting sockfd hchannel hstate hreset hparts hsockfd hbooks =>
      exact .connecting sockfd hchannel hstate hreset hparts hsockfd hbooks
  | removed sockfd hchannel hstate hreset hparts hbooks =>
      exact .removed sockfd hchannel hstate hreset hparts hbooks

/-- The public calls leave the work to the loop. -/
theorem Inv.queueInLoop (h : s.Inv) {cb : ConnectorFunctor} (hcb : cb ≠ .resetChannel) :
    (s.queueInLoop cb).Inv := by
  have hcount : (s.pendingFunctors_ ++ [cb]).count .resetChannel
      = s.pendingFunctors_.count .resetChannel := by
    simp [List.count_append, hcb]
  refine ⟨?_, h.channels, h.failed, h.destroyed, h.crashed⟩
  cases h.phase with
  | idle hchannel hstate hreset hparts hbooks =>
      exact .idle hchannel hstate (hcount.trans hreset) hparts hbooks
  | connecting sockfd hchannel hstate hreset hparts hsockfd hbooks =>
      exact .connecting sockfd hchannel hstate (hcount.trans hreset) hparts hsockfd hbooks
  | removed sockfd hchannel hstate hreset hparts hbooks =>
      exact .removed sockfd hchannel hstate (hcount.trans hreset) hparts hbooks

/-- A socket that is created and closed at once. -/
theorem Inv.create_close (h : s.Inv) (hdisconnected : s.state_ = .kDisconnected) :
    Inv { s with sockets := s.sockets + 1, closed := s.closed ++ [s.sockets] } := by
  have hclose : Books s.closed s.handed s.sockets none →
      Books (s.closed ++ [s.sockets]) s.handed (s.sockets + 1) none :=
    fun hbooks => hbooks.create.close (Nat.lt_succ_self _)
  refine ⟨?_, h.channels, h.failed, h.destroyed, h.crashed⟩
  cases h.phase with
  | idle hchannel hstate hreset hparts hbooks =>
      exact .idle hchannel hstate hreset hparts (hclose hbooks)
  | connecting sockfd hchannel hstate hreset hparts hsockfd hbooks =>
      rw [hdisconnected] at hstate
      cases hstate
  | removed sockfd hchannel hstate hreset hparts hbooks =>
      exact .removed sockfd hchannel hstate hreset hparts (hclose hbooks)

theorem connect_inv (h : s.Inv) (hdisconnected : s.state_ = .kDisconnected)
    {savedErrno : ConnectErrno} (hchannel : savedErrno.GoesOn → s.channel_ = none) :
    (s.connect savedErrno).Inv := by
  rcases s.connect_cases savedErrno with ⟨hgoesOn, heq⟩ | heq | heq
  · have hnone := hchannel hgoesOn
    rw [heq, connecting_eq (s := { s with sockets := s.sockets + 1 }) hnone]
    refine ⟨?_, by simpa using h.channels, h.failed, h.destroyed, h.crashed⟩
    cases h.phase with
    | idle _ hstate hreset hparts hbooks =>
        exact .connecting s.sockets rfl rfl hreset (by simp [hparts]) (Nat.lt_succ_self _)
          hbooks.create
    | connecting sockfd hsome => cases hnone.symm.trans hsome
    | removed sockfd hsome => cases hnone.symm.trans hsome
  · have hretry : { s with sockets := s.sockets + 1 }.retry s.sockets
        = { s with sockets := s.sockets + 1, closed := s.closed ++ [s.sockets] } := by
      simp [retry, Connector.close, ← hdisconnected]
    rw [heq, hretry]
    exact h.create_close hdisconnected
  · rw [heq]
    exact h.create_close hdisconnected

theorem startInLoop_inv (h : s.Inv) {savedErrno : ConnectErrno} (hready : s.Ready savedErrno) :
    (s.startInLoop savedErrno).Inv := by
  have hcheck : s.check .startInLoop (s.state_ = .kDisconnected) = s := check_of_true _ hready.1
  rw [startInLoop, hcheck]
  split
  · rename_i hconnect
    exact connect_inv h hready.1 (hready.2 hconnect)
  · exact h

/-- The three ways out of `kConnecting`: the channel is taken out of the poller and the socket is
    disposed of. -/
theorem released_inv (h : s.Inv) (hconnecting : s.state_ = .kConnecting)
    (hwrite : .handleWrite ∉ s.parts) :
    ∃ sockfd, s.channel_ = some (sockfd, watched) ∧
      (∀ st, st ≠ .kConnecting →
        Inv { s.released sockfd watched with state_ := st, closed := s.closed ++ [sockfd] }) ∧
      Inv { s.released sockfd watched with
        state_ := .kConnected, handed := s.handed ++ [sockfd] } := by
  cases h.phase with
  | idle hchannel hstate hreset hparts hbooks => exact absurd hconnecting hstate
  | removed sockfd hchannel hstate hreset hparts hbooks => exact absurd hconnecting hstate
  | connecting sockfd hchannel hstate hreset hparts hsockfd hbooks =>
      have hcount :
          (s.pendingFunctors_ ++ [ConnectorFunctor.resetChannel]).count .resetChannel = 1 := by
        simp [List.count_append, hreset]
      have hremoved : (s.released sockfd watched).channel_ = some (sockfd, .new) := by
        rw [released, watched_removed]
      refine ⟨sockfd, hchannel, fun st hst => ?_, ?_⟩
      · exact ⟨.removed sockfd hremoved hst hcount hwrite (hbooks.close hsockfd), h.channels,
          h.failed, h.destroyed, h.crashed⟩
      · exact ⟨.removed sockfd hremoved (by simp) hcount hwrite (hbooks.hand hsockfd), h.channels,
          h.failed, h.destroyed, h.crashed⟩

/-! ### One step -/

theorem stopInLoop_inv (h : s.Inv) (hwrite : .handleWrite ∉ s.parts) : s.stopInLoop.Inv := by
  rw [stopInLoop]
  split
  · rename_i hconnecting
    obtain ⟨sockfd, hchannel, hclosed, -⟩ := released_inv h hconnecting hwrite
    dsimp only
    rw [removeAndResetChannel_eq (s := { s with state_ := .kDisconnected }) hchannel]
    exact hclosed .kDisconnected (by simp)
  · exact h

theorem handleError_inv (h : s.Inv) (hwrite : .handleWrite ∉ s.parts) : s.handleError.Inv := by
  rw [handleError]
  split
  · rename_i hconnecting
    obtain ⟨sockfd, hchannel, hclosed, -⟩ := released_inv h hconnecting hwrite
    rw [removeAndResetChannel_eq hchannel]
    exact hclosed .kDisconnected (by simp)
  · exact h

theorem handleWrite_inv (h : s.Inv) (hconnecting : s.state_ = .kConnecting)
    (hwrite : .handleWrite ∉ s.parts) (err : Int) (isSelfConnect : Bool) :
    (s.handleWrite err isSelfConnect).Inv := by
  obtain ⟨sockfd, hchannel, hclosed, hhanded⟩ := released_inv h hconnecting hwrite
  rw [handleWrite, if_pos hconnecting, removeAndResetChannel_eq hchannel]
  dsimp only
  split
  · exact hclosed .kDisconnected (by simp)
  · split
    · exact hclosed .kDisconnected (by simp)
    · split
      · exact hhanded
      · exact hclosed .kConnected (by simp)

/-- The functor that runs leaves the queue. -/
theorem count_eraseIdx {fs : List ConnectorFunctor} {i : Nat} {f : ConnectorFunctor}
    (hf : fs[i]? = some f) :
    (fs.eraseIdx i).count .resetChannel + (if f = .resetChannel then 1 else 0)
      = fs.count .resetChannel := by
  obtain ⟨hi, rfl⟩ := List.getElem?_eq_some_iff.mp hf
  have hperm := (List.getElem_cons_eraseIdx_perm hi).count_eq ConnectorFunctor.resetChannel
  rw [← hperm, List.count_cons]
  simp [beq_iff_eq]

theorem functor_inv (h : s.Inv) {i : Nat} {f : ConnectorFunctor}
    (hf : s.pendingFunctors_[i]? = some f) (hparts : s.parts = []) {savedErrno : ConnectErrno}
    (hready : f = .startInLoop → s.Ready savedErrno) :
    (runFunctor { s with pendingFunctors_ := s.pendingFunctors_.eraseIdx i } savedErrno f).Inv := by
  have hcount := count_eraseIdx hf
  by_cases hreset : f = .resetChannel
  · -- only a channel that has been removed has its functor in the queue
    subst hreset
    rw [if_pos rfl] at hcount
    cases h.phase with
    | idle hchannel hstate hzero _ hbooks => omega
    | connecting sockfd hchannel hstate hzero _ hsockfd hbooks => omega
    | removed sockfd hchannel hstate hone hwrite hbooks =>
        have hzero : (s.pendingFunctors_.eraseIdx i).count .resetChannel = 0 := by omega
        refine ⟨.idle rfl hstate hzero hparts hbooks, ?_, h.failed, ?_, h.crashed⟩
        · simpa [runFunctor, resetChannel, reset, hchannel] using h.channels
        · intro x hx
          simp only [runFunctor, resetChannel, reset, hchannel, List.mem_append] at hx
          rcases hx with hx | hx
          · exact h.destroyed x hx
          · rw [List.mem_singleton.mp hx]
            rfl
  · rw [if_neg hreset, Nat.add_zero] at hcount
    have hrest : Inv { s with pendingFunctors_ := s.pendingFunctors_.eraseIdx i } := by
      refine ⟨?_, h.channels, h.failed, h.destroyed, h.crashed⟩
      cases h.phase with
      | idle hchannel hstate hzero hparts hbooks =>
          exact .idle hchannel hstate (hcount.trans hzero) hparts hbooks
      | connecting sockfd hchannel hstate hzero hwrite hsockfd hbooks =>
          exact .connecting sockfd hchannel hstate (hcount.trans hzero) hwrite hsockfd hbooks
      | removed sockfd hchannel hstate hone hwrite hbooks =>
          exact .removed sockfd hchannel hstate (hcount.trans hone) hwrite hbooks
    cases f with
    | startInLoop => exact startInLoop_inv hrest (hready rfl)
    | stopInLoop => exact stopInLoop_inv hrest (by simp [hparts])
    | resetChannel => exact absurd rfl hreset

/-- A channel that is reported is in the poller, so the connector is in `kConnecting`. -/
theorem poll_inv (h : s.Inv) (hadded : s.channel_.any (fun c => c.2.index_ = .kAdded) = true)
    (revents_ : Revents) : Inv { s with parts := revents_.connectorParts } := by
  refine ⟨?_, h.channels, h.failed, h.destroyed, h.crashed⟩
  cases h.phase with
  | idle hchannel hstate hreset hparts hbooks => simp [hchannel] at hadded
  | removed sockfd hchannel hstate hreset hparts hbooks =>
      simp [hchannel, PollChannel.new] at hadded
  | connecting sockfd hchannel hstate hreset hparts hsockfd hbooks =>
      refine .connecting sockfd hchannel hstate hreset ?_ hsockfd hbooks
      cases hout : revents_.pollout <;> cases herr : revents_.pollerr || revents_.pollnval <;>
        simp [Revents.connectorParts, hout, herr]

/-- A callback begins: the rest of the handler has no `handleWrite`, and `handleWrite` finds the
    connector in `kConnecting`. -/
theorem part_inv (h : s.Inv) {p : ConnectorPart} {rest : List ConnectorPart}
    (hparts : s.parts = p :: rest) (err : Int) (isSelfConnect : Bool) :
    (runPart { s with parts := rest } err isSelfConnect p).Inv := by
  obtain ⟨hrest, hwrite, hconnecting⟩ :
      Inv { s with parts := rest } ∧ .handleWrite ∉ rest ∧
        (p = .handleWrite → s.state_ = .kConnecting) := by
    cases h.phase with
    | idle _ _ _ hempty => cases hempty.symm.trans hparts
    | connecting sockfd hchannel hstate hreset hwrite hsockfd hbooks =>
        rw [hparts, List.tail_cons] at hwrite
        have htail : .handleWrite ∉ rest.tail := fun hmem => hwrite (List.mem_of_mem_tail hmem)
        exact ⟨⟨.connecting sockfd hchannel hstate hreset htail hsockfd hbooks, h.channels,
          h.failed, h.destroyed, h.crashed⟩, hwrite, fun _ => hstate⟩
    | removed sockfd hchannel hstate hreset hwrite hbooks =>
        rw [hparts, List.mem_cons, not_or] at hwrite
        exact ⟨⟨.removed sockfd hchannel hstate hreset hwrite.2 hbooks, h.channels, h.failed,
          h.destroyed, h.crashed⟩, hwrite.2, fun hp => absurd hp.symm hwrite.1⟩
  cases p with
  | handleWrite => exact handleWrite_inv hrest (hconnecting rfl) hwrite err isSelfConnect
  | handleError => exact handleError_inv hrest hwrite

theorem step_inv (h : s.Inv) {e : ConnectorEvent} (hok : s.StartOk e) : (s.step e).Inv := by
  unfold step
  rw [if_neg (by simp [h.crashed])]
  cases e with
  | start inLoop savedErrno =>
      cases inLoop with
      | false => exact (h.of_connect_ true).queueInLoop (by simp)
      | true => exact startInLoop_inv (h.of_connect_ true) (hok rfl)
  | stop => exact (h.of_connect_ false).queueInLoop (by simp)
  | functor i savedErrno =>
      dsimp only
      split
      · rename_i hparts hf
        exact functor_inv h hf hparts fun hstart => hok hparts (hstart ▸ hf)
      · exact h
  | poll revents_ =>
      dsimp only
      split
      · rename_i hpoll
        exact poll_inv h hpoll.2 revents_
      · exact h
  | part err isSelfConnect =>
      dsimp only
      split
      · exact h
      · rename_i hparts
        exact part_inv h hparts err isSelfConnect

theorem exec_inv {es : List ConnectorEvent} (hes : Run.AllSteps step StartOk new es) :
    (Run.exec step new es).Inv :=
  Run.exec_invariant (I := Inv) (fun _ _ hs hok => step_inv hs hok) new_inv hes

end Connector

/-- The sockets of a connector are accounted for.  In every run that starts an attempt only in
    `kDisconnected`, and gets to `connecting` only after the `resetChannel` of the attempt before,
    whatever the results of `connect`, the events and the order of the functors: every socket has
    been either closed once or handed over once, but for the one whose channel is in the poller,
    which `stopInLoop` closes; there never was more than one channel, no assertion has failed, and
    no channel was destroyed while the poller had it. -/
theorem connector_sockets (es : List ConnectorEvent)
    (hes : Run.AllSteps Connector.step Connector.StartOk .new es) :
    let s := Run.exec Connector.step .new es
    (∀ sockfd < s.sockets,
        s.closed.count sockfd = 1 ∧ s.handed.count sockfd = 0 ∨
          s.closed.count sockfd = 0 ∧ s.handed.count sockfd = 1 ∨
          s.closed.count sockfd = 0 ∧ s.handed.count sockfd = 0 ∧ s.state_ = .kConnecting ∧
            (∃ channel, s.channel_ = some (sockfd, channel) ∧ channel.index_ = .kAdded) ∧
            s.stopInLoop.closed = s.closed ++ [sockfd]) ∧
      s.channels ≤ 1 ∧ s.failed = [] ∧ (∀ x ∈ s.destroyed, x.2 = false) ∧ s.crashed = false := by
  intro s
  have h : s.Inv := Connector.exec_inv hes
  refine ⟨?_, h.channels, h.failed, h.destroyed, h.crashed⟩
  intro sockfd hsockfd
  cases h.phase with
  | idle hchannel hstate hreset hparts hbooks =>
      exact (hbooks.once hsockfd (by simp)).imp_right Or.inl
  | removed k hchannel hstate hreset hparts hbooks =>
      exact (hbooks.once hsockfd (by simp)).imp_right Or.inl
  | connecting k hchannel hstate hreset hparts hk hbooks =>
      by_cases hkey : k = sockfd
      · subst hkey
        obtain ⟨hclosed, hhanded⟩ := hbooks.watched
        refine Or.inr (Or.inr ⟨hclosed, hhanded, hstate, ⟨_, hchannel, by decide⟩, ?_⟩)
        rw [Connector.stopInLoop, if_pos hstate]
        dsimp only
        rw [Connector.removeAndResetChannel_eq (s := { s with state_ := .kDisconnected }) hchannel]
        rfl
      · exact (hbooks.once hsockfd (by simpa using hkey)).imp_right Or.inl

/-- The socket became writable. -/
def writable : Revents := ⟨false, false, true, false, false, false, false⟩

/-- An attempt that is stopped, one that is refused, and one that succeeds although the handler
    also reports an error. -/
theorem connector_sockets_restarted :
    let es : List ConnectorEvent :=
      [.start true .EINPROGRESS, .stop, .functor 0 .success, .functor 0 .success,
       .start false .success, .functor 0 .ECONNREFUSED, .stop, .functor 0 .success,
       .start true .EINPROGRESS, .poll { writable with pollerr := true }, .part 0 false,
       .part 0 false, .functor 0 .success]
    (Run.exec Connector.step .new es).closed = [0, 1] ∧
      (Run.exec Connector.step .new es).handed = [2] ∧
      (Run.exec Connector.step .new es).failed = [] := by
  intro es
  refine ⟨by decide +kernel, by decide +kernel, ?_⟩
  exact (connector_sockets es (by decide +kernel)).2.2.1

/-- `start` is called after `stopInLoop` and before the `resetChannel` it has queued: the second
    channel is destroyed while the poller has it, and its socket is neither closed nor handed over.
    And `start` after a `stop` that found the connector in `kConnected`. -/
theorem start_before_reset :
    (let es : List ConnectorEvent :=
      [.start true .EINPROGRESS, .stop, .functor 0 .success, .start true .EINPROGRESS,
       .functor 0 .success]
      let s := Run.exec Connector.step .new es
      s.sockets = 2 ∧ s.closed = [0] ∧ s.handed = [] ∧ s.channel_ = none ∧ s.channels = 2 ∧
        s.failed = [.connecting] ∧ s.destroyed = [(0, false), (1, true)]) ∧
      let es : List ConnectorEvent :=
        [.start true .success, .poll writable, .part 0 false, .functor 0 .success, .stop,
         .functor 0 .success, .start true .EINPROGRESS]
      (Run.exec Connector.step .new es).failed = [.startInLoop] := by
  decide +kernel

end DoubleTurnouts
