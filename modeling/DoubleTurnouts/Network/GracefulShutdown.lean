/-
  DoubleTurnouts.Network.GracefulShutdown

  `TcpConnection::send` and `TcpConnection::shutdown` as one thread calls
  them, the loop thread or another one.  On the loop thread the work is done
  at once; from another thread it is queued, but `shutdown` sets
  `kDisconnecting` at the call, before the functors in front of it have run.

  A writable event that comes in between sees `kDisconnecting` and, when it
  empties the buffer, closes the write half: ahead of the messages that are
  still queued, and ahead of the queued `shutdownInLoop`, which closes it a
  second time.  `Quiet` excludes just these events.  `Inv` is what the other
  steps keep, `Broken` what such an event leaves behind.
-/
import Mathlib.Tactic
import DoubleTurnouts.Network.TcpConnection

namespace DoubleTurnouts

/-- The functors the two calls hand to `runInLoop`. -/
inductive SendFunctor
  | sendInLoop (message : Bytes)
  | shutdownInLoop
  deriving DecidableEq, Repr

/-- One call of `socket_->shutdownWrite()`: the bytes the socket had taken by then, and the
    bytes that had been passed to `send`. -/
structure ShutdownWrite where
  accepted : Bytes
  passed : Bytes
  deriving DecidableEq, Repr

/-- A connection with the functors on their way to it.  `functors` is what is left of the batch
    `doPendingFunctors` has swapped out; `passed` are the bytes passed to `send` while the
    connection took them. -/
structure Flushing where
  side : SendSide
  pendingFunctors_ : List SendFunctor
  functors : List SendFunctor
  passed : Bytes
  shutdownWrites : List ShutdownWrite
  deriving DecidableEq, Repr

/-- The calls of the thread, and the steps of the loop: a writable event, the swap of
    `doPendingFunctors` and one functor of the batch.  A write comes with the kernel's answer,
    which a `send` from another thread does not use. -/
inductive FlushEvent
  | send (message : Bytes) (r : WriteResult)
  | shutdown
  | handleWrite (r : WriteResult)
  | swap
  | functor (r : WriteResult)
  deriving DecidableEq, Repr

/-- No write of the event fails with `EPIPE` or `ECONNRESET`. -/
def FlushEvent.NoReset : FlushEvent → Prop
  | .send _ r | .handleWrite r | .functor r => r ≠ .fails .EPIPE ∧ r ≠ .fails .ECONNRESET
  | .shutdown | .swap => True

instance (e : FlushEvent) : Decidable e.NoReset := by
  cases e <;> unfold FlushEvent.NoReset <;> infer_instance

namespace SendSide

/-- The writable event finds room for all that is buffered. -/
def Drains (c : SendSide) : WriteResult → Prop
  | .accepts room =>
      c.writing = true ∧ 0 < c.outputBuffer_.readableBytes ∧
        c.outputBuffer_.readableBytes ≤ room
  | .fails _ => False

instance (c : SendSide) (r : WriteResult) : Decidable (c.Drains r) := by
  cases r <;> unfold Drains <;> infer_instance

end SendSide

namespace Flushing

/-- A connection after `connectEstablished`, with nothing queued. -/
def established (writeCompleteCallback_ : Bool) : Flushing where
  side := .established writeCompleteCallback_
  pendingFunctors_ := []
  functors := []
  passed := []
  shutdownWrites := []

/-- An operation of the connection, with a record of the `shutdownWrite` it may call.  None of
    them reads `writeShut`. -/
def onSide (s : Flushing) (f : SendSide → SendSide) : Flushing :=
  let side := f { s.side with writeShut := false }
  { s with
    side := side
    shutdownWrites :=
      if side.writeShut then s.shutdownWrites ++ [⟨side.accepted, s.passed⟩]
      else s.shutdownWrites }

def runFunctor (s : Flushing) (r : WriteResult) : SendFunctor → Flushing
  | .sendInLoop message => s.onSide fun c => c.sendInLoop message r
  | .shutdownInLoop => s.onSide SendSide.shutdownInLoop

def queueInLoop (s : Flushing) (cb : SendFunctor) : Flushing :=
  { s with pendingFunctors_ := s.pendingFunctors_ ++ [cb] }

def send (inLoop : Bool) (s : Flushing) (message : Bytes) (r : WriteResult) : Flushing :=
  if s.side.state_ = .kConnected then
    let s := { s with passed := s.passed ++ message }
    if inLoop then s.onSide fun c => c.sendInLoop message r
    else s.queueInLoop (.sendInLoop message)
  else s

def shutdown (inLoop : Bool) (s : Flushing) : Flushing :=
  if s.side.state_ = .kConnected then
    -- the state changes now, also when the functor has to wait
    let s := { s with side := { s.side with state_ := .kDisconnecting } }
    if inLoop then s.onSide SendSide.shutdownInLoop else s.queueInLoop .shutdownInLoop
  else s

/-- One event, `inLoop` telling that the calling thread is the loop's own.  Channels are
    handled only while `doPendingFunctors` has no batch in hand, and the batch is run before
    the next one is swapped out. -/
def step (inLoop : Bool) (s : Flushing) : FlushEvent → Flushing
  | .send message r => s.send inLoop message r
  | .shutdown => s.shutdown inLoop
  | .handleWrite r => if s.functors = [] then s.onSide fun c => c.handleWrite r else s
  | .swap =>
      if s.functors = [] then { s with functors := s.pendingFunctors_, pendingFunctors_ := [] }
      else s
  | .functor r =>
      match s.functors with
      | [] => s
      | cb :: rest => runFunctor { s with functors := rest } r cb

/-- No writable event empties the buffer of a connection that is `kDisconnecting` while
    functors are still queued for it. -/
def Quiet (s : Flushing) : FlushEvent → Prop
  | .handleWrite r =>
      ¬ (s.side.state_ = .kDisconnecting ∧ s.functors = [] ∧ s.pendingFunctors_ ≠ [] ∧
        s.side.Drains r)
  | _ => True

instance (s : Flushing) (e : FlushEvent) : Decidable (s.Quiet e) := by
  cases e <;> unfold Quiet <;> infer_instance

/-- `shutdownWrite` was called once at most, with every byte passed to `send` taken by the
    socket. -/
structure Flushed (s : Flushing) : Prop where
  once : s.shutdownWrites.length ≤ 1
  complete : ∀ w ∈ s.shutdownWrites, w.accepted = w.passed

end Flushing

/-! ## What the operations do to the poll flag and to the write half -/

namespace SendSide

@[simp] theorem queueWriteComplete_writeShut (c : SendSide) :
    c.queueWriteComplete.writeShut = c.writeShut := by
  unfold queueWriteComplete
  split <;> rfl

theorem sendInLoop_writeShut (c : SendSide) (message : Bytes) (r : WriteResult) :
    (c.sendInLoop message r).writeShut = c.writeShut := by
  have hdirect : (c.writeDirect message r).conn.writeShut = c.writeShut := by
    unfold writeDirect
    split
    · cases r with
      | accepts room =>
          simp only [sockets.write]
          split <;> simp
      | fails errno => rfl
    · rfl
  unfold sendInLoop
  split
  · rfl
  · simp only
    split <;> exact hdirect

theorem drains_writeShut (c : SendSide) (shut : Bool) (r : WriteResult) :
    Drains { c with writeShut := shut } r ↔ c.Drains r := by
  cases r <;> exact Iff.rfl

/-- A writable event that does not drain the buffer leaves both as they were. -/
theorem handleWrite_of_not_drains {c : SendSide} {stream : Bytes} (h : c.Carries stream)
    {r : WriteResult} (hr : ¬ c.Drains r) :
    (c.handleWrite r).writing = c.writing ∧ (c.handleWrite r).writeShut = c.writeShut := by
  unfold handleWrite
  split
  · rename_i hw
    cases r with
    | fails errno => exact ⟨rfl, rfl⟩
    | accepts room =>
        simp only [sockets.write]
        split
        · rename_i hpos
          obtain ⟨hwf, hread⟩ := Buffer.retrieve_spec h.wf (min room c.outputBuffer_.readableBytes)
          have hleft := Buffer.length_readable hwf
          rw [hread, List.length_drop, Buffer.length_readable h.wf] at hleft
          have hroom : room < c.outputBuffer_.readableBytes := by
            by_contra hge
            exact hr ⟨hw, by omega, by omega⟩
          rw [if_neg (by omega)]
          exact ⟨rfl, rfl⟩
        · exact ⟨rfl, rfl⟩
  · exact ⟨rfl, rfl⟩

/-- One that drains it stops the polling, and closes the write half of a connection that is
    `kDisconnecting`. -/
theorem handleWrite_of_drains {c : SendSide} {stream : Bytes} (h : c.Carries stream)
    {r : WriteResult} (hr : c.Drains r) :
    (c.handleWrite r).writing = false ∧
      (c.handleWrite r).writeShut = (c.writeShut || decide (c.state_ = .kDisconnecting)) := by
  cases r with
  | fails errno => exact hr.elim
  | accepts room =>
      obtain ⟨hw, hpos, hroom⟩ := hr
      have hmin : min room c.outputBuffer_.readableBytes = c.outputBuffer_.readableBytes :=
        Nat.min_eq_right hroom
      obtain ⟨hwf, hread⟩ := Buffer.retrieve_spec h.wf c.outputBuffer_.readableBytes
      have hleft := Buffer.length_readable hwf
      rw [hread, List.length_drop, Buffer.length_readable h.wf, Nat.sub_self] at hleft
      simp only [handleWrite, hw, if_true, sockets.write, hmin, if_pos hpos, ← hleft]
      by_cases hstate : c.state_ = .kDisconnecting
      · simp [hstate, shutdownInLoop]
      · simp [hstate]

/-- While the channel does not poll for writing, the socket has taken the whole stream. -/
theorem Carries.accepted_eq {c : SendSide} {stream : Bytes} (h : c.Carries stream)
    (hw : c.writing = false) : c.accepted = stream := by
  have hempty : c.outputBuffer_.readable = [] := by
    by_contra hne
    rw [h.writing_iff.mpr hne] at hw
    exact absurd hw (by decide)
  rw [← h.stream_eq, hempty, List.append_nil]

end SendSide

/-! ## The invariant -/

namespace Flushing

/-- The functors on their way, in the order they will run. -/
def queue (s : Flushing) : List SendFunctor := s.functors ++ s.pendingFunctors_

/-- The messages among them. -/
def queuedBytes : List SendFunctor → Bytes
  | [] => []
  | .sendInLoop message :: rest => message ++ queuedBytes rest
  | .shutdownInLoop :: rest => queuedBytes rest

@[simp] theorem queuedBytes_append (xs ys : List SendFunctor) :
    queuedBytes (xs ++ ys) = queuedBytes xs ++ queuedBytes ys := by
  induction xs with
  | nil => rfl
  | cons x xs ih =>
      cases x with
      | sendInLoop message => simp [queuedBytes, ih]
      | shutdownInLoop => simp [queuedBytes, ih]

theorem queue_queueInLoop (s : Flushing) (cb : SendFunctor) :
    (s.queueInLoop cb).queue = s.queue ++ [cb] := by
  simp [queueInLoop, queue]

/-- How far the half-close has come: not asked for, queued behind the messages, left to the
    writable event that empties the buffer, or done. -/
inductive Stage (s : Flushing) : Prop
  | sending (hstate : s.side.state_ = .kConnected) (hqueue : .shutdownInLoop ∉ s.queue)
      (hlog : s.shutdownWrites = [])
  | queued (sends : List SendFunctor) (hstate : s.side.state_ = .kDisconnecting)
      (hqueue : s.queue = sends ++ [.shutdownInLoop]) (hsends : .shutdownInLoop ∉ sends)
      (hlog : s.shutdownWrites = [])
  | draining (hstate : s.side.state_ = .kDisconnecting) (hqueue : s.queue = [])
      (hwriting : s.side.writing = true) (hlog : s.shutdownWrites = [])
  | closed (hstate : s.side.state_ = .kDisconnecting) (hqueue : s.queue = [])
      (hwriting : s.side.writing = false) (hlog : s.shutdownWrites = [⟨s.passed, s.passed⟩])

/-- The socket, the output buffer and the queued messages hold, in this order, all that was
    passed to `send`. -/
def Holds (s : Flushing) : Prop :=
  ∃ stream, s.side.Carries stream ∧ stream ++ queuedBytes s.queue = s.passed

/-- The invariant of the runs in which every step is quiet. -/
structure Inv (inLoop : Bool) (s : Flushing) : Prop where
  holds : s.Holds
  stage : s.Stage
  direct : inLoop = true → s.queue = []

theorem established_inv (inLoop cb : Bool) : (established cb).Inv inLoop where
  holds := ⟨[], SendSide.established_carries cb, rfl⟩
  stage := .sending rfl (by simp [established, queue]) rfl
  direct := fun _ => rfl

theorem Stage.flushed {s : Flushing} (h : s.Stage) : s.Flushed := by
  rcases h with ⟨-, -, hlog⟩ | ⟨-, -, -, -, hlog⟩ | ⟨-, -, -, hlog⟩ | ⟨-, -, -, hlog⟩ <;>
    exact ⟨by simp [hlog], by simp [hlog]⟩

theorem Stage.state_ne {s : Flushing} (h : s.Stage) : s.side.state_ ≠ .kDisconnected := by
  rcases h with ⟨hstate, -⟩ | ⟨-, hstate, -⟩ | ⟨hstate, -⟩ | ⟨hstate, -⟩ <;> simp [hstate]

/-! ### The operations of the loop -/

/-- A message handed to the connection joins the stream and closes nothing. -/
theorem sendInLoop_spec {s : Flushing} {stream : Bytes} (h : s.side.Carries stream)
    (hopen : s.side.state_ ≠ .kDisconnected) (message : Bytes) {r : WriteResult}
    (hr : r ≠ .fails .EPIPE ∧ r ≠ .fails .ECONNRESET) :
    let s' := s.onSide fun c => c.sendInLoop message r
    s'.side.Carries (stream ++ message) ∧ s'.side.state_ = s.side.state_ ∧
      s'.shutdownWrites = s.shutdownWrites := by
  intro s'
  have hside : SendSide.Carries { s.side with writeShut := false } stream := h.congr rfl rfl rfl
  have hsent : SendSide.sentBy { s.side with writeShut := false } (.sendInLoop message r)
      = message := by
    rw [SendSide.sentBy, if_neg]
    rintro ⟨-, hfail | hfail⟩
    · exact hr.1 hfail
    · exact hr.2 hfail
  have hcarries := SendSide.sendInLoop_carries hside hopen message r
  rw [hsent] at hcarries
  refine ⟨hcarries, SendSide.sendInLoop_state_ _ _ _, ?_⟩
  simp [s', onSide, SendSide.sendInLoop_writeShut]

/-- `shutdownInLoop` behind the last message: the half-close is done, or left to the writable
    event that empties the buffer. -/
theorem shutdownInLoop_stage {s : Flushing} (h : s.side.Carries s.passed)
    (hstate : s.side.state_ = .kDisconnecting) (hqueue : s.queue = [])
    (hlog : s.shutdownWrites = []) :
    (s.onSide SendSide.shutdownInLoop).Stage := by
  cases hw : s.side.writing with
  | true =>
      refine .draining ?_ hqueue ?_ ?_ <;> simp [onSide, SendSide.shutdownInLoop, hw, hstate, hlog]
  | false =>
      refine .closed ?_ hqueue ?_ ?_ <;>
        simp [onSide, SendSide.shutdownInLoop, hw, hstate, hlog, h.accepted_eq hw]

/-! ### One step -/

variable {inLoop : Bool} {s : Flushing}

theorem send_inv (h : s.Inv inLoop) (message : Bytes) {r : WriteResult}
    (hr : r ≠ .fails .EPIPE ∧ r ≠ .fails .ECONNRESET) : (s.send inLoop message r).Inv inLoop := by
  unfold send
  split
  case isFalse => exact h
  case isTrue hstate =>
    obtain ⟨stream, hcarries, hpassed⟩ := h.holds
    rcases h.stage with ⟨-, hqueue, hlog⟩ | ⟨-, hdown, -⟩ | ⟨hdown, -⟩ | ⟨hdown, -⟩
    case sending =>
      cases inLoop with
      | true =>
          -- nothing is queued, so the stream is all that was passed so far
          have hnone := h.direct rfl
          obtain ⟨hside, hstate', hlog'⟩ :=
            sendInLoop_spec (s := { s with passed := s.passed ++ message }) hcarries
              h.stage.state_ne message hr
          refine ⟨⟨_, hside, ?_⟩, .sending (hstate'.trans hstate) hqueue (hlog'.trans hlog),
            fun _ => hnone⟩
          show stream ++ message ++ queuedBytes s.queue = s.passed ++ message
          rw [← hpassed, hnone]
          simp [queuedBytes]
      | false =>
          -- the message joins the queue behind those that were passed before it
          simp only [Bool.false_eq_true, if_false]
          refine ⟨⟨stream, hcarries, ?_⟩, .sending hstate ?_ hlog, by simp⟩
          · show _ = s.passed ++ message
            rw [queue_queueInLoop, queuedBytes_append, ← List.append_assoc, ← hpassed]
            simp [queue, queuedBytes]
          · rw [queue_queueInLoop]
            show _ ∉ s.queue ++ [_]
            simpa using hqueue
    all_goals exact absurd (hdown.symm.trans hstate) (by decide)

theorem shutdown_inv (h : s.Inv inLoop) : (s.shutdown inLoop).Inv inLoop := by
  unfold shutdown
  split
  case isFalse => exact h
  case isTrue hstate =>
    obtain ⟨stream, hcarries, hpassed⟩ := h.holds
    rcases h.stage with ⟨-, hqueue, hlog⟩ | ⟨-, hdown, -⟩ | ⟨hdown, -⟩ | ⟨hdown, -⟩
    case sending =>
      have hside : SendSide.Carries { s.side with state_ := .kDisconnecting } stream :=
        hcarries.congr rfl rfl rfl
      cases inLoop with
      | true =>
          have hnone := h.direct rfl
          have hall : stream = s.passed := by rw [← hpassed, hnone, queuedBytes, List.append_nil]
          have hcarries' : SendSide.Carries
              { s.side with state_ := .kDisconnecting, writeShut := false } stream :=
            hcarries.congr rfl rfl rfl
          refine ⟨⟨stream, hcarries'.shutdownInLoop, hpassed⟩, ?_, fun _ => hnone⟩
          exact shutdownInLoop_stage (hall ▸ hside) rfl hnone hlog
      | false =>
          -- no `send` is taken from now on: the half-close stays last in the queue
          simp only [Bool.false_eq_true, if_false]
          refine ⟨⟨stream, hside, ?_⟩, .queued s.queue rfl (queue_queueInLoop _ _) hqueue hlog,
            by simp⟩
          show _ = s.passed
          rw [queue_queueInLoop, queuedBytes_append, ← hpassed]
          simp [queue, queuedBytes]
    all_goals exact absurd (hdown.symm.trans hstate) (by decide)

/-- The records of a writable event: one if it drains the buffer of a connection that is
    `kDisconnecting`, made with all of the stream taken. -/
theorem handleWrite_spec {stream : Bytes} (h : s.side.Carries stream) (r : WriteResult) :
    let s' := s.onSide fun c => c.handleWrite r
    s'.side.Carries stream ∧ s'.side.state_ = s.side.state_ ∧
      (s.side.Drains r → s'.side.writing = false ∧ s'.shutdownWrites =
        if s.side.state_ = .kDisconnecting then s.shutdownWrites ++ [⟨stream, s.passed⟩]
        else s.shutdownWrites) ∧
      (¬ s.side.Drains r → s'.side.writing = s.side.writing ∧
        s'.shutdownWrites = s.shutdownWrites) := by
  intro s'
  have hside : SendSide.Carries { s.side with writeShut := false } stream := h.congr rfl rfl rfl
  have hcarries : s'.side.Carries stream := SendSide.handleWrite_carries hside r
  refine ⟨hcarries, SendSide.handleWrite_state_ _ _, ?_, ?_⟩
  · intro hr
    obtain ⟨hw, hshut⟩ := SendSide.handleWrite_of_drains hside
      ((SendSide.drains_writeShut _ _ _).mpr hr)
    refine ⟨hw, ?_⟩
    -- the channel does not poll any more, so the socket has the whole stream
    have hacc : s'.side.accepted = stream := hcarries.accepted_eq hw
    simp only [s', onSide] at hacc ⊢
    rw [hshut, hacc]
    simp
  · intro hr
    obtain ⟨hw, hshut⟩ := SendSide.handleWrite_of_not_drains hside
      (mt (SendSide.drains_writeShut _ _ _).mp hr)
    exact ⟨hw, by simp [s', onSide, hshut]⟩

theorem handleWrite_inv (h : s.Inv inLoop) {r : WriteResult} (hquiet : s.Quiet (.handleWrite r)) :
    (s.step inLoop (.handleWrite r)).Inv inLoop := by
  simp only [step]
  split
  case isFalse => exact h
  case isTrue hbatch =>
    obtain ⟨stream, hcarries, hpassed⟩ := h.holds
    obtain ⟨hcarries', hstate', hdrains, hkeeps⟩ := handleWrite_spec hcarries r
    refine ⟨⟨stream, hcarries', hpassed⟩, ?_, h.direct⟩
    by_cases hr : s.side.Drains r
    · obtain ⟨hw', hlog'⟩ := hdrains hr
      rcases h.stage with ⟨hstate, hqueue, hlog⟩ | ⟨sends, hstate, hqueue, -, -⟩ |
        ⟨hstate, hqueue, -, hlog⟩ | ⟨-, -, hwriting, -⟩
      · rw [if_neg (by simp [hstate])] at hlog'
        exact .sending (hstate'.trans hstate) hqueue (hlog'.trans hlog)
      · -- the functors are all pending, which a quiet event excludes
        refine absurd ⟨hstate, hbatch, ?_, hr⟩ hquiet
        intro hnone
        simp [queue, hbatch, hnone] at hqueue
      · rw [if_pos hstate, hlog] at hlog'
        have hall : stream = s.passed := by rw [← hpassed, hqueue, queuedBytes, List.append_nil]
        exact .closed (hstate'.trans hstate) hqueue hw' (by rw [hlog', hall]; rfl)
      · cases r with
        | accepts room => exact absurd (hr.1.symm.trans hwriting) (by decide)
        | fails errno => exact hr.elim
    · obtain ⟨hw', hlog'⟩ := hkeeps hr
      rcases h.stage with ⟨hstate, hqueue, hlog⟩ | ⟨sends, hstate, hqueue, hsends, hlog⟩ |
        ⟨hstate, hqueue, hwriting, hlog⟩ | ⟨hstate, hqueue, hwriting, hlog⟩
      · exact .sending (hstate'.trans hstate) hqueue (hlog'.trans hlog)
      · exact .queued sends (hstate'.trans hstate) hqueue hsends (hlog'.trans hlog)
      · exact .draining (hstate'.trans hstate) hqueue (hw'.trans hwriting) (hlog'.trans hlog)
      · exact .closed (hstate'.trans hstate) hqueue (hw'.trans hwriting) (hlog'.trans hlog)

theorem swap_inv (h : s.Inv inLoop) : (s.step inLoop .swap).Inv inLoop := by
  simp only [step]
  split
  case isFalse => exact h
  case isTrue hbatch =>
    have hqueue : s.queue = queue { s with
        functors := s.pendingFunctors_, pendingFunctors_ := [] } := by
      simp [queue, hbatch]
    refine ⟨?_, ?_, fun hin => hqueue ▸ h.direct hin⟩
    · obtain ⟨stream, hcarries, hpassed⟩ := h.holds
      exact ⟨stream, hcarries, hqueue ▸ hpassed⟩
    · rcases h.stage with ⟨hstate, hq, hlog⟩ | ⟨sends, hstate, hq, hsends, hlog⟩ |
        ⟨hstate, hq, hwriting, hlog⟩ | ⟨hstate, hq, hwriting, hlog⟩
      · exact .sending hstate (hqueue ▸ hq) hlog
      · exact .queued sends hstate (hqueue ▸ hq) hsends hlog
      · exact .draining hstate (hqueue ▸ hq) hwriting hlog
      · exact .closed hstate (hqueue ▸ hq) hwriting hlog

theorem functor_inv (h : s.Inv inLoop) {r : WriteResult}
    (hr : r ≠ .fails .EPIPE ∧ r ≠ .fails .ECONNRESET) :
    (s.step inLoop (.functor r)).Inv inLoop := by
  simp only [step]
  split
  · exact h
  · rename_i cb rest hbatch
    obtain ⟨stream, hcarries, hpassed⟩ := h.holds
    have hqueue : s.queue = cb :: queue { s with functors := rest } := by simp [queue, hbatch]
    have hdirect : inLoop = true → queue { s with functors := rest } = [] := by
      intro hin
      rw [h.direct hin] at hqueue
      cases hqueue
    rw [hqueue] at hpassed
    cases cb with
    | sendInLoop message =>
        obtain ⟨hside, hstate', hlog'⟩ :=
          sendInLoop_spec (s := { s with functors := rest }) hcarries h.stage.state_ne message hr
        refine ⟨⟨_, hside, ?_⟩, ?_, hdirect⟩
        · rw [queuedBytes, ← List.append_assoc] at hpassed
          exact hpassed
        · rcases h.stage with ⟨hstate, hq, hlog⟩ | ⟨sends, hstate, hq, hsends, hlog⟩ |
            ⟨-, hq, -⟩ | ⟨-, hq, -⟩
          · rw [hqueue, List.mem_cons, not_or] at hq
            exact .sending (hstate'.trans hstate) hq.2 (hlog'.trans hlog)
          · -- the message is the first of those in front of the half-close
            cases sends with
            | nil => simp [hqueue] at hq
            | cons first others =>
                rw [hqueue, List.cons_append, List.cons.injEq] at hq
                exact .queued others (hstate'.trans hstate) hq.2
                  (fun hmem => hsends (List.mem_cons_of_mem _ hmem)) (hlog'.trans hlog)
          · simp [hqueue] at hq
          · simp [hqueue] at hq
    | shutdownInLoop =>
        rcases h.stage with ⟨-, hq, -⟩ | ⟨sends, hstate, hq, hsends, hlog⟩ |
          ⟨-, hq, -⟩ | ⟨-, hq, -⟩
        · exact absurd (hqueue ▸ List.mem_cons_self) hq
        · -- all messages are through: the stream is what was passed to `send`
          have hfirst : sends = [] := by
            cases sends with
            | nil => rfl
            | cons first others =>
                rw [hqueue, List.cons_append, List.cons.injEq] at hq
                exact absurd (hq.1 ▸ List.mem_cons_self) hsends
          rw [hqueue, hfirst, List.nil_append, List.cons.injEq] at hq
          have hall : stream = s.passed := by
            rw [← hpassed, hq.2]
            simp [queuedBytes]
          have hcarries' : SendSide.Carries { s.side with writeShut := false } stream :=
            hcarries.congr rfl rfl rfl
          refine ⟨⟨stream, hcarries'.shutdownInLoop, hpassed⟩, ?_, hdirect⟩
          exact shutdownInLoop_stage (s := { s with functors := rest }) (hall ▸ hcarries) hstate
            hq.2 hlog
        · simp [hqueue] at hq
        · simp [hqueue] at hq

/-- A quiet step keeps the invariant. -/
theorem step_inv (h : s.Inv inLoop) {e : FlushEvent} (he : e.NoReset) (hquiet : s.Quiet e) :
    (s.step inLoop e).Inv inLoop := by
  cases e with
  | send message r => exact send_inv h message he
  | shutdown => exact shutdown_inv h
  | handleWrite r => exact handleWrite_inv h hquiet
  | swap => exact swap_inv h
  | functor r => exact functor_inv h he

/-- On the loop thread nothing is ever queued, so every step is quiet. -/
theorem Inv.quiet (h : s.Inv true) (e : FlushEvent) : s.Quiet e := by
  cases e with
  | handleWrite r =>
      rintro ⟨-, -, hpending, -⟩
      have hnone := h.direct rfl
      simp only [queue, List.append_eq_nil_iff] at hnone
      exact hpending hnone.2
  | _ => trivial

/-! ## After an event that is not quiet -/

/-- What such an event leaves when no message was lost to it: the write half is closed, and the
    queued `shutdownInLoop` is going to close it again. -/
structure Broken (s : Flushing) : Prop where
  carries : ∃ stream, s.side.Carries stream
  state : s.side.state_ = .kDisconnecting
  writing : s.side.writing = false
  queue_eq : ∃ sends, s.queue = sends ++ [.shutdownInLoop] ∧ .shutdownInLoop ∉ sends ∧
    queuedBytes sends = []
  closed : s.shutdownWrites ≠ []

theorem step_shutdownWrites_le (s : Flushing) (e : FlushEvent) :
    s.shutdownWrites.length ≤ (s.step inLoop e).shutdownWrites.length := by
  have honSide : ∀ (s : Flushing) (f : SendSide → SendSide),
      s.shutdownWrites.length ≤ (s.onSide f).shutdownWrites.length := by
    intro s f
    simp only [onSide]
    split <;> simp
  cases e with
  | send message r =>
      simp only [step, send]
      split
      · split
        · exact honSide { s with passed := s.passed ++ message } _
        · exact le_rfl
      · exact le_rfl
  | shutdown =>
      simp only [step, shutdown]
      split
      · split
        · exact honSide { s with side := { s.side with state_ := .kDisconnecting } } _
        · exact le_rfl
      · exact le_rfl
  | handleWrite r =>
      simp only [step]
      split
      · exact honSide s _
      · exact le_rfl
  | swap =>
      simp only [step]
      split <;> exact le_rfl
  | functor r =>
      simp only [step]
      split
      · exact le_rfl
      · rename_i cb rest _
        cases cb <;> exact honSide { s with functors := rest } _

theorem sendInLoop_nil_writing (c : SendSide) (r : WriteResult) :
    (c.sendInLoop [] r).writing = c.writing := by
  have hdirect : (c.writeDirect [] r).remaining = 0 ∧
      (c.writeDirect [] r).conn.writing = c.writing := by
    unfold SendSide.writeDirect
    split
    · cases r with
      | accepts room => simp [sockets.write]
      | fails errno => simp [sockets.write]
    · simp
  unfold SendSide.sendInLoop
  split
  · rfl
  · rw [if_neg (by omega), hdirect.2]

/-- The queue moves on to the second half-close, whatever happens in between. -/
theorem Broken.step (h : s.Broken) {e : FlushEvent} (he : e.NoReset) :
    (s.step inLoop e).Broken ∨ 2 ≤ (s.step inLoop e).shutdownWrites.length := by
  obtain ⟨⟨stream, hcarries⟩, hstate, hwriting, ⟨sends, hqueue, hsends, hnone⟩, hclosed⟩ := h
  have hnot : s.side.state_ ≠ .kConnected := by simp [hstate]
  have hself : s.Broken :=
    ⟨⟨stream, hcarries⟩, hstate, hwriting, ⟨sends, hqueue, hsends, hnone⟩, hclosed⟩
  cases e with
  | send message r =>
      left
      simpa [Flushing.step, send, hnot] using hself
  | shutdown =>
      -- the state is `kDisconnecting` already, so neither call does anything
      left
      simpa [Flushing.step, shutdown, hnot] using hself
  | handleWrite r =>
      left
      simp only [Flushing.step]
      split
      · obtain ⟨hcarries', hstate', -, hkeeps⟩ := handleWrite_spec hcarries r
        have hr : ¬ s.side.Drains r := by
          cases r with
          | accepts room => exact fun hr => absurd (hr.1.symm.trans hwriting) (by decide)
          | fails errno => exact id
        obtain ⟨hw', hlog'⟩ := hkeeps hr
        exact ⟨⟨stream, hcarries'⟩, hstate'.trans hstate, hw'.trans hwriting,
          ⟨sends, hqueue, hsends, hnone⟩, hlog' ▸ hclosed⟩
      · exact hself
  | swap =>
      left
      simp only [Flushing.step]
      split
      · rename_i hbatch
        refine ⟨⟨stream, hcarries⟩, hstate, hwriting, ⟨sends, ?_, hsends, hnone⟩, hclosed⟩
        simpa [queue, hbatch] using hqueue
      · exact hself
  | functor r =>
      simp only [Flushing.step]
      split
      · exact .inl hself
      · rename_i cb rest hbatch
        have hhead : s.queue = cb :: queue { s with functors := rest } := by simp [queue, hbatch]
        rw [hhead] at hqueue
        cases sends with
        | nil =>
            -- the second call of `shutdownWrite`
            right
            rw [List.nil_append, List.cons.injEq] at hqueue
            have hlen := List.length_pos_iff.mpr hclosed
            have hlog' : (runFunctor { s with functors := rest } r cb).shutdownWrites
                = s.shutdownWrites ++ [⟨s.side.accepted, s.passed⟩] := by
              simp [hqueue.1, runFunctor, onSide, SendSide.shutdownInLoop, hwriting]
            rw [hlog', List.length_append, List.length_singleton]
            omega
        | cons first others =>
            left
            rw [List.cons_append, List.cons.injEq] at hqueue
            obtain ⟨rfl, hrest⟩ := hqueue
            cases cb with
            | shutdownInLoop => exact absurd List.mem_cons_self hsends
            | sendInLoop message =>
                rw [queuedBytes, List.append_eq_nil_iff] at hnone
                obtain ⟨rfl, hnone'⟩ := hnone
                obtain ⟨hside, hstate', hlog'⟩ :=
                  sendInLoop_spec (s := { s with functors := rest }) hcarries (by simp [hstate]) []
                    he
                exact ⟨⟨_, hside⟩, hstate'.trans hstate,
                  (sendInLoop_nil_writing _ _).trans hwriting,
                  ⟨others, hrest, fun hmem => hsends (List.mem_cons_of_mem _ hmem), hnone'⟩,
                  fun hnil => hclosed (hlog'.symm.trans hnil)⟩

/-- An event that is not quiet closes the write half at once.  Either a queued message is cut
    off, or the queued `shutdownInLoop` is left over. -/
theorem broken_of_not_quiet (h : s.Inv inLoop) {e : FlushEvent} (hnot : ¬ s.Quiet e)
    (hflushed : (s.step inLoop e).Flushed) : (s.step inLoop e).Broken := by
  cases e with
  | handleWrite r =>
      -- the buffer is drained, so the record has the stream against all that was passed
      obtain ⟨hstate, hbatch, hpending, hr⟩ := not_not.mp hnot
      have hne : s.queue ≠ [] := by simpa [queue, hbatch] using hpending
      obtain ⟨stream, hcarries, hpassed⟩ := h.holds
      obtain ⟨hcarries', hstate', hdrains, -⟩ := handleWrite_spec hcarries r
      obtain ⟨hw', hlog'⟩ := hdrains hr
      rw [if_pos hstate] at hlog'
      have hstep : s.step inLoop (.handleWrite r) = s.onSide fun c => c.handleWrite r := by
        simp [Flushing.step, hbatch]
      rw [hstep] at hflushed ⊢
      have hall : stream = s.passed :=
        hflushed.complete ⟨stream, s.passed⟩ (by rw [hlog']; simp)
      have hnone : queuedBytes s.queue = [] := by
        rw [hall] at hpassed
        exact List.append_right_eq_self.mp hpassed
      rcases h.stage with ⟨hup, -⟩ | ⟨sends, -, hqueue, hsends, -⟩ | ⟨-, hqueue, -⟩ | ⟨-, hqueue, -⟩
      · exact absurd (hup.symm.trans hstate) (by decide)
      · rw [hqueue, queuedBytes_append, List.append_eq_nil_iff] at hnone
        exact ⟨⟨stream, hcarries'⟩, hstate'.trans hstate, hw', ⟨sends, hqueue, hsends, hnone.1⟩,
          by rw [hlog']; simp⟩
      · exact absurd hqueue hne
      · exact absurd hqueue hne
  | _ => exact absurd trivial hnot

/-- Once broken, a run that empties the queue ends with two calls of `shutdownWrite`. -/
theorem Broken.exec (h : s.Broken) {es : List FlushEvent} (hes : ∀ e ∈ es, e.NoReset)
    (hdone : (Run.exec (Flushing.step inLoop) s es).queue = []) :
    2 ≤ (Run.exec (Flushing.step inLoop) s es).shutdownWrites.length := by
  have hrun : Run.AllSteps (Flushing.step inLoop) (fun _ e => e.NoReset) s es :=
    Run.AllSteps.of_forall hes
  have hend := Run.exec_invariant
    (I := fun s : Flushing => s.Broken ∨ 2 ≤ s.shutdownWrites.length)
    (fun s e hs he => by
      rcases hs with hbroken | htwice
      · exact hbroken.step he
      · exact .inr (htwice.trans (step_shutdownWrites_le s e))) (.inl h) hrun
  rcases hend with ⟨-, -, -, ⟨sends, hqueue, -⟩, -⟩ | htwice
  · rw [hdone] at hqueue
    simp at hqueue
  · exact htwice

/-! ## Whole runs -/

theorem flushed_of_quiet (h : s.Inv inLoop) {es : List FlushEvent} (hes : ∀ e ∈ es, e.NoReset)
    (hquiet : Run.AllSteps (step inLoop) Quiet s es) :
    Run.AllSteps (step inLoop) (fun s e => (s.step inLoop e).Flushed) s es :=
  Run.AllSteps.of_invariant (fun _ _ hs he => step_inv hs he.1 he.2)
    (fun _ _ hs he => (step_inv hs he.1 he.2).stage.flushed) h
    ((Run.AllSteps.of_forall hes).and hquiet)

theorem quiet_of_flushed (h : s.Inv inLoop) {es : List FlushEvent} (hes : ∀ e ∈ es, e.NoReset)
    (hdone : (Run.exec (step inLoop) s es).queue = [])
    (hflushed : Run.AllSteps (step inLoop) (fun s e => (s.step inLoop e).Flushed) s es) :
    Run.AllSteps (step inLoop) Quiet s es := by
  induction es generalizing s with
  | nil => trivial
  | cons e es ih =>
      have hes' : ∀ e' ∈ es, e'.NoReset := fun e' he' => hes e' (by simp [he'])
      by_cases hquiet : s.Quiet e
      · exact ⟨hquiet, ih (step_inv h (hes e (by simp)) hquiet) hes' hdone hflushed.2⟩
      · -- the rest of the run closes the write half again
        have htwice := (broken_of_not_quiet h hquiet hflushed.1).exec hes' hdone
        have hend := Run.exec_invariant (I := Flushed) (fun _ _ _ hs => hs) hflushed.1 hflushed.2
        exact absurd (htwice.trans hend.once) (by decide)

theorem quiet_of_inLoop (h : s.Inv true) {es : List FlushEvent} (hes : ∀ e ∈ es, e.NoReset) :
    Run.AllSteps (step true) Quiet s es :=
  Run.AllSteps.of_invariant (fun _ e hs he => step_inv hs he (Inv.quiet hs e))
    (fun _ e hs _ => Inv.quiet hs e) h (Run.AllSteps.of_forall hes)

end Flushing

/-- Graceful shutdown.  One thread calls `send` and `shutdown` in any order, writable events and
    queued functors come in between, and the kernel answers each write in any way but with
    `EPIPE` or `ECONNRESET`.  If no writable event empties the buffer of a connection that is
    `kDisconnecting` while functors are queued for it, `shutdownWrite` is called once at most,
    and only when the socket has taken every byte passed to `send`; calls from the loop thread
    are always of this kind.  A run in which all functors have run in the end and
    `shutdownWrite` was so called has no such event. -/
theorem graceful_shutdown_iff (inLoop writeCompleteCallback_ : Bool) (es : List FlushEvent)
    (hes : ∀ e ∈ es, e.NoReset) :
    (inLoop = true →
        Run.AllSteps (Flushing.step inLoop) Flushing.Quiet
          (.established writeCompleteCallback_) es) ∧
      (Run.AllSteps (Flushing.step inLoop) Flushing.Quiet
          (.established writeCompleteCallback_) es →
        Run.AllSteps (Flushing.step inLoop) (fun s e => (s.step inLoop e).Flushed)
          (.established writeCompleteCallback_) es) ∧
      ((Run.exec (Flushing.step inLoop) (.established writeCompleteCallback_) es).queue = [] →
        Run.AllSteps (Flushing.step inLoop) (fun s e => (s.step inLoop e).Flushed)
          (.established writeCompleteCallback_) es →
        Run.AllSteps (Flushing.step inLoop) Flushing.Quiet
          (.established writeCompleteCallback_) es) := by
  have hstart := Flushing.established_inv inLoop writeCompleteCallback_
  refine ⟨?_, Flushing.flushed_of_quiet hstart hes, Flushing.quiet_of_flushed hstart hes⟩
  intro hin
  cases hin
  exact Flushing.quiet_of_inLoop hstart hes

/-- From another thread: a first message that waits for the socket, a second one behind it, and
    the half-close, which the loop gets to before the socket is writable. -/
def flushedRun : List FlushEvent :=
  [.send (str "a") (.accepts 0), .swap, .functor (.fails .EWOULDBLOCK),
   .send (str "b") (.accepts 0), .shutdown, .swap, .functor (.accepts 0), .functor (.accepts 0),
   .handleWrite (.accepts 1), .handleWrite (.accepts 1)]

theorem graceful_shutdown_iff_flushedRun :
    (∀ e ∈ flushedRun, e.NoReset) ∧
      (Run.exec (Flushing.step false) (.established true) flushedRun).shutdownWrites
        = [⟨str "ab", str "ab"⟩] ∧
      Run.AllSteps (Flushing.step false) (fun s e => (s.step false e).Flushed)
        (.established true) flushedRun := by
  have hes : ∀ e ∈ flushedRun, e.NoReset := by decide +kernel
  exact ⟨hes, by decide +kernel,
    (graceful_shutdown_iff false true flushedRun hes).2.1 (by decide +kernel)⟩

/-- The same calls, with the writable event while the second message and the half-close are
    still queued. -/
def earlyClose : List FlushEvent :=
  [.send (str "a") (.accepts 0), .swap, .functor (.fails .EWOULDBLOCK),
   .send (str "b") (.accepts 0), .shutdown, .handleWrite (.accepts 1)]

/-- No second message, and the writable event while the half-close is still queued. -/
def doubleClose : List FlushEvent :=
  [.send (str "a") (.accepts 0), .swap, .functor (.fails .EWOULDBLOCK), .shutdown,
   .handleWrite (.accepts 1), .swap, .functor (.accepts 0)]

/-- The write half is closed after one byte of two, or closed twice. -/
theorem queued_message_cut_off :
    (∀ e ∈ earlyClose ++ doubleClose, e.NoReset) ∧
      (Run.exec (Flushing.step false) (.established true) earlyClose).shutdownWrites
        = [⟨str "a", str "ab"⟩] ∧
      ¬ (Run.exec (Flushing.step false) (.established true) earlyClose).Flushed ∧
      (Run.exec (Flushing.step false) (.established true) doubleClose).shutdownWrites
        = [⟨str "a", str "a"⟩, ⟨str "a", str "a"⟩] ∧
      ¬ (Run.exec (Flushing.step false) (.established true) doubleClose).Flushed := by
  have hearly : (Run.exec (Flushing.step false) (.established true) earlyClose).shutdownWrites
      = [⟨str "a", str "ab"⟩] := by
    decide +kernel
  have hdouble : (Run.exec (Flushing.step false) (.established true) doubleClose).shutdownWrites
      = [⟨str "a", str "a"⟩, ⟨str "a", str "a"⟩] := by
    decide +kernel
  refine ⟨by decide +kernel, hearly, ?_, hdouble, ?_⟩
  · intro h
    exact absurd (h.complete ⟨str "a", str "ab"⟩ (by rw [hearly]; simp)) (by decide +kernel)
  · intro h
    have honce := h.once
    rw [hdouble] at honce
    exact absurd honce (by decide)

end DoubleTurnouts
