/-
  DoubleTurnouts.Network.TcpConnection

  The send side of `network::TcpConnection`: `sendInLoop` writes straight to
  the socket while nothing is pending and leaves the rest to `outputBuffer_`,
  which `handleWrite` drains whenever the poller reports the socket writable.
  What the kernel takes of each write is part of the event, so a run ranges
  over full, partial and empty writes and over every error.

  `Carries c sent` is the invariant: the bytes the socket took, followed by
  the bytes still buffered, are `sent`, and the channel polls for writing
  exactly while something is buffered.  One lemma per event keeps it
  (`sendInLoop_carries`, `handleWrite_carries`), `outgoing_stream` is the
  statement about whole runs.
-/
import Mathlib.Tactic
import DoubleTurnouts.Lib.Run
import DoubleTurnouts.Network.Buffer

namespace DoubleTurnouts

/-- `TcpConnection::StateE`. -/
inductive StateE
  | kDisconnected
  | kConnecting
  | kConnected
  | kDisconnecting
  deriving DecidableEq, Repr

/-- The values of `errno` the write path tells apart. -/
inductive Errno
  | EWOULDBLOCK
  | EPIPE
  | ECONNRESET
  | other (code : Int)
  deriving DecidableEq, Repr

/-- The kernel's answer to one `::write`: it has room for `room` bytes, or the call returns
    `-1` with `errno` set. -/
inductive WriteResult
  | accepts (room : Nat)
  | fails (errno : Errno)
  deriving DecidableEq, Repr

/-- What `sockets::write` returns for `count` bytes. -/
def sockets.write (r : WriteResult) (count : Nat) : Except Errno Nat :=
  match r with
  | .accepts room => .ok (min room count)
  | .fails errno => .error errno

/-- A connection as its send path sees it.  `writing` is `channel_->isWriting()`,
    `accepted` are the bytes the socket has taken so far, `queued` counts the runs of
    `writeCompleteCallback_` handed to `queueInLoop`, and `writeShut` tells that
    `socket_->shutdownWrite()` was called. -/
structure SendSide where
  state_ : StateE
  writing : Bool
  outputBuffer_ : Buffer
  writeCompleteCallback_ : Bool
  accepted : Bytes
  queued : Nat
  writeShut : Bool
  deriving DecidableEq, Repr

namespace SendSide

/-- The connection `connectEstablished` leaves, with or without a completion callback. -/
def established (writeCompleteCallback_ : Bool) : SendSide where
  state_ := .kConnected
  writing := false
  outputBuffer_ := Buffer.new Buffer.kInitialSize
  writeCompleteCallback_ := writeCompleteCallback_
  accepted := []
  queued := 0
  writeShut := false

/-- `loop_->queueInLoop(std::bind(writeCompleteCallback_, ..))`, if one is set. -/
def queueWriteComplete (c : SendSide) : SendSide :=
  if c.writeCompleteCallback_ then { c with queued := c.queued + 1 } else c

/-- The locals of `sendInLoop` once the direct write is over. -/
structure Direct where
  conn : SendSide
  nwrote : Nat
  remaining : Nat
  faultError : Bool

/-- The condition of the direct write: no thing in the output queue. -/
def queueEmpty (c : SendSide) : Bool :=
  !c.writing && c.outputBuffer_.readableBytes == 0

/-- `sendInLoop` up to the direct write, taken or not. -/
def writeDirect (c : SendSide) (data : Bytes) (r : WriteResult) : Direct :=
  if c.queueEmpty then
    match sockets.write r data.length with
    | .ok nwrote =>
        let remaining := data.length - nwrote
        let c := { c with accepted := c.accepted ++ data.take nwrote }
        let c := if remaining = 0 then c.queueWriteComplete else c
        ⟨c, nwrote, remaining, false⟩
    | .error errno =>
        ⟨c, 0, data.length, decide (errno = .EPIPE ∨ errno = .ECONNRESET)⟩
  else ⟨c, 0, data.length, false⟩

def sendInLoop (c : SendSide) (data : Bytes) (r : WriteResult) : SendSide :=
  if c.state_ = .kDisconnected then c
  else
    let d := c.writeDirect data r
    if d.faultError = false ∧ 0 < d.remaining then
      { d.conn with
        outputBuffer_ := d.conn.outputBuffer_.append ((data.drop d.nwrote).take d.remaining)
        writing := true }
    else d.conn

def shutdownInLoop (c : SendSide) : SendSide :=
  if c.writing then c else { c with writeShut := true }

/-- The loop thread calls `shutdown`, so `runInLoop` runs its functor at once. -/
def shutdown (c : SendSide) : SendSide :=
  if c.state_ = .kConnected then shutdownInLoop { c with state_ := .kDisconnecting } else c

/-- `forceClose` without the `forceCloseInLoop` it queues, which is `handleClose`. -/
def forceClose (c : SendSide) : SendSide :=
  if c.state_ = .kConnected ∨ c.state_ = .kDisconnecting then
    { c with state_ := .kDisconnecting }
  else c

def handleWrite (c : SendSide) (r : WriteResult) : SendSide :=
  if c.writing then
    match sockets.write r c.outputBuffer_.readableBytes with
    | .ok n =>
        if 0 < n then
          let c := { c with
            accepted := c.accepted ++ c.outputBuffer_.peekAsString n
            outputBuffer_ := c.outputBuffer_.retrieve n }
          if c.outputBuffer_.readableBytes = 0 then
            let c := { c with writing := false }
            let c := c.queueWriteComplete
            if c.state_ = .kDisconnecting then c.shutdownInLoop else c
          else c
        else c
    | .error _ => c
  else c

/-- `handleClose`: the channel is taken off the poller whatever is still buffered. -/
def handleClose (c : SendSide) : SendSide :=
  { c with state_ := .kDisconnected, writing := false }

end SendSide

/-- What can happen to the send side, each write with the kernel's answer. -/
inductive SendEvent
  | sendInLoop (message : Bytes) (r : WriteResult)
  | handleWrite (r : WriteResult)
  | shutdown
  | forceClose
  | handleClose
  deriving DecidableEq, Repr

namespace SendSide

def step (c : SendSide) : SendEvent → SendSide
  | .sendInLoop message r => c.sendInLoop message r
  | .handleWrite r => c.handleWrite r
  | .shutdown => c.shutdown
  | .forceClose => c.forceClose
  | .handleClose => c.handleClose

/-- The states in which the connection takes data. -/
def Open (c : SendSide) : Prop := c.state_ = .kConnected ∨ c.state_ = .kDisconnecting

instance (c : SendSide) : Decidable c.Open := by
  unfold Open
  infer_instance

/-- The direct write of this call is tried and fails with `EPIPE` or `ECONNRESET`. -/
def DirectFault (c : SendSide) (r : WriteResult) : Prop :=
  c.queueEmpty = true ∧ (r = .fails .EPIPE ∨ r = .fails .ECONNRESET)

instance (c : SendSide) (r : WriteResult) : Decidable (c.DirectFault r) := by
  unfold DirectFault
  infer_instance

/-- What one event adds to the outgoing stream. -/
def sentBy (c : SendSide) : SendEvent → Bytes
  | .sendInLoop message r => if c.DirectFault r then [] else message
  | _ => []

/-- The messages of a run in call order, without those whose direct write failed with
    `EPIPE` or `ECONNRESET`. -/
def sent (c : SendSide) : List SendEvent → Bytes
  | [] => []
  | e :: es => c.sentBy e ++ sent (c.step e) es

/-! ## The invariant -/

/-- The socket and the output buffer together hold `stream`, and the channel polls for
    writing exactly while the buffer is not empty. -/
structure Carries (c : SendSide) (stream : Bytes) : Prop where
  wf : c.outputBuffer_.WF
  stream_eq : c.accepted ++ c.outputBuffer_.readable = stream
  writing_iff : c.writing = true ↔ c.outputBuffer_.readable ≠ []

theorem established_carries (cb : Bool) : (established cb).Carries [] where
  wf := Buffer.new_wf _
  stream_eq := by simp [established]
  writing_iff := by simp [established]

/-- Only the buffer, the accepted bytes and the poll flag enter the invariant. -/
theorem Carries.congr {c c' : SendSide} {stream : Bytes} (h : c.Carries stream)
    (hbuf : c'.outputBuffer_ = c.outputBuffer_) (hacc : c'.accepted = c.accepted)
    (hwriting : c'.writing = c.writing) : c'.Carries stream where
  wf := hbuf ▸ h.wf
  stream_eq := by rw [hacc, hbuf, h.stream_eq]
  writing_iff := by rw [hwriting, hbuf, h.writing_iff]

theorem Carries.queueEmpty_iff {c : SendSide} {stream : Bytes} (h : c.Carries stream) :
    c.queueEmpty = true ↔ c.outputBuffer_.readable = [] := by
  have hlen := Buffer.length_readable h.wf
  have hw := h.writing_iff
  constructor
  · intro hq
    simp only [queueEmpty, Bool.and_eq_true, beq_iff_eq] at hq
    exact List.eq_nil_of_length_eq_zero (by omega)
  · intro hr
    have hnot : c.writing = false := by simpa [hr] using hw
    have hzero : c.outputBuffer_.readableBytes = 0 := by rw [← hlen, hr, List.length_nil]
    simp [queueEmpty, hnot, hzero]

/-! ### Operations that move no byte -/

@[simp] theorem queueWriteComplete_state_ (c : SendSide) :
    c.queueWriteComplete.state_ = c.state_ := by
  unfold queueWriteComplete
  split <;> rfl

@[simp] theorem queueWriteComplete_writing (c : SendSide) :
    c.queueWriteComplete.writing = c.writing := by
  unfold queueWriteComplete
  split <;> rfl

@[simp] theorem shutdownInLoop_state_ (c : SendSide) : c.shutdownInLoop.state_ = c.state_ := by
  unfold shutdownInLoop
  split <;> rfl

@[simp] theorem shutdownInLoop_writing (c : SendSide) : c.shutdownInLoop.writing = c.writing := by
  unfold shutdownInLoop
  split <;> rfl

theorem Carries.queueWriteComplete {c : SendSide} {stream : Bytes} (h : c.Carries stream) :
    c.queueWriteComplete.Carries stream := by
  unfold SendSide.queueWriteComplete
  split
  · exact h.congr rfl rfl rfl
  · exact h

theorem Carries.shutdownInLoop {c : SendSide} {stream : Bytes} (h : c.Carries stream) :
    c.shutdownInLoop.Carries stream := by
  unfold SendSide.shutdownInLoop
  split
  · exact h
  · exact h.congr rfl rfl rfl

theorem Carries.shutdown {c : SendSide} {stream : Bytes} (h : c.Carries stream) :
    c.shutdown.Carries stream := by
  unfold SendSide.shutdown
  split
  · exact Carries.shutdownInLoop (h.congr rfl rfl rfl)
  · exact h

theorem Carries.forceClose {c : SendSide} {stream : Bytes} (h : c.Carries stream) :
    c.forceClose.Carries stream := by
  unfold SendSide.forceClose
  split
  · exact h.congr rfl rfl rfl
  · exact h

/-! ### `sendInLoop` -/

/-- A message behind pending output only grows the buffer. -/
theorem Carries.append {c : SendSide} {stream : Bytes} (h : c.Carries stream) {rest : Bytes}
    (hrest : rest ≠ []) :
    Carries { c with outputBuffer_ := c.outputBuffer_.append rest, writing := true }
      (stream ++ rest) where
  wf := Buffer.append_wf h.wf rest
  stream_eq := by
    show c.accepted ++ (c.outputBuffer_.append rest).readable = stream ++ rest
    rw [Buffer.readable_append h.wf, ← List.append_assoc, h.stream_eq]
  writing_iff := by
    show true = true ↔ (c.outputBuffer_.append rest).readable ≠ []
    rw [Buffer.readable_append h.wf]
    simp [hrest]

/-- With an empty buffer the accepted bytes are the whole stream, so what the socket takes
    directly goes to its end. -/
theorem Carries.accept {c : SendSide} {stream : Bytes} (h : c.Carries stream)
    (hempty : c.outputBuffer_.readable = []) (front : Bytes) :
    Carries { c with accepted := c.accepted ++ front } (stream ++ front) where
  wf := h.wf
  stream_eq := by
    show c.accepted ++ front ++ c.outputBuffer_.readable = stream ++ front
    have hstream := h.stream_eq
    rw [hempty, List.append_nil] at hstream
    rw [hempty, List.append_nil, hstream]
  writing_iff := h.writing_iff

/-- Everything the direct write does: the bytes it took are at the end of the stream, the
    locals cut the message where it stopped, and the message is given up exactly on a fault. -/
theorem writeDirect_spec {c : SendSide} {stream : Bytes} (h : c.Carries stream) (data : Bytes)
    (r : WriteResult) :
    (c.writeDirect data r).conn.Carries (stream ++ data.take (c.writeDirect data r).nwrote) ∧
      (c.writeDirect data r).nwrote + (c.writeDirect data r).remaining = data.length ∧
      ((c.writeDirect data r).faultError = true ↔ c.DirectFault r) ∧
      ((c.writeDirect data r).faultError = true → (c.writeDirect data r).nwrote = 0) := by
  unfold writeDirect
  split
  · rename_i hq
    have hempty := h.queueEmpty_iff.mp hq
    cases r with
    | accepts room =>
        simp only [sockets.write]
        refine ⟨?_, by omega, by simp [DirectFault], by simp⟩
        -- the completion callback is queued when nothing remains, which moves no byte
        split
        · exact Carries.queueWriteComplete (h.accept hempty _)
        · exact h.accept hempty _
    | fails errno =>
        simp only [sockets.write]
        refine ⟨by simpa using h, by simp, ?_, by simp⟩
        simp [DirectFault, hq]
  · rename_i hq
    exact ⟨by simpa using h, by simp, by simp [DirectFault, hq], by simp⟩

theorem sendInLoop_carries {c : SendSide} {stream : Bytes} (h : c.Carries stream)
    (hopen : c.state_ ≠ .kDisconnected) (message : Bytes) (r : WriteResult) :
    (c.sendInLoop message r).Carries (stream ++ c.sentBy (.sendInLoop message r)) := by
  obtain ⟨hconn, hcut, hfault, hnone⟩ := writeDirect_spec h message r
  generalize hd : c.writeDirect message r = d at hconn hcut hfault hnone
  have hsend : c.sendInLoop message r =
      if d.faultError = false ∧ 0 < d.remaining then
        { d.conn with
          outputBuffer_ := d.conn.outputBuffer_.append ((message.drop d.nwrote).take d.remaining)
          writing := true }
      else d.conn := by
    rw [sendInLoop, if_neg hopen, hd]
  rw [hsend, sentBy]
  by_cases hf : c.DirectFault r
  · have hft := hfault.mpr hf
    rw [if_pos hf, if_neg (by simp [hft]), List.append_nil]
    simpa [hnone hft] using hconn
  · have hff : d.faultError = false := by simpa using mt hfault.mp hf
    rw [if_neg hf]
    by_cases hrem : 0 < d.remaining
    · -- the part the socket did not take is buffered behind the part it did
      have hlen : (message.drop d.nwrote).length = d.remaining := by
        rw [List.length_drop]
        omega
      have hrest : (message.drop d.nwrote).take d.remaining = message.drop d.nwrote :=
        List.take_of_length_le (by omega)
      have hne : message.drop d.nwrote ≠ [] := by
        intro hnil
        rw [hnil, List.length_nil] at hlen
        omega
      rw [if_pos ⟨hff, hrem⟩, hrest]
      have hall := hconn.append hne
      rwa [List.append_assoc, List.take_append_drop] at hall
    · rw [if_neg (by omega)]
      rwa [List.take_of_length_le (by omega)] at hconn

theorem sendInLoop_state_ (c : SendSide) (message : Bytes) (r : WriteResult) :
    (c.sendInLoop message r).state_ = c.state_ := by
  have hdirect : (c.writeDirect message r).conn.state_ = c.state_ := by
    unfold writeDirect
    split
    · cases r with
      | accepts room =>
          simp only [sockets.write]
          split <;> simp
      | fails errno => rfl
    · rfl
  unfold sendInLoop
  split
  · rfl
  · simp only
    split <;> exact hdirect

@[simp] theorem forceClose_writing (c : SendSide) : c.forceClose.writing = c.writing := by
  unfold forceClose
  split <;> rfl

theorem forceClose_state_ne_kConnecting {c : SendSide} (h : c.state_ ≠ .kConnecting) :
    c.forceClose.state_ ≠ .kConnecting := by
  unfold forceClose
  split
  · simp
  · exact h

/-- A send never stops the writing. -/
theorem sendInLoop_writing {c : SendSide} (h : c.writing = true) (message : Bytes)
    (r : WriteResult) : (c.sendInLoop message r).writing = true := by
  have hdirect : (c.writeDirect message r).conn.writing = true := by
    rw [writeDirect, if_neg (by simp [queueEmpty, h])]
    exact h
  unfold sendInLoop
  split
  · exact h
  · simp only
    split
    · rfl
    · exact hdirect

/-! ### `handleWrite` -/

/-- The drained front moves from the buffer to the socket; `writing` is set again below. -/
theorem handleWrite_carries {c : SendSide} {stream : Bytes} (h : c.Carries stream)
    (r : WriteResult) : (c.handleWrite r).Carries stream := by
  unfold handleWrite
  split
  · rename_i hw
    cases r with
    | fails errno => exact h
    | accepts room =>
        simp only [sockets.write]
        split
        · have hle : min room c.outputBuffer_.readableBytes ≤ c.outputBuffer_.readableBytes :=
            Nat.min_le_right _ _
          obtain ⟨hwf, hread⟩ := Buffer.retrieve_spec h.wf (min room c.outputBuffer_.readableBytes)
          have hlen := Buffer.length_readable hwf
          have hstream : c.accepted ++
                c.outputBuffer_.peekAsString (min room c.outputBuffer_.readableBytes) ++
                (c.outputBuffer_.retrieve (min room c.outputBuffer_.readableBytes)).readable
              = stream := by
            rw [Buffer.peekAsString_eq hle, hread, List.append_assoc, List.take_append_drop,
              h.stream_eq]
          split
          · -- the buffer is empty: the channel stops polling, then the two follow-ups
            rename_i hzero
            have hnil : (c.outputBuffer_.retrieve
                (min room c.outputBuffer_.readableBytes)).readable = [] :=
              List.eq_nil_of_length_eq_zero (by rw [hlen]; exact hzero)
            have hquiet : Carries { c with
                accepted := c.accepted ++
                  c.outputBuffer_.peekAsString (min room c.outputBuffer_.readableBytes)
                outputBuffer_ := c.outputBuffer_.retrieve (min room c.outputBuffer_.readableBytes)
                writing := false } stream :=
              ⟨hwf, hstream, by simp [hnil]⟩
            split
            · exact hquiet.queueWriteComplete.shutdownInLoop
            · exact hquiet.queueWriteComplete
          · rename_i hpos
            refine ⟨hwf, hstream, ?_⟩
            have hne : (c.outputBuffer_.retrieve
                (min room c.outputBuffer_.readableBytes)).readable ≠ [] := by
              intro hnil
              rw [hnil, List.length_nil] at hlen
              exact hpos hlen.symm
            simp [hw, hne]
        · exact h
  · exact h

theorem handleWrite_state_ (c : SendSide) (r : WriteResult) :
    (c.handleWrite r).state_ = c.state_ := by
  unfold handleWrite
  split
  · cases r with
    | fails errno => rfl
    | accepts room =>
        simp only [sockets.write]
        split
        · split
          · split <;> simp
          · rfl
        · rfl
  · rfl

/-! ## One step and whole runs -/

theorem step_of_disconnected {c : SendSide} (h : c.state_ = .kDisconnected) (e : SendEvent) :
    (c.step e).state_ = .kDisconnected := by
  cases e with
  | sendInLoop message r => rw [step, sendInLoop_state_, h]
  | handleWrite r => rw [step, handleWrite_state_, h]
  | shutdown => simp [step, shutdown, h]
  | forceClose => simp [step, forceClose, h]
  | handleClose => rfl

theorem exec_of_disconnected {c : SendSide} (h : c.state_ = .kDisconnected)
    (es : List SendEvent) : (Run.exec step c es).state_ = .kDisconnected :=
  Run.exec_of_forall (I := fun c : SendSide => c.state_ = .kDisconnected)
    (fun _ e hc => step_of_disconnected hc e) h es

/-- Every event that leaves the connection connected keeps the invariant. -/
theorem step_carries {c : SendSide} {stream : Bytes} (h : c.Carries stream) {e : SendEvent}
    (hopen : (c.step e).state_ ≠ .kDisconnected) :
    (c.step e).Carries (stream ++ c.sentBy e) := by
  cases e with
  | sendInLoop message r =>
      rw [step, sendInLoop_state_] at hopen
      exact sendInLoop_carries h hopen message r
  | handleWrite r => simpa [step, sentBy] using handleWrite_carries h r
  | shutdown => simpa [step, sentBy] using h.shutdown
  | forceClose => simpa [step, sentBy] using h.forceClose
  | handleClose => exact absurd rfl hopen

/-- The induction over the run: the stream grows by what each event sent. -/
theorem exec_carries {c : SendSide} {stream : Bytes} (h : c.Carries stream)
    (es : List SendEvent) (hopen : (Run.exec step c es).state_ ≠ .kDisconnected) :
    (Run.exec step c es).Carries (stream ++ c.sent es) := by
  induction es generalizing c stream with
  | nil => simpa [sent] using h
  | cons e es ih =>
      rw [Run.exec_cons] at hopen ⊢
      -- a connection that is still up at the end was up after this event
      have hnow : (c.step e).state_ ≠ .kDisconnected :=
        fun hdown => hopen (exec_of_disconnected hdown es)
      have hrest := ih (step_carries h hnow) hopen
      rwa [List.append_assoc] at hrest

end SendSide

/-- The outgoing byte stream is loss-free and ordered.  After every sequence of sends and
    write events, with every answer of the kernel, a connection that is `kConnected` or
    `kDisconnecting` has passed on or still buffers exactly the messages sent, in call order,
    apart from those whose direct write failed with `EPIPE` or `ECONNRESET`; and it polls for
    writing exactly while its output buffer is not empty. -/
theorem outgoing_stream (writeCompleteCallback_ : Bool) (es : List SendEvent)
    (hopen : (Run.exec SendSide.step (.established writeCompleteCallback_) es).Open) :
    let c := Run.exec SendSide.step (.established writeCompleteCallback_) es
    c.accepted ++ c.outputBuffer_.readable
        = (SendSide.established writeCompleteCallback_).sent es ∧
      (c.writing = true ↔ c.outputBuffer_.readableBytes ≠ 0) := by
  intro c
  have hup : c.state_ ≠ .kDisconnected := by
    rcases hopen with hstate | hstate
    · exact ne_of_eq_of_ne hstate (by decide)
    · exact ne_of_eq_of_ne hstate (by decide)
  have hcarries :=
    SendSide.exec_carries (SendSide.established_carries writeCompleteCallback_) es hup
  have hlen := Buffer.length_readable hcarries.wf
  refine ⟨by simpa using hcarries.stream_eq, ?_⟩
  rw [hcarries.writing_iff, ← hlen]
  exact not_congr List.length_eq_zero_iff.symm

/-- A partial direct write, a message behind it, a short drain, a refused one, then a reset
    that costs a message once the buffer is empty again. -/
def backPressure : List SendEvent :=
  [.sendInLoop (str "abcd") (.accepts 1), .sendInLoop (str "ef") (.accepts 9),
   .handleWrite (.accepts 2), .handleWrite (.fails .EWOULDBLOCK), .shutdown,
   .handleWrite (.accepts 9), .sendInLoop (str "gh") (.fails .ECONNRESET),
   .sendInLoop (str "ij") (.fails .EWOULDBLOCK)]

theorem outgoing_stream_back_pressure :
    (Run.exec SendSide.step (.established true) backPressure).Open ∧
      (Run.exec SendSide.step (.established true) backPressure).accepted = str "abcdef" ∧
      (Run.exec SendSide.step (.established true) backPressure).outputBuffer_.readable = str "ij" ∧
      (SendSide.established true).sent backPressure = str "abcdefij" := by
  have hopen : (Run.exec SendSide.step (.established true) backPressure).Open := by
    decide +kernel
  have hacc : (Run.exec SendSide.step (.established true) backPressure).accepted
      = str "abcdef" := by
    decide +kernel
  have hbuf : (Run.exec SendSide.step (.established true) backPressure).outputBuffer_.readable
      = str "ij" := by
    decide +kernel
  have hstream := (outgoing_stream true backPressure hopen).1
  refine ⟨hopen, hacc, hbuf, ?_⟩
  rw [← hstream, hacc, hbuf]
  decide +kernel

end DoubleTurnouts
