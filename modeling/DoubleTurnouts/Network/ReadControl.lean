/-
  DoubleTurnouts.Network.ReadControl

  A `TcpConnection` with `startRead` and `stopRead`.  Both end in a functor of
  the connection's loop that looks at the flags of the channel, not at the
  state of the connection: one that was queued before the connection is closed
  may run after it.

  What the loop does is taken in steps of one function each, in any order: the
  functors, the callbacks of a channel that was reported, and the calls user
  code makes from inside a callback.  `Quiet` excludes the steps after which a
  closed connection is known to epoll again; `Inv` is what the others keep.
-/
import Mathlib.Tactic
import DoubleTurnouts.Lib.Run
import DoubleTurnouts.Network.Poller

namespace DoubleTurnouts

/-- What a handler still has to do for the connection: the callbacks `Channel::handleEvent` has
    not reached, or the last line of `connectDestroyed`. -/
inductive ConnPart
  | handleClose
  | handleRead
  | handleWrite
  | remove
  deriving DecidableEq, Repr

/-- The callbacks `handleEvent` runs, in its order.  `handleError` only logs. -/
def Revents.parts (revents_ : Revents) : List ConnPart :=
  (if revents_.pollhup && !revents_.pollin then [.handleClose] else []) ++
    (if revents_.pollin || revents_.pollpri || revents_.pollrdhup then [.handleRead] else []) ++
    if revents_.pollout then [.handleWrite] else []

/-- A connection with its channel.  `reading` and `side.writing` are the two flags of the
    channel's mask, `parts` is what is left of the handler that runs.  The rest is recorded for the
    statements: the calls on the channel, the state at each `handleRead` and `handleClose`, and at
    each `channel_->remove()` the state and whether the mask was empty. -/
structure ReadConn where
  side : SendSide
  reading_ : Bool
  reading : Bool
  index_ : PollIndex
  addedToLoop_ : Bool
  parts : List ConnPart
  destroyed : Bool
  calls : List PollCall
  triggered : List StateE
  removed : List (StateE × Bool)
  deriving DecidableEq, Repr

/-- The steps of the loop that concern a connection.  A part of a handler comes with the kernel's
    answers, should it read or write. -/
inductive ReadEvent
  | connectEstablished
  | startReadInLoop
  | stopReadInLoop
  | sendInLoop (message : Bytes) (r : WriteResult)
  | shutdown
  | shutdownInLoop
  | forceClose
  | forceCloseInLoop
  | connectDestroyed
  | poll (revents_ : Revents)
  | part (n : ReadResult) (r : WriteResult)
  deriving DecidableEq, Repr

namespace ReadConn

/-- The constructor. -/
def new (writeCompleteCallback_ : Bool) : ReadConn where
  side := { SendSide.established writeCompleteCallback_ with state_ := .kConnecting }
  reading_ := true
  reading := false
  index_ := .kNew
  addedToLoop_ := false
  parts := []
  destroyed := false
  calls := []
  triggered := []
  removed := []

abbrev state_ (k : ReadConn) : StateE := k.side.state_

def isOpen (k : ReadConn) : Bool := k.state_ = .kConnected || k.state_ = .kDisconnecting

/-- `channel_->isNoneEvent()`. -/
def isNoneEvent (k : ReadConn) : Bool := !k.reading && !k.side.writing

/-- `Channel::update` and what `Poller::updateChannel` makes of the channel, after its flags have
    been changed by `op`. -/
def update (k : ReadConn) (op : PollCall) : ReadConn :=
  { k with
    index_ := if k.index_ = .kAdded ∧ k.isNoneEvent = true then .kDeleted else .kAdded
    addedToLoop_ := true
    calls := k.calls ++ [op] }

def enableReading (k : ReadConn) : ReadConn := { k with reading := true }.update .enableReading

def disableReading (k : ReadConn) : ReadConn := { k with reading := false }.update .disableReading

/-- `setState(kDisconnected); channel_->disableAll();`. -/
def disconnect (k : ReadConn) : ReadConn :=
  { k with reading := false, side := k.side.handleClose }.update .disableAll

/-- A change of the send side, told to the poller if it changed the write flag. -/
def onSide (k : ReadConn) (f : SendSide → SendSide) : ReadConn :=
  let side := f k.side
  if side.writing = k.side.writing then { k with side := side }
  else { k with side := side }.update (if side.writing then .enableWriting else .disableWriting)

def connectEstablished (k : ReadConn) : ReadConn :=
  { k with side := { k.side with state_ := .kConnected } }.enableReading

def startReadInLoop (k : ReadConn) : ReadConn :=
  if !k.reading_ || !k.reading then { k.enableReading with reading_ := true } else k

def stopReadInLoop (k : ReadConn) : ReadConn :=
  if k.reading_ || k.reading then { k.disableReading with reading_ := false } else k

/-- `shutdown` up to the functor it hands to the loop. -/
def shutdown (k : ReadConn) : ReadConn :=
  if k.state_ = .kConnected then { k with side := { k.side with state_ := .kDisconnecting } } else k

/-- The user is told, and the connection is removed from its server, by steps of their own. -/
def handleClose (k : ReadConn) : ReadConn :=
  { k with triggered := k.triggered ++ [k.state_] }.disconnect

def handleRead (k : ReadConn) (n : ReadResult) : ReadConn :=
  let k := { k with triggered := k.triggered ++ [k.state_] }
  match n with
  | .data received => if 0 < received.length then k else k.handleClose
  | .error _ => k

def forceCloseInLoop (k : ReadConn) : ReadConn := if k.isOpen then k.handleClose else k

/-- `connectDestroyed` up to its last line. -/
def connectDestroyed (k : ReadConn) : ReadConn :=
  let k := { k with destroyed := true, parts := [.remove] }
  if k.state_ = .kConnected then k.disconnect else k

/-- `channel_->remove()`. -/
def remove (k : ReadConn) : ReadConn :=
  { k with
    index_ := .kNew
    addedToLoop_ := false
    calls := k.calls ++ [.remove]
    removed := k.removed ++ [(k.state_, k.isNoneEvent)] }

/-- What epoll may report for the channel: the events it asks for, and `POLLERR` and `POLLHUP`
    always. -/
def Requested (k : ReadConn) (revents_ : Revents) : Prop :=
  (revents_.pollin = true → k.reading = true) ∧
    (revents_.pollout = true → k.side.writing = true) ∧
    revents_.pollpri = false ∧ revents_.pollrdhup = false ∧ revents_.pollnval = false

instance (k : ReadConn) (revents_ : Revents) : Decidable (k.Requested revents_) := by
  unfold Requested
  infer_instance

def runPart (k : ReadConn) (n : ReadResult) (r : WriteResult) : ConnPart → ReadConn
  | .handleClose => k.handleClose
  | .handleRead => k.handleRead n
  | .handleWrite => k.onSide fun side => side.handleWrite r
  | .remove => k.remove

/-- One step after `connectEstablished`, which is called once, as `connectDestroyed` is; functors
    that close the connection or destroy it run, and the loop polls, when no handler is running;
    only a channel that is registered is reported. -/
def stepStarted (k : ReadConn) : ReadEvent → ReadConn
  | .connectEstablished => k
  | .startReadInLoop => k.startReadInLoop
  | .stopReadInLoop => k.stopReadInLoop
  | .sendInLoop message r => k.onSide fun side => side.sendInLoop message r
  | .shutdown => k.shutdown
  | .shutdownInLoop => k.onSide SendSide.shutdownInLoop
  | .forceClose => { k with side := k.side.forceClose }
  | .forceCloseInLoop => if k.parts = [] then k.forceCloseInLoop else k
  | .connectDestroyed => if k.parts = [] ∧ k.destroyed = false then k.connectDestroyed else k
  | .poll revents_ =>
      if k.parts = [] ∧ k.index_ = .kAdded ∧ k.Requested revents_ then
        { k with parts := revents_.parts }
      else k
  | .part n r =>
      match k.parts with
      | [] => k
      | p :: rest => runPart { k with parts := rest } n r p

/-- One step.  The user does not have the connection before `connectEstablished`. -/
def step (k : ReadConn) (e : ReadEvent) : ReadConn :=
  if k.state_ = .kConnecting then
    if e = .connectEstablished then k.connectEstablished else k
  else k.stepStarted e

/-- The step closes the connection. -/
def Closes (k : ReadConn) : ReadEvent → Prop
  | .forceCloseInLoop => k.parts = [] ∧ k.isOpen = true
  | .part n _ =>
      k.parts.head? = some .handleClose ∨ k.parts.head? = some .handleRead ∧ n = .data []
  | _ => False

instance (k : ReadConn) (e : ReadEvent) : Decidable (k.Closes e) := by
  cases e <;> unfold Closes <;> infer_instance

/-- The connection is closed while its channel is registered; afterwards no `startReadInLoop` is
    run, and no `stopReadInLoop` unless reading has been stopped before. -/
def Quiet (k : ReadConn) (e : ReadEvent) : Prop :=
  (k.Closes e → k.index_ = .kAdded) ∧
    (k.state_ = .kDisconnected → e ≠ .startReadInLoop ∧
      (e = .stopReadInLoop → k.reading_ = false))

instance (k : ReadConn) (e : ReadEvent) : Decidable (k.Quiet e) := by
  unfold Quiet
  infer_instance

/-! ## What the functions leave alone -/

section Fields

variable (k : ReadConn)

@[simp] theorem update_state_ (op : PollCall) : (k.update op).state_ = k.state_ := rfl
@[simp] theorem update_side (op : PollCall) : (k.update op).side = k.side := rfl
@[simp] theorem update_reading (op : PollCall) : (k.update op).reading = k.reading := rfl
@[simp] theorem update_parts (op : PollCall) : (k.update op).parts = k.parts := rfl
@[simp] theorem update_triggered (op : PollCall) : (k.update op).triggered = k.triggered := rfl
@[simp] theorem update_removed (op : PollCall) : (k.update op).removed = k.removed := rfl

@[simp] theorem disconnect_state_ : k.disconnect.state_ = .kDisconnected := rfl
@[simp] theorem disconnect_isNoneEvent : k.disconnect.isNoneEvent = true := rfl
@[simp] theorem disconnect_parts : k.disconnect.parts = k.parts := rfl
@[simp] theorem disconnect_triggered : k.disconnect.triggered = k.triggered := rfl

theorem disconnect_index_ :
    k.disconnect.index_ = if k.index_ = .kAdded then .kDeleted else .kAdded := by
  simp [disconnect, update, isNoneEvent, SendSide.handleClose]

@[simp] theorem onSide_state_ (f : SendSide → SendSide) :
    (k.onSide f).state_ = (f k.side).state_ := by
  unfold onSide
  simp only
  split <;> rfl

@[simp] theorem onSide_parts (f : SendSide → SendSide) : (k.onSide f).parts = k.parts := by
  unfold onSide
  simp only
  split <;> rfl

/-- A change that keeps the write flag is not told to the poller. -/
theorem onSide_of_writing {f : SendSide → SendSide} (h : (f k.side).writing = k.side.writing) :
    k.onSide f = { k with side := f k.side } := by
  simp only [onSide, if_pos h]

theorem onSide_of_eq {f : SendSide → SendSide} (h : f k.side = k.side) : k.onSide f = k := by
  rw [k.onSide_of_writing (by rw [h]), h]

end Fields

/-! ## Closed connections -/

/-- The invariant of the runs in which every step is quiet.  What a closed connection has left to
    do is to find that there is nothing to write, and to be removed. -/
structure Inv (k : ReadConn) : Prop where
  tail : ∀ p ∈ k.parts.tail, p = .handleWrite
  none : k.state_ = .kDisconnected → k.isNoneEvent = true
  unregistered : k.state_ = .kDisconnected → k.index_ = .kAdded → k.parts = [.remove]
  parts : k.state_ = .kDisconnected → ∀ p ∈ k.parts, p = .handleWrite ∨ p = .remove

theorem new_inv (cb : Bool) : (new cb).Inv where
  tail := by simp [new]
  none := by simp [new, state_]
  unregistered := by simp [new, state_]
  parts := by simp [new]

/-- An open connection satisfies it with any flags. -/
theorem Inv.of_open {k : ReadConn} (hopen : k.state_ ≠ .kDisconnected)
    (htail : ∀ p ∈ k.parts.tail, p = .handleWrite) : k.Inv where
  tail := htail
  none h := absurd h hopen
  unregistered h := absurd h hopen
  parts h := absurd h hopen

theorem tail_parts {revents_ : Revents} (hpri : revents_.pollpri = false)
    (hrdhup : revents_.pollrdhup = false) :
    ∀ p ∈ revents_.parts.tail, p = .handleWrite := by
  -- a hang-up is handled as a close or, with data, as a read
  cases hin : revents_.pollin <;> cases hhup : revents_.pollhup <;>
    cases hout : revents_.pollout <;>
    simp [Revents.parts, hpri, hrdhup, hin, hhup, hout]

/-- A connection that is closed while it is registered leaves the interest list. -/
theorem disconnect_inv {k : ReadConn} (hindex : k.index_ = .kAdded)
    (hparts : ∀ p ∈ k.parts, p = .handleWrite) : k.disconnect.Inv where
  tail p hp := hparts p (List.mem_of_mem_tail hp)
  none _ := rfl
  unregistered _ h := by
    rw [disconnect_index_, if_pos hindex] at h
    cases h
  parts _ p hp := Or.inl (hparts p hp)

/-! ### One step -/

section Fields

variable (k : ReadConn)

@[simp] theorem startReadInLoop_state_ : k.startReadInLoop.state_ = k.state_ := by
  unfold startReadInLoop
  split <;> rfl

@[simp] theorem startReadInLoop_parts : k.startReadInLoop.parts = k.parts := by
  unfold startReadInLoop
  split <;> rfl

@[simp] theorem stopReadInLoop_state_ : k.stopReadInLoop.state_ = k.state_ := by
  unfold stopReadInLoop
  split <;> rfl

@[simp] theorem stopReadInLoop_parts : k.stopReadInLoop.parts = k.parts := by
  unfold stopReadInLoop
  split <;> rfl

theorem shutdown_state_ne (h : k.state_ ≠ .kDisconnected) :
    k.shutdown.state_ ≠ .kDisconnected ∧ k.shutdown.parts = k.parts := by
  unfold shutdown
  split
  · exact ⟨by simp [state_], rfl⟩
  · exact ⟨h, rfl⟩

theorem forceClose_state_ne {side : SendSide} (h : side.state_ ≠ .kDisconnected) :
    side.forceClose.state_ ≠ .kDisconnected := by
  unfold SendSide.forceClose
  split
  · simp
  · exact h

end Fields

theorem stepStarted_part {k : ReadConn} {p : ConnPart} {rest : List ConnPart}
    (hparts : k.parts = p :: rest) (n : ReadResult) (r : WriteResult) :
    k.stepStarted (.part n r) = runPart { k with parts := rest } n r p := by
  simp only [stepStarted, hparts]

/-- A part of a handler, as long as the connection is open. -/
theorem runPart_inv {k : ReadConn} (hopen : k.state_ ≠ .kDisconnected)
    (hparts : ∀ p ∈ k.parts, p = .handleWrite) (n : ReadResult) (r : WriteResult) {p : ConnPart}
    (hindex : p = .handleClose ∨ p = .handleRead ∧ n = .data [] → k.index_ = .kAdded) :
    (runPart k n r p).Inv := by
  have htail : ∀ p ∈ k.parts.tail, p = .handleWrite :=
    fun p hp => hparts p (List.mem_of_mem_tail hp)
  cases p with
  | handleClose => exact disconnect_inv (hindex (Or.inl rfl)) hparts
  | handleRead =>
      cases n with
      | error errno => exact Inv.of_open hopen htail
      | data received =>
          rw [runPart, handleRead]
          split
          · exact Inv.of_open hopen htail
          · rename_i hzero
            have hnil : received = [] := List.eq_nil_of_length_eq_zero (by omega)
            exact disconnect_inv (hindex (Or.inr ⟨rfl, by rw [hnil]⟩)) hparts
  | handleWrite =>
      refine Inv.of_open ?_ (by simpa [runPart] using htail)
      simpa [runPart, SendSide.handleWrite_state_] using hopen
  | remove => exact Inv.of_open hopen htail

theorem step_inv_of_open {k : ReadConn} (h : k.Inv) (hopen : k.state_ ≠ .kDisconnected)
    {e : ReadEvent} (hq : k.Quiet e) : (k.step e).Inv := by
  by_cases hnew : k.state_ = .kConnecting
  · rw [step, if_pos hnew]
    split
    · exact Inv.of_open (by simp [connectEstablished, enableReading, state_]) h.tail
    · exact h
  · rw [step, if_neg hnew]
    cases e with
    | connectEstablished => exact h
    | startReadInLoop =>
        exact Inv.of_open (by simpa [stepStarted] using hopen) (by simpa [stepStarted] using h.tail)
    | stopReadInLoop =>
        exact Inv.of_open (by simpa [stepStarted] using hopen) (by simpa [stepStarted] using h.tail)
    | sendInLoop message r =>
        refine Inv.of_open ?_ (by simpa [stepStarted] using h.tail)
        simpa [stepStarted, SendSide.sendInLoop_state_] using hopen
    | shutdown =>
        obtain ⟨hstate, hparts⟩ := k.shutdown_state_ne hopen
        exact Inv.of_open hstate (hparts ▸ h.tail)
    | shutdownInLoop =>
        exact Inv.of_open (by simpa [stepStarted] using hopen) (by simpa [stepStarted] using h.tail)
    | forceClose => exact Inv.of_open (forceClose_state_ne hopen) h.tail
    | forceCloseInLoop =>
        simp only [stepStarted]
        split
        · rename_i hparts
          rw [forceCloseInLoop]
          split
          · rename_i hisOpen
            exact disconnect_inv (hq.1 ⟨hparts, hisOpen⟩) (by simp [hparts])
          · exact h
        · exact h
    | connectDestroyed =>
        simp only [stepStarted]
        split
        · rw [connectDestroyed]
          split
          -- between the two halves of the function the mask is empty and nothing is polled
          · exact ⟨by simp, fun _ => rfl, fun _ _ => rfl, by simp⟩
          · exact Inv.of_open hopen (by simp)
        · exact h
    | poll revents_ =>
        simp only [stepStarted]
        split
        · rename_i hpoll
          obtain ⟨-, -, -, -, hpri, hrdhup, -⟩ := hpoll
          exact Inv.of_open hopen (tail_parts hpri hrdhup)
        · exact h
    | part n r =>
        cases hparts : k.parts with
        | nil => simpa [stepStarted, hparts] using h
        | cons p rest =>
            have hrest : ∀ p ∈ rest, p = .handleWrite := by
              have htail := h.tail
              rwa [hparts] at htail
            rw [stepStarted_part hparts]
            refine runPart_inv (k := { k with parts := rest }) hopen hrest n r ?_
            intro hcloses
            refine hq.1 ?_
            simpa [Closes, hparts] using hcloses

/-- What happens to a closed connection: it stays closed, nothing is triggered, and when its
    channel is removed the mask is empty. -/
structure Rests (k k' : ReadConn) : Prop where
  state : k'.state_ = .kDisconnected
  triggered : k'.triggered = k.triggered
  removed : ∃ rs, k'.removed = k.removed ++ rs ∧ ∀ x ∈ rs, x.2 = true

/-- A step that triggers and removes nothing. -/
theorem Rests.of_eq {k k' : ReadConn} (hstate : k'.state_ = .kDisconnected)
    (htriggered : k'.triggered = k.triggered) (hremoved : k'.removed = k.removed) : Rests k k' :=
  ⟨hstate, htriggered, [], by simp [hremoved], by simp⟩

theorem Rests.refl {k : ReadConn} (h : k.state_ = .kDisconnected) : Rests k k := .of_eq h rfl rfl

theorem Rests.trans {k k' k'' : ReadConn} (h : Rests k k') (h' : Rests k' k'') : Rests k k'' := by
  obtain ⟨rs, hrs, hall⟩ := h.removed
  obtain ⟨rs', hrs', hall'⟩ := h'.removed
  refine ⟨h'.state, h'.triggered.trans h.triggered, rs ++ rs', ?_, ?_⟩
  · rw [hrs', hrs, List.append_assoc]
  · intro x hx
    rcases List.mem_append.mp hx with hx | hx
    · exact hall x hx
    · exact hall' x hx

theorem Inv.flags {k : ReadConn} (h : k.Inv) (hclosed : k.state_ = .kDisconnected) :
    k.reading = false ∧ k.side.writing = false := by
  have hnone := h.none hclosed
  simpa [isNoneEvent] using hnone

/-- A closed connection does not send. -/
theorem onSide_of_closed {k : ReadConn} (hwriting : k.side.writing = false)
    (hclosed : k.state_ = .kDisconnected) :
    (∀ message r, k.onSide (fun side => side.sendInLoop message r) = k) ∧
      ∀ r, k.onSide (fun side => side.handleWrite r) = k := by
  have hstate : k.side.state_ = .kDisconnected := hclosed
  constructor
  · intro message r
    exact onSide_of_eq k (by simp [SendSide.sendInLoop, hstate])
  · intro r
    exact onSide_of_eq k (by simp [SendSide.handleWrite, hwriting])

/-- The parts a closed connection may have left: a writable event finds nothing to write, and the
    last line of `connectDestroyed` finds the mask empty. -/
theorem runPart_of_closed {k : ReadConn} (h : k.Inv) (hclosed : k.state_ = .kDisconnected)
    {p : ConnPart} {rest : List ConnPart} (hparts : k.parts = p :: rest) (n : ReadResult)
    (r : WriteResult) :
    (runPart { k with parts := rest } n r p).Inv ∧
      Rests k (runPart { k with parts := rest } n r p) := by
  have hrest : ∀ p ∈ rest, p = .handleWrite := by
    have htail := h.tail
    rwa [hparts] at htail
  have htail : ∀ p ∈ rest.tail, p = .handleWrite := fun p hp => hrest p (List.mem_of_mem_tail hp)
  have hnone : isNoneEvent { k with parts := rest } = true := h.none hclosed
  rcases h.parts hclosed p (by simp [hparts]) with rfl | rfl
  · have hwriting := (h.flags hclosed).2
    have hkeep := (onSide_of_closed (k := { k with parts := rest }) hwriting hclosed).2 r
    rw [runPart, hkeep]
    refine ⟨⟨htail, h.none, ?_, fun _ p hp => Or.inl (hrest p hp)⟩, .of_eq hclosed rfl rfl⟩
    intro _ hindex
    have hremove := h.unregistered hclosed hindex
    rw [hparts] at hremove
    cases hremove
  · refine ⟨⟨htail, h.none, ?_, fun _ p hp => Or.inl (hrest p hp)⟩,
      ⟨hclosed, rfl, [(k.state_, true)], ?_, by simp⟩⟩
    · intro _ hindex
      cases hindex
    · simp only [runPart, remove, hnone]

theorem step_of_closed {k : ReadConn} (h : k.Inv) (hclosed : k.state_ = .kDisconnected)
    {e : ReadEvent} (hq : k.Quiet e) : (k.step e).Inv ∧ Rests k (k.step e) := by
  have hstay : k.Inv ∧ Rests k k := ⟨h, Rests.refl hclosed⟩
  have hisOpen : k.isOpen = false := by simp [isOpen, hclosed]
  obtain ⟨hreading, hwriting⟩ := h.flags hclosed
  obtain ⟨hsend, -⟩ := onSide_of_closed hwriting hclosed
  rw [step, if_neg (by simp [hclosed])]
  cases e with
  | connectEstablished => exact hstay
  | startReadInLoop => exact absurd rfl (hq.2 hclosed).1
  | stopReadInLoop =>
      have hreading_ := (hq.2 hclosed).2 rfl
      simpa [stepStarted, stopReadInLoop, hreading_, hreading] using hstay
  | sendInLoop message r => simpa [stepStarted, hsend] using hstay
  | shutdown => simpa [stepStarted, shutdown, hclosed] using hstay
  | shutdownInLoop =>
      -- the socket may be shut for writing once more
      have hside : k.stepStarted .shutdownInLoop = { k with side := k.side.shutdownInLoop } :=
        k.onSide_of_writing k.side.shutdownInLoop_writing
      rw [hside]
      have hnone : isNoneEvent { k with side := k.side.shutdownInLoop } = true := by
        simp [isNoneEvent, hreading, hwriting]
      exact ⟨⟨h.tail, fun _ => hnone, fun _ => h.unregistered hclosed, fun _ => h.parts hclosed⟩,
        .of_eq (by simpa [state_] using hclosed) rfl rfl⟩
  | forceClose => simpa [stepStarted, SendSide.forceClose, hclosed] using hstay
  | forceCloseInLoop => simpa [stepStarted, forceCloseInLoop, hisOpen] using hstay
  | connectDestroyed =>
      simp only [stepStarted]
      split
      · have hdestroy : k.connectDestroyed = { k with destroyed := true, parts := [.remove] } := by
          have hstate : k.side.state_ = .kDisconnected := hclosed
          simp [connectDestroyed, state_, hstate]
        rw [hdestroy]
        exact ⟨⟨by simp, h.none, fun _ _ => rfl, by simp⟩, .of_eq hclosed rfl rfl⟩
      · exact hstay
  | poll revents_ =>
      simp only [stepStarted]
      split
      · -- a closed connection is registered in the middle of `connectDestroyed` only
        rename_i hpoll
        have hremove := h.unregistered hclosed hpoll.2.1
        rw [hpoll.1] at hremove
        cases hremove
      · exact hstay
  | part n r =>
      cases hparts : k.parts with
      | nil => simpa [stepStarted, hparts] using hstay
      | cons p rest =>
          rw [stepStarted_part hparts]
          exact runPart_of_closed h hclosed hparts n r

theorem step_inv {k : ReadConn} (h : k.Inv) {e : ReadEvent} (hq : k.Quiet e) : (k.step e).Inv := by
  by_cases hclosed : k.state_ = .kDisconnected
  · exact (step_of_closed h hclosed hq).1
  · exact step_inv_of_open h hclosed hq

/-! ### Whole runs -/

theorem exec_inv {k : ReadConn} (h : k.Inv) {es : List ReadEvent}
    (hes : Run.AllSteps step Quiet k es) : (Run.exec step k es).Inv :=
  Run.exec_invariant (I := Inv) (fun _ _ hk hq => step_inv hk hq) h hes

theorem exec_rests {k : ReadConn} (h : k.Inv) (hclosed : k.state_ = .kDisconnected)
    {es : List ReadEvent} (hes : Run.AllSteps step Quiet k es) :
    k.Rests (Run.exec step k es) := by
  have hend := Run.exec_invariant (I := fun k' : ReadConn => k'.Inv ∧ k.Rests k')
    (fun k' e hk' hq => by
      obtain ⟨hinv, hrests⟩ := step_of_closed hk'.1 hk'.2.state hq
      exact ⟨hinv, hk'.2.trans hrests⟩) ⟨h, Rests.refl hclosed⟩ hes
  exact hend.2

end ReadConn

/-- A closed connection stays closed.  In a run of quiet steps, from the point where the connection
    is in `kDisconnected`: the mask of its channel is empty and stays so, neither `handleRead` nor
    `handleClose` is triggered, and `remove()` finds the mask empty. -/
theorem closed_stays_closed (writeCompleteCallback_ : Bool) (es fs : List ReadEvent)
    (hquiet : Run.AllSteps ReadConn.step ReadConn.Quiet (.new writeCompleteCallback_) (es ++ fs))
    (hclosed : (Run.exec ReadConn.step (.new writeCompleteCallback_) es).state_ = .kDisconnected) :
    let k := Run.exec ReadConn.step (.new writeCompleteCallback_) es
    let k' := Run.exec ReadConn.step (.new writeCompleteCallback_) (es ++ fs)
    k'.state_ = .kDisconnected ∧ k'.isNoneEvent = true ∧ k'.triggered = k.triggered ∧
      ∃ rs, k'.removed = k.removed ++ rs ∧ ∀ x ∈ rs, x.2 = true := by
  obtain ⟨hes, hfs⟩ := Run.AllSteps.append_iff.mp hquiet
  have hinv := ReadConn.exec_inv (ReadConn.new_inv writeCompleteCallback_) hes
  have hinv' := ReadConn.exec_inv (ReadConn.new_inv writeCompleteCallback_) hquiet
  have hrests := ReadConn.exec_rests hinv hclosed hfs
  rw [← Run.exec_append] at hrests
  exact ⟨hrests.state, hinv'.none hrests.state, hrests.triggered, hrests.removed⟩

/-- Data, or the end of the stream, with nothing else reported. -/
def readable : Revents := ⟨true, false, false, false, false, false, false⟩

/-- A hang-up with nothing to read. -/
def hungUp : Revents := ⟨false, false, false, false, true, false, false⟩

/-- Reading is stopped and started again while the connection is open, and stopped once more; the
    peer's hang-up closes it, and user code still sends and shuts down. -/
theorem closed_stays_closed_hangup :
    let es : List ReadEvent :=
      [.connectEstablished, .stopReadInLoop, .startReadInLoop, .poll readable,
       .part (.data []) (.accepts 0)]
    let fs : List ReadEvent :=
      [.sendInLoop [104, 105] (.accepts 2), .shutdown, .forceClose, .shutdownInLoop,
       .poll hungUp, .connectDestroyed, .part (.data []) (.accepts 0)]
    (Run.exec ReadConn.step (.new false) (es ++ fs)).triggered
      = (Run.exec ReadConn.step (.new false) es).triggered := by
  intro es fs
  exact (closed_stays_closed false es fs (by decide +kernel) (by decide +kernel)).2.2.1

/-- `startRead` and `forceClose` are called from other threads, and the functor of the former runs
    last: data that arrives is read, and the mask is not empty when the connection is destroyed.
    And a connection closed while reading is stopped is closed again by the peer's hang-up. -/
theorem start_read_reopens :
    (let es : List ReadEvent := [.connectEstablished, .forceClose, .forceCloseInLoop]
      let fs : List ReadEvent :=
        [.startReadInLoop, .poll readable, .part (.data [104]) (.accepts 0),
         .connectDestroyed, .part (.data []) (.accepts 0)]
      let k := Run.exec ReadConn.step (.new false) es
      let k' := Run.exec ReadConn.step (.new false) (es ++ fs)
      k.state_ = .kDisconnected ∧ k'.isNoneEvent = false ∧
        k'.triggered = k.triggered ++ [.kDisconnected] ∧ k'.removed = [(.kDisconnected, false)]) ∧
      let es : List ReadEvent :=
        [.connectEstablished, .stopReadInLoop, .forceClose, .forceCloseInLoop]
      let fs : List ReadEvent := [.poll hungUp, .part (.data []) (.accepts 0)]
      let k := Run.exec ReadConn.step (.new false) es
      let k' := Run.exec ReadConn.step (.new false) (es ++ fs)
      k.state_ = .kDisconnected ∧ k'.triggered = k.triggered ++ [.kDisconnected] := by
  decide +kernel

end DoubleTurnouts
