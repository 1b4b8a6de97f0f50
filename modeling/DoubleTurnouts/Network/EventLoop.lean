/-
  DoubleTurnouts.Network.EventLoop

  `network::EventLoop`: the loop thread polls, handles the active channels and
  runs the functors that were queued meanwhile; any thread queues functors
  and wakes the loop through an eventfd.  The model is an interleaving of the
  loop thread's single steps with the calls of the other threads: a push (the
  mutex section), a write and a read of the eventfd are atomic, everything
  else may come in between.

  Two facts are carried along every interleaving.  What has been run, what is
  left of the batch in hand and what is pending are, in this order, all that
  was pushed (`Inv.order`).  And from the swap until the next events are
  handled, a wake-up is on its way for everything that is pending
  (`Inv.awake`); only after the events, when the fd may just have been
  drained, is there none, and there the swap comes before the next poll.
-/
import Mathlib.Tactic
import DoubleTurnouts.Lib.Run

namespace DoubleTurnouts

/-- A queued functor with the thread that pushed it (`none` is the loop thread), which the
    code does not record. -/
structure Queued (T φ : Type) where
  functor : φ
  pusher : Option T
  deriving DecidableEq, Repr

/-- A channel `poll` reports: the eventfd's, whose callback is `handleRead`, or another one. -/
inductive ActiveChannel
  | wakeupChannel_
  | other
  deriving DecidableEq, Repr

/-- Where the loop thread is in `loop()`.  In `handler` and `functor` it runs code of the
    program: the callback of a channel, or a pending functor. -/
inductive LoopPoint (T φ : Type)
  | outside
  | whileTest
  | poll
  | events (activeChannels_ : List ActiveChannel)
  | handler (rest : List ActiveChannel)
  | doPendingFunctors
  | swap
  | functors (rest : List (Queued T φ))
  | functor (rest : List (Queued T φ))
  deriving DecidableEq, Repr

/-- Where another thread is: outside, in `queueInLoop` before its `wakeup()`, or in `quit`
    before its `wakeup()`. -/
inductive OtherPoint
  | idle
  | pushed
  | quitting
  deriving DecidableEq, Repr

/-- The calls of the program. -/
inductive LoopCall (φ : Type)
  | queueInLoop (cb : φ)
  | runInLoop (cb : φ)
  | quit
  deriving DecidableEq, Repr

/-- The loop with its threads.  `wakeupFd_` is the eventfd's counter, `inCall` tells that the
    loop thread is in `queueInLoop` between its push and its test, and `pushed` and `ran` are
    the functors in the order they were pushed and started. -/
structure EventLoop (T φ : Type) where
  quit_ : Bool
  callingPendingFunctors_ : Bool
  pendingFunctors_ : List (Queued T φ)
  wakeupFd_ : Nat
  point : LoopPoint T φ
  inCall : Bool
  other : T → OtherPoint
  pushed : List (Queued T φ)
  ran : List (Queued T φ)

/-- One move: a thread starts a call, or makes the `wakeup()` that ends it; the loop thread's
    program makes a call; or the loop thread takes its next step, with what `poll` reports
    should it be there. -/
inductive LoopEvent (T φ : Type)
  | call (t : T) (c : LoopCall φ)
  | wakeup (t : T)
  | own (c : LoopCall φ)
  | next (activeChannels_ : List ActiveChannel)
  deriving DecidableEq, Repr

variable {T φ : Type}

/-- The largest value of an eventfd's counter. -/
def eventfdMax : Nat := 2 ^ 64 - 2

namespace EventLoop

/-- The loop after its constructor. -/
def new : EventLoop T φ where
  quit_ := false
  callingPendingFunctors_ := false
  pendingFunctors_ := []
  wakeupFd_ := 0
  point := .outside
  inCall := false
  other := fun _ => .idle
  pushed := []
  ran := []

/-- A write to the non-blocking eventfd fails when the counter is full. -/
def wakeup (s : EventLoop T φ) : EventLoop T φ :=
  if s.wakeupFd_ < eventfdMax then { s with wakeupFd_ := s.wakeupFd_ + 1 } else s

/-- A read takes the whole counter. -/
def handleRead (s : EventLoop T φ) : EventLoop T φ := { s with wakeupFd_ := 0 }

/-- The mutex section of `queueInLoop`. -/
def push (s : EventLoop T φ) (q : Queued T φ) : EventLoop T φ :=
  { s with pendingFunctors_ := s.pendingFunctors_ ++ [q], pushed := s.pushed ++ [q] }

/-- A call by another thread, up to its `wakeup()`.  `runInLoop` queues there. -/
def call [DecidableEq T] (s : EventLoop T φ) (t : T) : LoopCall φ → EventLoop T φ
  | .queueInLoop cb | .runInLoop cb =>
      { s.push ⟨cb, some t⟩ with other := Function.update s.other t .pushed }
  | .quit => { s with quit_ := true, other := Function.update s.other t .quitting }

/-- A call by the loop thread.  `runInLoop` runs its functor on the spot, whose own calls are
    further calls of this kind; `quit` does not wake its own thread. -/
def own (s : EventLoop T φ) : LoopCall φ → EventLoop T φ
  | .queueInLoop cb => { s.push ⟨cb, none⟩ with inCall := true }
  | .runInLoop _ => s
  | .quit => { s with quit_ := true }

/-- The end of the loop thread's `queueInLoop`: it is in the loop thread, so it depends on
    `callingPendingFunctors_` whether it wakes itself. -/
def endOwn (s : EventLoop T φ) : EventLoop T φ :=
  let s := if s.callingPendingFunctors_ then s.wakeup else s
  { s with inCall := false }

/-- The loop thread's next step in `loop()` and `doPendingFunctors()`. -/
def loop (s : EventLoop T φ) (activeChannels_ : List ActiveChannel) : EventLoop T φ :=
  match s.point with
  | .outside => { s with quit_ := false, point := .whileTest }
  | .whileTest => { s with point := if s.quit_ then .outside else .poll }
  | .poll => { s with point := .events activeChannels_ }
  | .events [] => { s with point := .doPendingFunctors }
  | .events (.wakeupChannel_ :: rest) => { s.handleRead with point := .events rest }
  | .events (.other :: rest) => { s with point := .handler rest }
  | .handler rest => { s with point := .events rest }
  | .doPendingFunctors => { s with callingPendingFunctors_ := true, point := .swap }
  | .swap => { s with pendingFunctors_ := [], point := .functors s.pendingFunctors_ }
  | .functors [] => { s with callingPendingFunctors_ := false, point := .whileTest }
  | .functors (q :: rest) => { s with ran := s.ran ++ [q], point := .functor rest }
  | .functor rest => { s with point := .functors rest }

end EventLoop

namespace LoopPoint

/-- The loop thread runs code of the program. -/
def InProgram : LoopPoint T φ → Prop
  | .handler _ | .functor _ => True
  | _ => False

instance (p : LoopPoint T φ) : Decidable p.InProgram := by
  unfold InProgram
  split <;> infer_instance

/-- The functors swapped out and not yet started. -/
def batch : LoopPoint T φ → List (Queued T φ)
  | .functors rest | .functor rest => rest
  | _ => []

/-- Between `callingPendingFunctors_ = true` and `= false`. -/
def Calling : LoopPoint T φ → Prop
  | .swap | .functors _ | .functor _ => True
  | _ => False

/-- The next swap comes after a poll. -/
def BeforePoll : LoopPoint T φ → Prop
  | .events _ | .handler _ | .doPendingFunctors | .swap => False
  | _ => True

end LoopPoint

namespace EventLoop

/-- Threads are sequential: a call starts when its thread is not in one, and the loop thread
    makes calls only from a callback or a functor. -/
def step [DecidableEq T] (s : EventLoop T φ) : LoopEvent T φ → EventLoop T φ
  | .call t c => if s.other t = .idle then s.call t c else s
  | .wakeup t =>
      if s.other t = .idle then s
      else { s.wakeup with other := Function.update s.other t .idle }
  | .own c => if s.inCall = false ∧ s.point.InProgram then s.own c else s
  | .next activeChannels_ => if s.inCall then s.endOwn else s.loop activeChannels_

/-- `poll` would report the eventfd. -/
def Readable (s : EventLoop T φ) : Prop := 0 < s.wakeupFd_

/-- The thread is between its push and its `wakeup()`. -/
def Pushing (s : EventLoop T φ) : Option T → Prop
  | none => s.inCall = true
  | some t => s.other t = .pushed

/-! ## The invariant -/

structure Inv (s : EventLoop T φ) : Prop where
  order : s.ran ++ (s.point.batch ++ s.pendingFunctors_) = s.pushed
  awake : s.point.BeforePoll → s.Readable ∨ ∀ q ∈ s.pendingFunctors_, s.Pushing q.pusher
  inProgram : s.inCall = true → s.point.InProgram
  calling : s.point.Calling → s.callingPendingFunctors_ = true

theorem new_inv : (new : EventLoop T φ).Inv where
  order := rfl
  awake := fun _ => .inr (by simp [new])
  inProgram := by simp [new]
  calling := fun h => h.elim

/-- A push goes to the end of both lists. -/
theorem Inv.order_push {s : EventLoop T φ} (h : s.Inv) (q : Queued T φ) :
    s.ran ++ (s.point.batch ++ (s.pendingFunctors_ ++ [q])) = s.pushed ++ [q] := by
  rw [← h.order]
  simp only [List.append_assoc]

theorem wakeup_readable (s : EventLoop T φ) : s.wakeup.Readable := by
  unfold wakeup Readable
  split
  · exact Nat.succ_pos _
  · rename_i hfull
    simp only [eventfdMax] at hfull
    omega

/-- A write to the eventfd changes nothing else. -/
theorem wakeup_eq (s : EventLoop T φ) : ∃ n, s.wakeup = { s with wakeupFd_ := n } := by
  unfold wakeup
  split
  · exact ⟨_, rfl⟩
  · exact ⟨s.wakeupFd_, rfl⟩

/-! ### Other threads -/

section
variable [DecidableEq T] {s : EventLoop T φ} {t : T}

/-- A thread that was idle is not one between its push and its `wakeup()`. -/
theorem Pushing.update {p : Option T} (h : s.Pushing p) (hidle : s.other t = .idle)
    (o : OtherPoint) : Pushing { s with other := Function.update s.other t o } p := by
  cases p with
  | none => exact h
  | some t' =>
      have hne : t' ≠ t := by
        rintro rfl
        exact absurd (hidle.symm.trans h) (by decide)
      show Function.update s.other t o t' = .pushed
      rw [Function.update_of_ne hne]
      exact h

/-- A push is announced by the thread that made it. -/
theorem push_inv (h : s.Inv) (hidle : s.other t = .idle) (cb : φ) :
    Inv { s.push ⟨cb, some t⟩ with other := Function.update s.other t .pushed } where
  order := h.order_push ⟨cb, some t⟩
  awake := by
    intro hbefore
    rcases h.awake hbefore with hreadable | hall
    · exact .inl hreadable
    · right
      intro q hq
      rcases List.mem_append.mp hq with hold | hnew
      · exact (hall q hold).update hidle .pushed
      · rw [List.mem_singleton.mp hnew]
        exact Function.update_self t _ s.other
  inProgram := h.inProgram
  calling := h.calling

theorem call_inv (h : s.Inv) (hidle : s.other t = .idle) (c : LoopCall φ) :
    (s.call t c).Inv := by
  cases c with
  | queueInLoop cb => exact push_inv h hidle cb
  | runInLoop cb => exact push_inv h hidle cb
  | quit =>
      refine ⟨h.order, ?_, h.inProgram, h.calling⟩
      intro hbefore
      rcases h.awake hbefore with hreadable | hall
      · exact .inl hreadable
      · exact .inr fun q hq => (hall q hq).update hidle .quitting

end

section
variable {s : EventLoop T φ}

/-- A wake-up makes the fd readable, whatever is pending. -/
theorem wakeup_inv (h : s.Inv) (other : T → OtherPoint) : Inv { s.wakeup with other := other } := by
  have hreadable := s.wakeup_readable
  obtain ⟨n, hn⟩ := s.wakeup_eq
  rw [hn] at hreadable ⊢
  exact ⟨h.order, fun _ => .inl hreadable, h.inProgram, h.calling⟩

/-! ### The loop thread -/

theorem own_inv (h : s.Inv) (hprogram : s.point.InProgram) (c : LoopCall φ) : (s.own c).Inv := by
  cases c with
  | runInLoop cb => exact h
  | quit => exact ⟨h.order, h.awake, h.inProgram, h.calling⟩
  | queueInLoop cb =>
      refine ⟨h.order_push ⟨cb, none⟩, ?_, fun _ => hprogram, h.calling⟩
      intro hbefore
      rcases h.awake hbefore with hreadable | hall
      · exact .inl hreadable
      · right
        intro q hq
        cases hp : q.pusher with
        | none => rfl
        | some t =>
            rcases List.mem_append.mp hq with hold | hnew
            · have hbetween := hall q hold
              rw [hp] at hbetween
              exact hbetween
            · rw [List.mem_singleton.mp hnew] at hp
              cases hp

/-- The loop thread wakes itself from a functor.  From a callback it need not: the swap
    follows. -/
theorem endOwn_inv (h : s.Inv) (hcall : s.inCall = true) : s.endOwn.Inv := by
  have hprogram := h.inProgram hcall
  unfold endOwn
  by_cases hcalling : s.callingPendingFunctors_ = true
  · have hreadable := s.wakeup_readable
    obtain ⟨n, hn⟩ := s.wakeup_eq
    rw [if_pos hcalling]
    rw [hn] at hreadable ⊢
    exact ⟨h.order, fun _ => .inl hreadable, by simp, h.calling⟩
  · rw [if_neg hcalling]
    refine ⟨h.order, ?_, by simp, h.calling⟩
    intro hbefore
    match hpoint : s.point with
    | .handler rest => simp only [hpoint, LoopPoint.BeforePoll] at hbefore
    | .functor rest => exact absurd (h.calling (by simp only [hpoint, LoopPoint.Calling])) hcalling
    | .outside | .whileTest | .poll | .events _ | .doPendingFunctors | .swap | .functors _ =>
        simp only [hpoint, LoopPoint.InProgram] at hprogram

/-- The steps of `loop()`.  The fd is drained only while the swap is still ahead. -/
theorem loop_inv (h : s.Inv) (hcall : s.inCall = false) (activeChannels_ : List ActiveChannel) :
    (s.loop activeChannels_).Inv := by
  have horder := h.order
  have hawake := h.awake
  have hcalling := h.calling
  have hquiet : ∀ p : LoopPoint T φ, s.inCall = true → p.InProgram := by simp [hcall]
  unfold loop
  match hpoint : s.point with
  | .outside =>
      rw [hpoint] at horder hawake
      exact ⟨horder, hawake, hquiet _, fun hc => hc.elim⟩
  | .whileTest =>
      rw [hpoint] at horder hawake
      cases hquit : s.quit_ with
      | false => exact ⟨horder, hawake, hquiet _, fun hc => hc.elim⟩
      | true => exact ⟨horder, hawake, hquiet _, fun hc => hc.elim⟩
  | .poll | .events [] | .events (.other :: rest) | .handler rest =>
      rw [hpoint] at horder
      exact ⟨horder, fun hb => hb.elim, hquiet _, fun hc => hc.elim⟩
  | .events (.wakeupChannel_ :: rest) =>
      rw [hpoint] at horder
      exact ⟨horder, fun hb => hb.elim, hquiet _, fun hc => hc.elim⟩
  | .doPendingFunctors =>
      rw [hpoint] at horder
      exact ⟨horder, fun hb => hb.elim, hquiet _, fun _ => rfl⟩
  | .swap =>
      rw [hpoint] at horder hcalling
      refine ⟨?_, fun _ => .inr (by simp), hquiet _, fun _ => hcalling trivial⟩
      simpa [LoopPoint.batch] using horder
  | .functors [] =>
      rw [hpoint] at horder hawake
      exact ⟨horder, hawake, hquiet _, fun hc => hc.elim⟩
  | .functors (q :: rest) =>
      -- the head of the batch goes over to what has been run
      rw [hpoint] at horder hawake hcalling
      refine ⟨?_, hawake, hquiet _, hcalling⟩
      show s.ran ++ [q] ++ (rest ++ s.pendingFunctors_) = s.pushed
      rw [← horder]
      simp [LoopPoint.batch]
  | .functor rest =>
      rw [hpoint] at horder hawake hcalling
      exact ⟨horder, hawake, hquiet _, hcalling⟩

end

theorem step_inv [DecidableEq T] {s : EventLoop T φ} (h : s.Inv) (e : LoopEvent T φ) :
    (s.step e).Inv := by
  cases e with
  | call t c =>
      rw [step]
      split
      · rename_i hidle
        exact call_inv h hidle c
      · exact h
  | wakeup t =>
      rw [step]
      split
      · exact h
      · exact wakeup_inv h _
  | own c =>
      rw [step]
      split
      · rename_i hfree
        exact own_inv h hfree.2 c
      · exact h
  | next activeChannels_ =>
      rw [step]
      split
      · rename_i hcall
        exact endOwn_inv h hcall
      · rename_i hcall
        exact loop_inv h (by simpa using hcall) activeChannels_

/-! ## The loop gets to every functor -/

/-- Steps of the loop thread until it has run what is pending now: through the rest of the
    batch in hand, the poll, the events and the swap. -/
def toGo (s : EventLoop T φ) : Nat :=
  let pending := s.pendingFunctors_.length
  (if s.inCall then 1 else 0) +
    match s.point with
    | .outside => 0
    | .whileTest => 2 * pending + 8
    | .poll => 2 * pending + 7
    | .events activeChannels_ => 2 * pending + 2 * activeChannels_.length + 4
    | .handler rest => 2 * pending + 2 * rest.length + 5
    | .doPendingFunctors => 2 * pending + 3
    | .swap => 2 * pending + 2
    | .functors rest => 2 * rest.length + 1 + if pending = 0 then 0 else 2 * pending + 8
    | .functor rest => 2 * rest.length + 2 + if pending = 0 then 0 else 2 * pending + 8

/-- The loop is running, and will go on after this round. -/
def Looping (s : EventLoop T φ) : Prop := s.point ≠ .outside ∧ s.quit_ = false

/-- The loop thread's own steps, when `poll` times out: the loop goes on, nothing is pushed,
    and it gets closer unless everything pushed has been run. -/
theorem next_progress [DecidableEq T] {s : EventLoop T φ} (h : s.Inv) (hloop : s.Looping) :
    s.ran = s.pushed ∨
      (s.step (.next [])).Looping ∧ (s.step (.next [])).pushed = s.pushed ∧
        (s.step (.next [])).toGo < s.toGo := by
  obtain ⟨hinside, hquit⟩ := hloop
  have horder := h.order
  cases hcall : s.inCall with
  | true =>
      -- the loop thread is in `queueInLoop`: its next step is the `wakeup()` there, if any
      right
      have hend : ∃ n, s.step (.next []) = { s with wakeupFd_ := n, inCall := false } := by
        obtain ⟨n, hn⟩ := s.wakeup_eq
        simp only [step, hcall, if_true, endOwn, hn]
        split
        · exact ⟨n, rfl⟩
        · exact ⟨s.wakeupFd_, rfl⟩
      obtain ⟨n, hn⟩ := hend
      rw [hn]
      refine ⟨⟨hinside, hquit⟩, rfl, ?_⟩
      simp only [toGo, hcall, if_true, Bool.false_eq_true, if_false]
      omega
  | false =>
      have hstep : s.step (.next []) = s.loop [] := by simp [step, hcall]
      rw [hstep]
      match hpoint : s.point with
      | .outside => exact absurd hpoint hinside
      | .whileTest | .poll | .events [] | .events (.wakeupChannel_ :: rest)
      | .events (.other :: rest) | .handler rest | .doPendingFunctors =>
          right
          simp only [loop, hpoint, Looping, toGo, hquit, hcall, handleRead, Bool.false_eq_true,
            if_false, List.length_nil, List.length_cons]
          refine ⟨⟨by simp, trivial⟩, trivial, ?_⟩
          omega
      | .swap =>
          right
          simp only [loop, hpoint, Looping, toGo, hquit, hcall, List.length_nil, if_true]
          refine ⟨⟨by simp, trivial⟩, trivial, ?_⟩
          omega
      | .functors [] =>
          rw [hpoint] at horder
          -- at the end of a batch either nothing was pushed meanwhile, or there is another round
          cases hpending : s.pendingFunctors_ with
          | nil =>
              left
              simpa [LoopPoint.batch, hpending] using horder
          | cons q rest =>
              right
              have hsome : s.pendingFunctors_.length ≠ 0 := by simp [hpending]
              simp only [loop, hpoint, Looping, toGo, hquit, hcall, if_neg hsome]
              refine ⟨⟨by simp, trivial⟩, trivial, ?_⟩
              omega
      | .functors (q :: rest) =>
          right
          simp only [loop, hpoint, Looping, toGo, hquit, hcall, List.length_cons]
          refine ⟨⟨by simp, trivial⟩, trivial, ?_⟩
          omega
      | .functor rest =>
          right
          simp only [loop, hpoint, Looping, toGo, hquit, hcall]
          refine ⟨⟨by simp, trivial⟩, trivial, ?_⟩
          omega

/-- A loop that is left alone runs everything pushed so far. -/
theorem exists_all_ran [DecidableEq T] {s : EventLoop T φ} (h : s.Inv) (hloop : s.Looping) :
    ∃ n, (Run.exec step s (List.replicate n (.next []))).ran = s.pushed := by
  have hstep : ∀ s' : EventLoop T φ, (s'.Inv ∧ s'.Looping ∧ s'.pushed = s.pushed) →
      s'.ran = s.pushed ∨
        ((s'.step (.next [])).Inv ∧ (s'.step (.next [])).Looping ∧
          (s'.step (.next [])).pushed = s.pushed) ∧ (s'.step (.next [])).toGo < s'.toGo := by
    rintro s' ⟨hinv, hlooping, hpushed⟩
    rcases next_progress hinv hlooping with hran | ⟨hnext, hsame, hlt⟩
    · exact .inl (hran.trans hpushed)
    · exact .inr ⟨⟨step_inv hinv _, hnext, hsame.trans hpushed⟩, hlt⟩
  obtain ⟨n, -, hran⟩ :=
    Run.exists_replicate toGo (LoopEvent.next []) hstep (s := s) ⟨h, hloop, rfl⟩
  exact ⟨n, hran⟩

end EventLoop

/-- Along every interleaving of the loop thread with the calls of any other threads and of its
    own program: the functors started are, in order, the first ones pushed, each once; when
    the loop thread is about to block in `poll` while functors are pending, the eventfd is
    readable or every thread that pushed one of them is still before its `wakeup()`; and a
    loop that goes on and is left alone gets to run all of them. -/
theorem queued_functors_run_once [DecidableEq T] (es : List (LoopEvent T φ)) :
    let s := Run.exec EventLoop.step (.new : EventLoop T φ) es
    s.ran <+: s.pushed ∧
      (s.point = .poll → s.quit_ = false → s.pendingFunctors_ ≠ [] →
        s.Readable ∨ ∀ q ∈ s.pendingFunctors_, ∃ t, q.pusher = some t ∧ s.other t = .pushed) ∧
      (s.point ≠ .outside → s.quit_ = false →
        ∃ n, (Run.exec EventLoop.step s (List.replicate n (.next []))).ran = s.pushed) := by
  intro s
  have hinv : s.Inv :=
    Run.exec_of_forall (I := EventLoop.Inv) (fun _ e h => EventLoop.step_inv h e)
      EventLoop.new_inv es
  refine ⟨?_, ?_, ?_⟩
  · exact ⟨_, hinv.order⟩
  · intro hpoll _ _
    have hbefore : s.point.BeforePoll := by
      rw [hpoll]
      trivial
    rcases hinv.awake hbefore with hreadable | hall
    · exact .inl hreadable
    · right
      intro q hq
      have hpushing := hall q hq
      cases hp : q.pusher with
      | some t =>
          rw [hp] at hpushing
          exact ⟨t, rfl, hpushing⟩
      | none =>
          -- the loop thread itself cannot be in a call here
          rw [hp] at hpushing
          have hprogram := hinv.inProgram hpushing
          rw [hpoll] at hprogram
          exact hprogram.elim
  · intro hinside hquit
    exact EventLoop.exists_all_ran hinv ⟨hinside, hquit⟩

/-- Thread 1 pushes and wakes before the loop is entered; thread 2 pushes while the fd is being
    drained, and a functor queues another; both are run in the next round, while thread 2 has
    still not come to its `wakeup()`. -/
def twoProducers : List (LoopEvent Nat String) :=
  [.call 1 (.queueInLoop "a"), .wakeup 1, .next [], .next [], .next [.wakeupChannel_],
   .next [], .next [], .next [], .next [], .call 2 (.runInLoop "b"), .next [],
   .own (.queueInLoop "c"), .next []]

theorem queued_functors_run_once_two_producers :
    let s := Run.exec EventLoop.step (.new : EventLoop Nat String) twoProducers
    s.ran = [⟨"a", some 1⟩] ∧ s.pendingFunctors_ = [⟨"b", some 2⟩, ⟨"c", none⟩] ∧
      ∃ n, (Run.exec EventLoop.step s (List.replicate n (.next []))).ran
        = [⟨"a", some 1⟩, ⟨"b", some 2⟩, ⟨"c", none⟩] := by
  intro s
  obtain ⟨-, -, hall⟩ := queued_functors_run_once twoProducers
  refine ⟨by decide +kernel, by decide +kernel, ?_⟩
  exact hall (by decide +kernel) (by decide +kernel)

end DoubleTurnouts
