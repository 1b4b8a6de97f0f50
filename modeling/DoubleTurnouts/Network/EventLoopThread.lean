/-
  DoubleTurnouts.Network.EventLoopThread

  `network::EventLoopThread`: a thread that has an `EventLoop` on its stack.
  `startLoop` waits on a condition variable until the thread has put the
  address of the loop into `loop_`; the destructor reads `loop_`, asks the loop
  to quit and joins the thread.

  The pointer is there before `loop()` is entered and its entry resets
  `quit_`, so the destructor may ask too early; and a thread whose loop has
  come to its end by itself is not joined.  What is still queued when the loop
  is past its last swap is not run either (`Lib.BatchLoop`).
-/
import Mathlib.Tactic
import DoubleTurnouts.Lib.BatchLoop
import DoubleTurnouts.Network.EventLoop

namespace DoubleTurnouts

/-- Where `threadFunc` is: not started, before the end of `callback_`, before `loop_ = &loop`, in
    `loop()`, before `loop_ = NULL`, or returned. -/
inductive ThreadPoint
  | unborn
  | callback
  | publish
  | looping
  | clear
  | ended
  deriving DecidableEq, Repr

/-- Where the owner of the thread is.  In `startLoop` it tests `loop_` or sleeps in `cv_.wait`; in
    the destructor it is before `quit()`, before the `wakeup()` in there, or in `join()`.
    `terminated` is the end of the process: a thread that is not joined is destroyed. -/
inductive OwnerPoint
  | idle
  | test
  | waiting
  | started
  | quitting
  | waking
  | joining
  | joined
  | terminated
  deriving DecidableEq, Repr

/-- An `EventLoopThread` with the loop of its thread.  `loop_` tells that the pointer is set; of the
    threads that call the loop, `none` is the owner. -/
structure EventLoopThread (τ φ : Type) where
  loop : EventLoop (Option τ) φ
  loop_ : Bool
  exiting_ : Bool
  point : ThreadPoint
  owner : OwnerPoint

/-- The owner calls `startLoop` or the destructor, or takes its next step there; the thread takes
    its next step; a thread calls the loop, or wakes it at the end of a call; code in the loop
    thread calls it; or `cv_.wait` returns without a reason. -/
inductive ThreadEvent (τ φ : Type)
  | startLoop
  | destroy
  | owner
  | thread (activeChannels_ : List ActiveChannel)
  | call (t : Option τ) (c : LoopCall φ)
  | wakeup (t : Option τ)
  | own (c : LoopCall φ)
  | spurious
  deriving DecidableEq, Repr

variable {τ φ : Type}

/-- The event is a call of `quit()`. -/
def ThreadEvent.Quits : ThreadEvent τ φ → Prop
  | .call _ .quit | .own .quit => True
  | _ => False

namespace EventLoopThread

/-- The constructor. -/
def new : EventLoopThread τ φ where
  loop := .new
  loop_ := false
  exiting_ := false
  point := .unborn
  owner := .idle

variable [DecidableEq τ]

def startLoop (s : EventLoopThread τ φ) : EventLoopThread τ φ :=
  { s with point := .callback, owner := .test }

/-- The thread's next step in `threadFunc`. -/
def threadFunc (s : EventLoopThread τ φ) (activeChannels_ : List ActiveChannel) :
    EventLoopThread τ φ :=
  match s.point with
  | .unborn => s
  | .callback => { s with point := .publish }
  | .publish =>
      -- `notify_all` under the mutex: whoever sleeps will test again
      { s with
        loop_ := true
        point := .looping
        owner := if s.owner = .waiting then .test else s.owner }
  | .looping =>
      let loop := s.loop.step (.next activeChannels_)
      match s.loop.point, loop.point with
      | .whileTest, .outside => { s with loop := loop, point := .clear }
      | _, _ => { s with loop := loop }
  | .clear => { s with loop_ := false, point := .ended }
  | .ended => s

/-- The destructor up to its call of `quit()`. -/
def destroy (s : EventLoopThread τ φ) : EventLoopThread τ φ :=
  let s := { s with exiting_ := true }
  if s.loop_ then { s with owner := .quitting }
  else if s.point = .unborn then { s with owner := .joined }
  -- `thread_` is destroyed while it is joinable
  else { s with owner := .terminated }

/-- The owner's next step in `startLoop` or in the destructor. -/
def ownerStep (s : EventLoopThread τ φ) : EventLoopThread τ φ :=
  match s.owner with
  | .test => { s with owner := if s.loop_ then .started else .waiting }
  | .quitting => { s with loop := s.loop.step (.call none .quit), owner := .waking }
  | .waking => { s with loop := s.loop.step (.wakeup none), owner := .joining }
  | .joining => if s.point = .ended then { s with owner := .joined } else s
  | _ => s

/-- The loop is on the stack of the thread. -/
def Alive (s : EventLoopThread τ φ) : Prop := s.point ≠ .unborn ∧ s.point ≠ .ended

instance (s : EventLoopThread τ φ) : Decidable s.Alive := inferInstanceAs (Decidable (_ ∧ _))

/-- One step.  The owner is one thread: it starts the loop once, calls it when it has the pointer
    and destroys it between two calls.  Other threads may have the pointer from `callback_` on. -/
def step (s : EventLoopThread τ φ) : ThreadEvent τ φ → EventLoopThread τ φ
  | .startLoop => if s.owner = .idle ∧ s.point = .unborn then s.startLoop else s
  | .destroy =>
      if (s.owner = .idle ∨ s.owner = .started) ∧ s.loop.other none = .idle then s.destroy else s
  | .owner => s.ownerStep
  | .thread activeChannels_ => s.threadFunc activeChannels_
  | .call t c =>
      if s.Alive ∧ (t = none → s.owner = .started) then { s with loop := s.loop.step (.call t c) }
      else s
  | .wakeup t =>
      if s.Alive ∧ (t = none → s.owner = .started) then { s with loop := s.loop.step (.wakeup t) }
      else s
  | .own c => if s.point = .looping then { s with loop := s.loop.step (.own c) } else s
  | .spurious => if s.owner = .waiting then { s with owner := .test } else s

end EventLoopThread

/-! ## The loop of the thread -/

namespace EventLoop

theorem endOwn_eq {T : Type} (l : EventLoop T φ) :
    ∃ n, l.endOwn = { l with wakeupFd_ := n, inCall := false } := by
  obtain ⟨n, hn⟩ := l.wakeup_eq
  unfold endOwn
  split
  · exact ⟨n, by rw [hn]⟩
  · exact ⟨l.wakeupFd_, rfl⟩

variable {T : Type} [DecidableEq T] {l : EventLoop T φ}

/-- Only the loop thread's own steps move it. -/
theorem step_point {e : LoopEvent T φ} (he : ∀ activeChannels_, e ≠ .next activeChannels_) :
    (l.step e).point = l.point := by
  cases e with
  | call t c =>
      rw [step]
      split
      · cases c <;> rfl
      · rfl
  | wakeup t =>
      rw [step]
      split
      · rfl
      · obtain ⟨n, hn⟩ := l.wakeup_eq
        rw [hn]
  | own c =>
      rw [step]
      split
      · cases c <;> rfl
      · rfl
  | next activeChannels_ => exact absurd rfl (he activeChannels_)

/-- A step that is neither `quit()` nor one of the loop thread leaves the flag alone. -/
theorem step_quit_ {e : LoopEvent T φ} (he : ∀ activeChannels_, e ≠ .next activeChannels_)
    (hcall : ∀ t, e ≠ .call t .quit) (hown : e ≠ .own .quit) : (l.step e).quit_ = l.quit_ := by
  cases e with
  | call t c =>
      rw [step]
      split
      · cases c with
        | quit => exact absurd rfl (hcall t)
        | queueInLoop cb => rfl
        | runInLoop cb => rfl
      · rfl
  | wakeup t =>
      rw [step]
      split
      · rfl
      · obtain ⟨n, hn⟩ := l.wakeup_eq
        rw [hn]
  | own c =>
      rw [step]
      split
      · cases c with
        | quit => exact absurd rfl hown
        | queueInLoop cb => rfl
        | runInLoop cb => rfl
      · rfl
  | next activeChannels_ => exact absurd rfl (he activeChannels_)

/-- Outside of the loop thread nothing takes a `quit()` back. -/
theorem step_quit_of_quit_ {e : LoopEvent T φ} (he : ∀ activeChannels_, e ≠ .next activeChannels_)
    (hquit : l.quit_ = true) : (l.step e).quit_ = true := by
  cases e with
  | call t c =>
      rw [step]
      split
      · cases c <;> first | rfl | exact hquit
      · exact hquit
  | wakeup t =>
      rw [step]
      split
      · exact hquit
      · obtain ⟨n, hn⟩ := l.wakeup_eq
        rw [hn]
        exact hquit
  | own c =>
      rw [step]
      split
      · cases c <;> first | rfl | exact hquit
      · exact hquit
  | next activeChannels_ => exact absurd rfl (he activeChannels_)

/-- A thread's place in its calls changes by its own steps. -/
theorem step_other {e : LoopEvent T φ} {t : T} (hcall : ∀ c, e ≠ .call t c)
    (hwakeup : e ≠ .wakeup t) : (l.step e).other t = l.other t := by
  cases e with
  | call t' c =>
      have hne : t ≠ t' := by
        rintro rfl
        exact hcall c rfl
      rw [step]
      split
      · cases c <;> exact Function.update_of_ne hne _ _
      · rfl
  | wakeup t' =>
      have hne : t ≠ t' := by
        rintro rfl
        exact hwakeup rfl
      rw [step]
      split
      · rfl
      · exact Function.update_of_ne hne _ _
  | own c =>
      rw [step]
      split
      · cases c <;> rfl
      · rfl
  | next activeChannels_ =>
      rw [step]
      split
      · obtain ⟨n, hn⟩ := l.endOwn_eq
        rw [hn]
      · unfold loop
        split <;> rfl

/-- The loop thread's steps: the entry resets the flag, and the loop is left from its test when the
    flag is set. -/
theorem next_cases (l : EventLoop T φ) (activeChannels_ : List ActiveChannel) :
    (l.point = .outside ∧ (l.step (.next activeChannels_)).point = .whileTest ∧
        (l.step (.next activeChannels_)).quit_ = false) ∨
      (l.inCall = true ∨ l.point ≠ .outside) ∧
        (l.step (.next activeChannels_)).quit_ = l.quit_ ∧
        ((l.step (.next activeChannels_)).point = .outside →
          l.point = .outside ∨ l.point = .whileTest ∧ l.quit_ = true) := by
  cases hcall : l.inCall with
  | true =>
      right
      obtain ⟨n, hn⟩ := l.endOwn_eq
      simp only [step, hcall, if_true, hn]
      exact ⟨.inl trivial, trivial, .inl⟩
  | false =>
      simp only [step, hcall, Bool.false_eq_true, if_false, false_or]
      unfold loop
      split <;> rename_i hpoint
      · exact .inl ⟨hpoint, rfl, rfl⟩
      · refine .inr ⟨by simp [hpoint], rfl, fun hout => .inr ⟨hpoint, ?_⟩⟩
        by_contra hquit
        simp [hquit] at hout
      all_goals exact .inr ⟨by simp [hpoint], rfl, fun hout => by cases hout⟩

/-! ### Out of a loop that is to quit -/

/-- Steps of the loop thread until it leaves a loop that is to quit. -/
def toEnd {T : Type} (l : EventLoop T φ) : Nat :=
  let pending := l.pendingFunctors_.length
  (if l.inCall then 1 else 0) +
    match l.point with
    | .outside => 0
    | .whileTest => 1
    | .poll => 2 * pending + 7
    | .events activeChannels_ => 2 * pending + 2 * activeChannels_.length + 6
    | .handler rest => 2 * pending + 2 * rest.length + 7
    | .doPendingFunctors => 2 * pending + 5
    | .swap => 2 * pending + 4
    | .functors rest => 2 * rest.length + 2
    | .functor rest => 2 * rest.length + 3

theorem toEnd_next (hinside : l.point ≠ .outside) (hquit : l.quit_ = true) :
    (l.step (.next [])).toEnd < l.toEnd := by
  cases hcall : l.inCall with
  | true =>
      obtain ⟨n, hn⟩ := l.endOwn_eq
      simp only [step, hcall, if_true, hn, toEnd, Bool.false_eq_true, if_false]
      omega
  | false =>
      simp only [step, hcall, Bool.false_eq_true, if_false]
      unfold loop
      split <;> rename_i hpoint
      · exact absurd hpoint hinside
      all_goals
        simp only [toEnd, hpoint, hcall, hquit, handleRead, if_true, Bool.false_eq_true, if_false,
          List.length_nil, List.length_cons]
        omega

/-- The loop, its poll and its events apart, as one that takes batches. -/
def batchLoop {T : Type} (l : EventLoop T φ) : BatchLoop (Queued T φ) where
  stop := l.quit_
  waiting := l.pendingFunctors_
  point :=
    match l.point with
    | .outside => .ended
    | .whileTest => .test
    | .poll | .events _ | .handler _ | .doPendingFunctors | .swap => .take
    | .functors rest | .functor rest => .handle rest
  handled := l.ran
  given := l.pushed

/-- A step of the loop thread is one of the batch loop or none. -/
theorem batchLoop_next (hinside : l.point ≠ .outside) (activeChannels_ : List ActiveChannel) :
    (l.step (.next activeChannels_)).batchLoop = l.batchLoop ∨
      (l.step (.next activeChannels_)).batchLoop = l.batchLoop.next := by
  cases hcall : l.inCall with
  | true =>
      obtain ⟨n, hn⟩ := l.endOwn_eq
      left
      simp only [step, hcall, if_true, hn, batchLoop]
  | false =>
      simp only [step, hcall, Bool.false_eq_true, if_false]
      unfold loop
      split <;> rename_i hpoint
      · exact absurd hpoint hinside
      · right
        cases hquit : l.quit_ <;> simp [batchLoop, BatchLoop.next, hpoint, hquit]
      · exact .inl (by simp [batchLoop, hpoint])
      · exact .inl (by simp [batchLoop, hpoint])
      · exact .inl (by simp [batchLoop, hpoint, handleRead])
      · exact .inl (by simp [batchLoop, hpoint])
      · exact .inl (by simp [batchLoop, hpoint])
      · exact .inl (by simp [batchLoop, hpoint])
      · exact .inr (by simp [batchLoop, BatchLoop.next, hpoint])
      · exact .inr (by simp [batchLoop, BatchLoop.next, hpoint])
      · exact .inr (by simp [batchLoop, BatchLoop.next, hpoint])
      · exact .inl (by simp [batchLoop, hpoint])

/-- What a loop that is asked to quit now does not run: all that is pending, when its last swap is
    behind it. -/
def unrun {T : Type} (l : EventLoop T φ) : List (Queued T φ) :=
  match l.point with
  | .whileTest | .functors _ | .functor _ => l.pendingFunctors_
  | _ => []

theorem left_eq_unrun {T : Type} {l : EventLoop T φ} (hinside : l.point ≠ .outside) :
    l.batchLoop.left = l.unrun := by
  cases hpoint : l.point with
  | outside => exact absurd hpoint hinside
  | whileTest | poll | events _ | handler _ | doPendingFunctors | swap | functors _ | functor _ =>
      simp [batchLoop, BatchLoop.left, unrun, hpoint]

theorem left_next (hinside : l.point ≠ .outside) (hquit : l.quit_ = true)
    (activeChannels_ : List ActiveChannel) :
    (l.step (.next activeChannels_)).batchLoop.left = l.batchLoop.left ∧
      (l.step (.next activeChannels_)).pushed = l.pushed := by
  rcases batchLoop_next hinside activeChannels_ with heq | heq
  · exact ⟨by rw [heq], congrArg BatchLoop.given heq⟩
  · have hgiven : (l.step (.next activeChannels_)).batchLoop.given = l.batchLoop.next.given := by
      rw [heq]
    exact ⟨by rw [heq, BatchLoop.left_next hquit], hgiven.trans BatchLoop.next_given⟩

end EventLoop

/-! ## The two threads -/

namespace EventLoopThread

/-- The owner is in `startLoop`. -/
def InStartLoop (s : EventLoopThread τ φ) : Prop := s.owner = .test ∨ s.owner = .waiting

/-- `loop()` has been entered, and the pointer to the loop is still there. -/
def Entered (s : EventLoopThread τ φ) : Prop :=
  s.point = .looping ∧ s.loop.point ≠ .outside ∨ s.point = .clear

/-- The pointer is there, and `loop()` has not been entered. -/
def Early (s : EventLoopThread τ φ) : Prop := s.point = .looping ∧ s.loop.point = .outside

/-- What every step keeps. -/
structure Inv (s : EventLoopThread τ φ) : Prop where
  loop : s.loop.Inv
  pointer : s.loop_ = true ↔ s.point = .looping ∨ s.point = .clear
  waiting : s.owner = .waiting → s.loop_ = false
  started : s.owner = .started → s.point = .looping ∨ s.point = .clear ∨ s.point = .ended
  unborn : s.point = .unborn → s.owner = .idle ∨ s.owner = .joined
  outside : s.point ≠ .looping → s.loop.point = .outside

theorem new_inv : (new : EventLoopThread τ φ).Inv where
  loop := EventLoop.new_inv
  pointer := by simp [new]
  waiting := by simp [new]
  started := by simp [new]
  unborn := by simp [new]
  outside := fun _ => rfl

variable {s : EventLoopThread τ φ}

/-- The owner goes on to a point with no condition of its own. -/
theorem Inv.of_owner (h : s.Inv) {o : OwnerPoint} (hborn : s.point ≠ .unborn)
    (hwaiting : o = .waiting → s.loop_ = false)
    (hstarted : o = .started → s.loop_ = true) : Inv { s with owner := o } where
  loop := h.loop
  pointer := h.pointer
  waiting := hwaiting
  started ho := (h.pointer.mp (hstarted ho)).imp_right .inl
  unborn hpoint := absurd hpoint hborn
  outside := h.outside

theorem destroy_inv (h : s.Inv) : s.destroy.Inv := by
  have hexit : Inv { s with exiting_ := true } :=
    ⟨h.loop, h.pointer, h.waiting, h.started, h.unborn, h.outside⟩
  unfold destroy
  dsimp only
  split
  · rename_i hloop
    refine hexit.of_owner (o := .quitting) ?_ (by simp) (by simp)
    intro hunborn
    have hpoint : s.point = .unborn := hunborn
    have hset := h.pointer.mp hloop
    simp [hpoint] at hset
  · split
    · exact ⟨h.loop, h.pointer, by simp, by simp, fun _ => .inr rfl, h.outside⟩
    · rename_i hborn
      exact hexit.of_owner (o := .terminated) hborn (by simp) (by simp)

/-- A loop that has not been entered has no call in hand. -/
theorem Inv.inCall_of_outside (h : s.Inv) (hout : s.loop.point = .outside) :
    s.loop.inCall = false := by
  by_contra hcall
  have hprogram := h.loop.inProgram (by simpa using hcall)
  rw [hout] at hprogram
  exact hprogram

/-- Up to the destructor's `quit()`: as long as the loop has not been asked to quit, the thread does
    not leave it. -/
def Calm (s : EventLoopThread τ φ) : Prop :=
  s.owner = .idle ∨ s.InStartLoop ∨ s.owner = .started ∨ s.owner = .quitting →
    s.loop.quit_ = false ∧ s.point ≠ .clear ∧ s.point ≠ .ended

/-- What comes behind it is not of interest here. -/
theorem calm_of_owner (h : s.owner ≠ .idle ∧ s.owner ≠ .test ∧ s.owner ≠ .waiting ∧
    s.owner ≠ .started ∧ s.owner ≠ .quitting) : s.Calm := by
  rintro (hidle | (htest | hwaiting) | hstarted | hquitting)
  · exact absurd hidle h.1
  · exact absurd htest h.2.1
  · exact absurd hwaiting h.2.2.1
  · exact absurd hstarted h.2.2.2.1
  · exact absurd hquitting h.2.2.2.2

variable [DecidableEq τ]

/-- A call of the loop moves neither thread. -/
theorem Inv.call (h : s.Inv) {e : LoopEvent (Option τ) φ}
    (he : ∀ activeChannels_, e ≠ .next activeChannels_) :
    Inv { s with loop := s.loop.step e } where
  loop := EventLoop.step_inv h.loop e
  pointer := h.pointer
  waiting := h.waiting
  started := h.started
  unborn := h.unborn
  outside hpoint := (EventLoop.step_point he).trans (h.outside hpoint)

/-! ### One step -/

/-- The thread's steps in `loop()`: on, or out of it. -/
theorem threadFunc_looping (hpoint : s.point = .looping)
    (activeChannels_ : List ActiveChannel) :
    let loop := s.loop.step (.next activeChannels_)
    (s.loop.point = .whileTest ∧ loop.point = .outside ∧
        s.threadFunc activeChannels_ = { s with loop := loop, point := .clear }) ∨
      (¬ (s.loop.point = .whileTest ∧ loop.point = .outside) ∧
        s.threadFunc activeChannels_ = { s with loop := loop }) := by
  intro loop
  simp only [threadFunc, hpoint]
  split
  · rename_i htest hout
    exact .inl ⟨htest, hout, rfl⟩
  · rename_i hnot
    exact .inr ⟨fun hboth => hnot hboth.1 hboth.2, rfl⟩

theorem threadFunc_inv (h : s.Inv) (activeChannels_ : List ActiveChannel) :
    (s.threadFunc activeChannels_).Inv := by
  have hpointer := h.pointer
  cases hpoint : s.point with
  | unborn => simpa only [threadFunc, hpoint] using h
  | callback =>
      have hborn : s.owner ≠ .started := by
        intro hstarted
        have hset := h.started hstarted
        simp [hpoint] at hset
      simp only [threadFunc, hpoint]
      refine ⟨h.loop, by simpa [hpoint] using hpointer, h.waiting, fun hs => absurd hs hborn,
        by simp, fun _ => h.outside (by simp [hpoint])⟩
  | publish =>
      simp only [threadFunc, hpoint]
      refine ⟨h.loop, by simp, ?_, by simp, by simp, by simp⟩
      intro hwaiting
      split at hwaiting
      · cases hwaiting
      · rename_i hnot
        exact absurd hwaiting hnot
  | looping =>
      have hloop := EventLoop.step_inv h.loop (.next activeChannels_)
      have htrue : s.loop_ = true := hpointer.mpr (.inl hpoint)
      have hwaiting : s.owner ≠ .waiting := by
        intro hw
        rw [h.waiting hw] at htrue
        cases htrue
      rcases threadFunc_looping hpoint activeChannels_ with ⟨-, hout, heq⟩ | ⟨-, heq⟩
      · rw [heq]
        exact ⟨hloop, by simp [htrue], fun hw => absurd hw hwaiting, by simp, by simp,
          fun _ => hout⟩
      · rw [heq]
        exact ⟨hloop, by simp [htrue, hpoint], fun hw => absurd hw hwaiting, by simp [hpoint],
          by simp [hpoint], fun hne => absurd hpoint hne⟩
  | clear =>
      simp only [threadFunc, hpoint]
      exact ⟨h.loop, by simp, fun _ => rfl, by simp, by simp, fun _ => h.outside (by simp [hpoint])⟩
  | ended => simpa only [threadFunc, hpoint] using h

theorem ownerStep_inv (h : s.Inv) : s.ownerStep.Inv := by
  have hborn : s.owner ≠ .idle → s.owner ≠ .joined → s.point ≠ .unborn := by
    intro hidle hjoined hunborn
    exact (h.unborn hunborn).elim hidle hjoined
  unfold ownerStep
  split
  · rename_i howner
    have hpoint := hborn (by simp [howner]) (by simp [howner])
    refine h.of_owner (o := if s.loop_ then .started else .waiting) hpoint ?_ ?_
    · cases s.loop_ <;> simp
    · cases s.loop_ <;> simp
  · rename_i howner
    have hpoint := hborn (by simp [howner]) (by simp [howner])
    exact (h.call (e := .call none .quit) (by simp)).of_owner (o := .waking) hpoint (by simp)
      (by simp)
  · rename_i howner
    have hpoint := hborn (by simp [howner]) (by simp [howner])
    exact (h.call (e := .wakeup none) (by simp)).of_owner (o := .joining) hpoint (by simp)
      (by simp)
  · rename_i howner
    split
    · have hpoint := hborn (by simp [howner]) (by simp [howner])
      exact h.of_owner (o := .joined) hpoint (by simp) (by simp)
    · exact h
  · exact h

theorem step_inv (h : s.Inv) (e : ThreadEvent τ φ) : (s.step e).Inv := by
  cases e with
  | startLoop =>
      rw [step]
      split
      · rename_i hidle
        have hloop : s.loop_ = false := by
          simpa [hidle.2] using h.pointer
        exact ⟨h.loop, by simp [startLoop, hloop], by simp [startLoop], by simp [startLoop],
          by simp [startLoop], fun _ => h.outside (by simp [hidle.2])⟩
      · exact h
  | destroy =>
      rw [step]
      split
      · exact destroy_inv h
      · exact h
  | owner => exact ownerStep_inv h
  | thread activeChannels_ => exact threadFunc_inv h activeChannels_
  | call t c =>
      rw [step]
      split
      · exact h.call (by simp)
      · exact h
  | wakeup t =>
      rw [step]
      split
      · exact h.call (by simp)
      · exact h
  | own c =>
      rw [step]
      split
      · exact h.call (by simp)
      · exact h
  | spurious =>
      rw [step]
      split
      · rename_i hwaiting
        refine h.of_owner (o := .test) ?_ (by simp) (by simp)
        intro hunborn
        have howner := h.unborn hunborn
        simp [hwaiting] at howner
      · exact h

/-! ### The thread in `loop()` -/

/-- A step of the thread in `loop()`, when the loop is entered only now or its flag is not set: the
    thread stays there, and the flag is not set afterwards. -/
theorem threadFunc_stays (h : s.Inv) (hpoint : s.point = .looping)
    (hstays : s.loop.point = .outside ∨ s.loop.quit_ = false)
    (activeChannels_ : List ActiveChannel) :
    (s.threadFunc activeChannels_).point = .looping ∧
      (s.threadFunc activeChannels_).owner = s.owner ∧
      (s.threadFunc activeChannels_).loop.quit_ = false := by
  rcases threadFunc_looping hpoint activeChannels_ with ⟨htest, hout, -⟩ | ⟨-, heq⟩
  · -- it would have to leave the loop from the test of a flag that is not set
    have hinside : s.loop.point ≠ .outside := by simp [htest]
    rcases s.loop.next_cases activeChannels_ with ⟨hpre, -⟩ | ⟨-, -, hleave⟩
    · exact absurd hpre hinside
    · rcases hleave hout with hpre | ⟨-, hquit⟩
      · exact absurd hpre hinside
      · rw [hstays.resolve_left hinside] at hquit
        cases hquit
  · rw [heq]
    refine ⟨hpoint, rfl, ?_⟩
    rcases s.loop.next_cases activeChannels_ with ⟨-, -, hquit⟩ | ⟨hnot, hsame, -⟩
    · exact hquit
    · have hinside : s.loop.point ≠ .outside := by
        intro hout
        rw [h.inCall_of_outside hout] at hnot
        simp [hout] at hnot
      exact hsame.trans (hstays.resolve_left hinside)

/-! ### `startLoop` -/

/-- Only its own step takes the owner from its test to the return of `startLoop`. -/
theorem step_started (htest : s.owner = .test) {e : ThreadEvent τ φ}
    (hstarted : (s.step e).owner = .started) : s.loop_ = true := by
  have hsame : (s.step e).owner = .test → False := by
    intro h
    rw [hstarted] at h
    cases h
  cases e with
  | owner =>
      rw [step, ownerStep] at hstarted
      simp only [htest] at hstarted
      by_contra hnull
      simp [hnull] at hstarted
  | thread activeChannels_ =>
      exfalso
      apply hsame
      rw [step]
      cases hpoint : s.point with
      | looping =>
          rcases threadFunc_looping hpoint activeChannels_ with ⟨-, -, heq⟩ | ⟨-, heq⟩ <;>
            rw [heq] <;> exact htest
      | unborn | callback | publish | clear | ended => simp [threadFunc, hpoint, htest]
  | startLoop => exact (hsame (by simp [step, htest])).elim
  | destroy => exact (hsame (by simp [step, htest])).elim
  | spurious => exact (hsame (by simp [step, htest])).elim
  | call t c =>
      exfalso
      apply hsame
      rw [step]
      split <;> exact htest
  | wakeup t =>
      exfalso
      apply hsame
      rw [step]
      split <;> exact htest
  | own c =>
      exfalso
      apply hsame
      rw [step]
      split <;> exact htest

theorem Calm.call {s : EventLoopThread τ φ} (h : s.Calm) {e : LoopEvent (Option τ) φ}
    (he : ∀ activeChannels_, e ≠ .next activeChannels_) (hcall : ∀ t, e ≠ .call t .quit)
    (hown : e ≠ .own .quit) : Calm { s with loop := s.loop.step e } := by
  intro howner
  exact ⟨(EventLoop.step_quit_ he hcall hown).trans (h howner).1, (h howner).2⟩

theorem Calm.step (h : s.Calm) (hinv : s.Inv) {e : ThreadEvent τ φ} (he : ¬ e.Quits) :
    (s.step e).Calm := by
  cases e with
  | startLoop =>
      rw [EventLoopThread.step]
      split
      · rename_i hidle
        intro _
        exact ⟨(h (.inl hidle.1)).1, by simp [startLoop], by simp [startLoop]⟩
      · exact h
  | destroy =>
      rw [EventLoopThread.step]
      split
      · rename_i hdestroy
        have hbefore := h (hdestroy.1.imp id fun hstarted => .inr (.inl hstarted))
        unfold destroy
        dsimp only
        split
        · exact fun _ => hbefore
        · split
          · exact calm_of_owner (by simp)
          · exact calm_of_owner (by simp)
      · exact h
  | owner =>
      rw [EventLoopThread.step]
      unfold ownerStep
      split
      · rename_i howner
        exact fun _ => h (.inr (.inl (.inl howner)))
      · exact calm_of_owner (by simp)
      · exact calm_of_owner (by simp)
      · split
        · exact calm_of_owner (by simp)
        · exact h
      · exact h
  | thread activeChannels_ =>
      rw [EventLoopThread.step]
      cases hpoint : s.point with
      | unborn => simpa only [threadFunc, hpoint] using h
      | callback =>
          simp only [threadFunc, hpoint]
          exact fun howner => ⟨(h howner).1, by simp, by simp⟩
      | publish =>
          simp only [threadFunc, hpoint]
          intro howner
          refine ⟨(h ?_).1, by simp, by simp⟩
          by_cases hwaiting : s.owner = .waiting
          · exact .inr (.inl (.inr hwaiting))
          · simpa [InStartLoop, hwaiting] using howner
      | looping =>
          intro howner
          by_cases hbefore :
              s.owner = .idle ∨ s.InStartLoop ∨ s.owner = .started ∨ s.owner = .quitting
          · obtain ⟨hp, -, hquit⟩ := threadFunc_stays hinv hpoint (.inr (h hbefore).1)
              activeChannels_
            exact ⟨hquit, by simp [hp], by simp [hp]⟩
          · have hsame : (s.threadFunc activeChannels_).owner = s.owner := by
              rcases threadFunc_looping hpoint activeChannels_ with ⟨-, -, heq⟩ | ⟨-, heq⟩ <;>
                rw [heq]
            rw [InStartLoop, hsame] at howner
            exact absurd howner hbefore
      | clear =>
          simp only [threadFunc, hpoint]
          exact fun howner => absurd hpoint (h howner).2.1
      | ended => simpa only [threadFunc, hpoint] using h
  | call t c =>
      rw [EventLoopThread.step]
      split
      · refine h.call (by simp) ?_ (by simp)
        rintro t' heq
        cases heq
        exact he trivial
      · exact h
  | wakeup t =>
      rw [EventLoopThread.step]
      split
      · exact h.call (by simp) (by simp) (by simp)
      · exact h
  | own c =>
      rw [EventLoopThread.step]
      split
      · refine h.call (by simp) (by simp) ?_
        intro heq
        cases heq
        exact he trivial
      · exact h
  | spurious =>
      rw [EventLoopThread.step]
      split
      · rename_i hwaiting
        exact fun _ => h (.inr (.inl (.inr hwaiting)))
      · exact h

/-- The thread gets to its notification, and the owner to the pointer. -/
theorem exists_started (h : s.Inv) (hcalm : s.Calm) (hin : s.InStartLoop) :
    ∃ n, (Run.exec step s (List.replicate n (.thread []) ++ [.owner])).owner = .started := by
  have hpointer := h.pointer
  obtain ⟨-, hclear, hended⟩ := hcalm (.inr (.inl hin))
  cases hpoint : s.point with
  | unborn =>
      have howner := h.unborn hpoint
      rcases hin with htest | hwaiting
      · simp [htest] at howner
      · simp [hwaiting] at howner
  | callback =>
      refine ⟨2, ?_⟩
      rcases hin with htest | hwaiting
      · simp [List.replicate, step, threadFunc, ownerStep, hpoint, htest]
      · simp [List.replicate, step, threadFunc, ownerStep, hpoint, hwaiting]
  | publish =>
      refine ⟨1, ?_⟩
      rcases hin with htest | hwaiting
      · simp [List.replicate, step, threadFunc, ownerStep, hpoint, htest]
      · simp [List.replicate, step, threadFunc, ownerStep, hpoint, hwaiting]
  | looping =>
      refine ⟨0, ?_⟩
      have hset : s.loop_ = true := hpointer.mpr (.inl hpoint)
      rcases hin with htest | hwaiting
      · simp [step, ownerStep, htest, hset]
      · rw [h.waiting hwaiting] at hset
        cases hset
  | clear => exact absurd hpoint hclear
  | ended => exact absurd hpoint hended

/-- The pointer is gone for good. -/
def Missed (s : EventLoopThread τ φ) : Prop :=
  s.InStartLoop ∧ s.point = .ended ∧ s.loop_ = false

theorem Missed.step (h : s.Missed) (e : ThreadEvent τ φ) : (s.step e).Missed := by
  obtain ⟨hin, hended, hnull⟩ := h
  have hbusy : s.owner ≠ .idle ∧ s.owner ≠ .started := by
    rcases hin with htest | hwaiting
    · simp [htest]
    · simp [hwaiting]
  have hdead : ¬ s.Alive := fun halive => halive.2 hended
  cases e with
  | startLoop =>
      rw [EventLoopThread.step, if_neg fun hidle => hbusy.1 hidle.1]
      exact ⟨hin, hended, hnull⟩
  | destroy =>
      rw [EventLoopThread.step, if_neg fun hidle => hidle.1.elim hbusy.1 hbusy.2]
      exact ⟨hin, hended, hnull⟩
  | owner =>
      rw [EventLoopThread.step]
      rcases hin with htest | hwaiting
      · simp only [ownerStep, htest, hnull, Bool.false_eq_true, if_false]
        exact ⟨.inr rfl, hended, rfl⟩
      · simp only [ownerStep, hwaiting]
        exact ⟨.inr hwaiting, hended, hnull⟩
  | thread activeChannels_ =>
      rw [EventLoopThread.step]
      simp only [threadFunc, hended]
      exact ⟨hin, hended, hnull⟩
  | call t c =>
      rw [EventLoopThread.step, if_neg fun hcall => hdead hcall.1]
      exact ⟨hin, hended, hnull⟩
  | wakeup t =>
      rw [EventLoopThread.step, if_neg fun hcall => hdead hcall.1]
      exact ⟨hin, hended, hnull⟩
  | own c =>
      rw [EventLoopThread.step, if_neg (by simp [hended])]
      exact ⟨hin, hended, hnull⟩
  | spurious =>
      rw [EventLoopThread.step]
      split
      · exact ⟨.inl rfl, hended, hnull⟩
      · exact ⟨hin, hended, hnull⟩

/-! ### The destructor -/

/-- Left alone, a thread whose loop is to quit comes to its end, and the loop has run all but what
    was left at the time. -/
theorem exists_ended (h : s.Inv) (hentered : s.Entered) (hquit : s.loop.quit_ = true) :
    ∃ n, let f := Run.exec step s (List.replicate n (.thread []))
      f.point = .ended ∧ f.owner = s.owner ∧
        f.loop.ran ++ s.loop.batchLoop.left = s.loop.pushed := by
  let toEnd : EventLoopThread τ φ → Nat := fun t =>
    match t.point with
    | .looping => t.loop.toEnd + 2
    | .clear => 1
    | _ => 0
  let Ending : EventLoopThread τ φ → Prop := fun t =>
    t.Inv ∧ (t.Entered ∨ t.point = .ended) ∧ t.loop.quit_ = true ∧ t.owner = s.owner ∧
      t.loop.batchLoop.left = s.loop.batchLoop.left ∧ t.loop.pushed = s.loop.pushed
  have hstep : ∀ t, Ending t →
      t.point = .ended ∨ Ending (t.step (.thread [])) ∧ toEnd (t.step (.thread [])) < toEnd t := by
    rintro t ⟨hinv, hat, htquit, howner, hleft, hpushed⟩
    have hinv' := step_inv hinv (.thread [])
    rcases hat with (⟨hpoint, hinside⟩ | hpoint) | hended
    · right
      have hlt := EventLoop.toEnd_next hinside htquit
      obtain ⟨hleft', hpushed'⟩ := EventLoop.left_next hinside htquit []
      have hwaiting : t.owner ≠ .waiting := by
        intro hw
        have hset := hinv.pointer.mpr (.inl hpoint)
        rw [hinv.waiting hw] at hset
        cases hset
      have hquit' : (t.loop.step (.next [])).quit_ = true := by
        rcases t.loop.next_cases [] with ⟨hout, -⟩ | ⟨-, hsame, -⟩
        · exact absurd hout hinside
        · exact hsame.trans htquit
      rcases threadFunc_looping hpoint [] with ⟨-, -, heq⟩ | ⟨hnot, heq⟩
      · rw [step, heq] at hinv' ⊢
        refine ⟨⟨hinv', .inl (.inr rfl), hquit', howner, hleft'.trans hleft,
          hpushed'.trans hpushed⟩, ?_⟩
        simp only [toEnd, hpoint]
        omega
      · rw [step, heq] at hinv' ⊢
        have hstay : (t.loop.step (.next [])).point ≠ .outside := by
          intro hout
          rcases t.loop.next_cases [] with ⟨hpre, -⟩ | ⟨-, -, hleave⟩
          · exact hinside hpre
          · exact (hleave hout).elim hinside fun htest => hnot ⟨htest.1, hout⟩
        refine ⟨⟨hinv', .inl (.inl ⟨hpoint, hstay⟩), hquit', howner, hleft'.trans hleft,
          hpushed'.trans hpushed⟩, ?_⟩
        simp only [toEnd, hpoint]
        omega
    · right
      have heq : t.step (.thread []) = { t with loop_ := false, point := .ended } := by
        simp only [step, threadFunc, hpoint]
      rw [heq] at hinv' ⊢
      refine ⟨⟨hinv', .inr rfl, htquit, howner, hleft, hpushed⟩, ?_⟩
      simp only [toEnd, hpoint]
      omega
    · exact .inl hended
  obtain ⟨n, ⟨hinv, -, -, howner, hleft, hpushed⟩, hended⟩ :=
    Run.exists_replicate (I := Ending) toEnd (ThreadEvent.thread []) hstep (s := s)
      ⟨h, .inl hentered, hquit, rfl, rfl, rfl⟩
  refine ⟨n, hended, howner, ?_⟩
  rw [← hleft, ← hpushed]
  have hout := hinv.outside (by simp [hended])
  have horder := hinv.loop.order
  rw [hout] at horder
  simpa [EventLoop.batchLoop, BatchLoop.left, hout, LoopPoint.batch] using horder

/-- The owner is about to call a loop that its thread has destroyed: `quit()`, or `wakeup()` at
    the end of it. -/
def Dangling (s : EventLoopThread τ φ) : Prop :=
  (s.owner = .quitting ∨ s.owner = .waking) ∧ s.point = .ended

instance (s : EventLoopThread τ φ) : Decidable s.Dangling := inferInstanceAs (Decidable (_ ∧ _))

/-- The owner has asked a loop to quit that had been entered. -/
structure Leaving (s : EventLoopThread τ φ) : Prop where
  inv : s.Inv
  owner : s.owner = .waking ∨ s.owner = .joining ∨ s.owner = .joined
  point : s.Entered ∨ s.point = .ended
  quit_ : s.loop.quit_ = true

/-- Whatever calls the loop, it is still to quit. -/
theorem Leaving.call (h : s.Leaving) {e : LoopEvent (Option τ) φ}
    (he : ∀ activeChannels_, e ≠ .next activeChannels_) :
    Leaving { s with loop := s.loop.step e } := by
  refine ⟨h.inv.call he, h.owner, ?_, EventLoop.step_quit_of_quit_ he h.quit_⟩
  rw [Entered, EventLoop.step_point he]
  exact h.point

/-- A step of the thread takes it nearer to its end. -/
theorem Leaving.thread (h : s.Leaving) (activeChannels_ : List ActiveChannel) :
    (s.threadFunc activeChannels_).Leaving := by
  have hinv' := threadFunc_inv h.inv activeChannels_
  rcases h.point with (⟨hpoint, hinside⟩ | hpoint) | hended
  · have hquit' : (s.loop.step (.next activeChannels_)).quit_ = true := by
      rcases s.loop.next_cases activeChannels_ with ⟨hout, -⟩ | ⟨-, hsame, -⟩
      · exact absurd hout hinside
      · exact hsame.trans h.quit_
    rcases threadFunc_looping hpoint activeChannels_ with ⟨-, -, heq⟩ | ⟨hnot, heq⟩
    · rw [heq] at hinv' ⊢
      exact ⟨hinv', h.owner, .inl (.inr rfl), hquit'⟩
    · rw [heq] at hinv' ⊢
      refine ⟨hinv', h.owner, .inl (.inl ⟨hpoint, fun hout => ?_⟩), hquit'⟩
      rcases s.loop.next_cases activeChannels_ with ⟨hpre, -⟩ | ⟨-, -, hleave⟩
      · exact hinside hpre
      · exact (hleave hout).elim hinside fun htest => hnot ⟨htest.1, hout⟩
  · simp only [threadFunc, hpoint] at hinv' ⊢
    exact ⟨hinv', h.owner, .inr rfl, h.quit_⟩
  · simp only [threadFunc, hended] at hinv' ⊢
    exact h

theorem Leaving.step (h : s.Leaving) (e : ThreadEvent τ φ) : (s.step e).Leaving := by
  have hbusy : s.owner ≠ .idle ∧ s.owner ≠ .started ∧ s.owner ≠ .waiting := by
    rcases h.owner with howner | howner | howner <;> simp [howner]
  cases e with
  | startLoop => rwa [EventLoopThread.step, if_neg fun hidle => hbusy.1 hidle.1]
  | destroy => rwa [EventLoopThread.step, if_neg fun hidle => hidle.1.elim hbusy.1 hbusy.2.1]
  | owner =>
      rw [EventLoopThread.step]
      rcases h.owner with howner | howner | howner
      · have hwoken := h.call (e := .wakeup none) (by simp)
        have hinv' := ownerStep_inv h.inv
        simp only [ownerStep, howner] at hinv' ⊢
        exact ⟨hinv', .inr (.inl rfl), hwoken.point, hwoken.quit_⟩
      · have hinv' := ownerStep_inv h.inv
        simp only [ownerStep, howner] at hinv' ⊢
        split
        · rename_i hended
          rw [if_pos hended] at hinv'
          exact ⟨hinv', .inr (.inr rfl), h.point, h.quit_⟩
        · exact h
      · simpa only [ownerStep, howner] using h
  | thread activeChannels_ => exact h.thread activeChannels_
  | call t c =>
      rw [EventLoopThread.step]
      split
      · exact h.call (by simp)
      · exact h
  | wakeup t =>
      rw [EventLoopThread.step]
      split
      · exact h.call (by simp)
      · exact h
  | own c =>
      rw [EventLoopThread.step]
      split
      · exact h.call (by simp)
      · exact h
  | spurious => rwa [EventLoopThread.step, if_neg hbusy.2.2]

/-- The destructor's `quit()` up to its `wakeup()`. -/
theorem step_owner_quit (howner : s.owner = .quitting) (hidle : s.loop.other none = .idle) :
    (s.step .owner).owner = .waking ∧ (s.step .owner).point = s.point ∧
      (s.step .owner).loop.point = s.loop.point ∧ (s.step .owner).loop.quit_ = true := by
  simp only [step, ownerStep, howner, EventLoop.step, if_pos hidle]
  exact ⟨trivial, trivial, rfl, rfl⟩

theorem leaving_of_quit (h : s.Inv) (howner : s.owner = .quitting)
    (hidle : s.loop.other none = .idle) (hentered : s.Entered) : (s.step .owner).Leaving := by
  obtain ⟨hwaking, hpoint, hloop, hquit⟩ := step_owner_quit howner hidle
  refine ⟨step_inv h .owner, .inl hwaking, .inl ?_, hquit⟩
  rwa [Entered, hpoint, hloop]

/-- From there the owner joins the thread when both go on, unless the thread was faster. -/
theorem Leaving.exists_joined (h : s.Leaving) : s.Dangling ∨
    ∃ n, (Run.exec EventLoopThread.step s
      (.owner :: (List.replicate n (.thread []) ++ [.owner]))).owner = .joined := by
  by_cases hdangling : s.Dangling
  · exact .inl hdangling
  · right
    have hnext := h.step .owner
    have howner : (s.step .owner).owner = .joining ∨ (s.step .owner).owner = .joined := by
      rcases h.owner with ho | ho | ho
      · simp [EventLoopThread.step, ownerStep, ho]
      · by_cases hended : s.point = .ended <;> simp [EventLoopThread.step, ownerStep, ho, hended]
      · simp [EventLoopThread.step, ownerStep, ho]
    -- the last step of the owner, when the thread is at its end
    have hjoin : ∀ f : EventLoopThread τ φ, f.point = .ended →
        f.owner = .joining ∨ f.owner = .joined → (f.step .owner).owner = .joined := by
      rintro f hended (ho | ho) <;> simp [EventLoopThread.step, ownerStep, ho, hended]
    rcases hnext.point with hentered | hended
    · obtain ⟨n, hended, hsame, -⟩ := exists_ended hnext.inv hentered hnext.quit_
      refine ⟨n, ?_⟩
      rw [Run.exec_cons, Run.exec_append, Run.exec_cons, Run.exec_nil]
      exact hjoin _ hended (by rwa [hsame])
    · exact ⟨0, hjoin _ hended howner⟩

/-- The request came before the loop was entered: it is forgotten. -/
def Forgotten (s : EventLoopThread τ φ) : Prop :=
  s.Inv ∧ (s.owner = .waking ∨ s.owner = .joining) ∧ s.point = .looping ∧
    (s.loop.point = .outside ∨ s.loop.quit_ = false)

theorem Forgotten.call (h : s.Forgotten) {e : LoopEvent (Option τ) φ}
    (he : ∀ activeChannels_, e ≠ .next activeChannels_) (hcall : ∀ t, e ≠ .call t .quit)
    (hown : e ≠ .own .quit) : Forgotten { s with loop := s.loop.step e } := by
  obtain ⟨hinv, howner, hpoint, hstays⟩ := h
  refine ⟨hinv.call he, howner, hpoint, hstays.imp ?_ ?_⟩
  · exact (EventLoop.step_point he).trans
  · exact (EventLoop.step_quit_ he hcall hown).trans

theorem Forgotten.step (h : s.Forgotten) {e : ThreadEvent τ φ} (he : ¬ e.Quits) :
    (s.step e).Forgotten := by
  have hinv' := step_inv h.1 e
  have hbusy : s.owner ≠ .idle ∧ s.owner ≠ .started ∧ s.owner ≠ .waiting := by
    rcases h.2.1 with howner | howner <;> simp [howner]
  obtain ⟨hinv, howner, hpoint, hstays⟩ := h
  cases e with
  | startLoop =>
      rw [EventLoopThread.step, if_neg fun hidle => hbusy.1 hidle.1]
      exact ⟨hinv, howner, hpoint, hstays⟩
  | destroy =>
      rw [EventLoopThread.step, if_neg fun hidle => hidle.1.elim hbusy.1 hbusy.2.1]
      exact ⟨hinv, howner, hpoint, hstays⟩
  | owner =>
      rw [EventLoopThread.step] at hinv' ⊢
      rcases howner with ho | ho
      · have hwoken := Forgotten.call (e := .wakeup none) ⟨hinv, .inl ho, hpoint, hstays⟩ (by simp)
          (by simp) (by simp)
        simp only [ownerStep, ho] at hinv' ⊢
        exact ⟨hinv', .inr rfl, hpoint, hwoken.2.2.2⟩
      · simp only [ownerStep, ho, hpoint]
        exact ⟨hinv, .inr ho, hpoint, hstays⟩
  | thread activeChannels_ =>
      obtain ⟨hp, ho, hquit⟩ := threadFunc_stays hinv hpoint hstays activeChannels_
      refine ⟨hinv', ?_, hp, .inr hquit⟩
      rwa [EventLoopThread.step, ho]
  | call t c =>
      rw [EventLoopThread.step]
      split
      · refine Forgotten.call ⟨hinv, howner, hpoint, hstays⟩ (by simp) ?_ (by simp)
        rintro t' heq
        cases heq
        exact he trivial
      · exact ⟨hinv, howner, hpoint, hstays⟩
  | wakeup t =>
      rw [EventLoopThread.step]
      split
      · exact Forgotten.call ⟨hinv, howner, hpoint, hstays⟩ (by simp) (by simp) (by simp)
      · exact ⟨hinv, howner, hpoint, hstays⟩
  | own c =>
      rw [EventLoopThread.step, if_pos hpoint]
      refine Forgotten.call ⟨hinv, howner, hpoint, hstays⟩ (by simp) (by simp) ?_
      intro heq
      cases heq
      exact he trivial
  | spurious =>
      rw [EventLoopThread.step, if_neg hbusy.2.2]
      exact ⟨hinv, howner, hpoint, hstays⟩

/-- Nothing is done for a process that is terminated. -/
theorem terminated_step (h : s.owner = .terminated) (e : ThreadEvent τ φ) :
    (s.step e).owner = .terminated := by
  cases e with
  | owner => simp [step, ownerStep, h]
  | thread activeChannels_ =>
      rw [step]
      cases hpoint : s.point with
      | looping =>
          rcases threadFunc_looping hpoint activeChannels_ with ⟨-, -, heq⟩ | ⟨-, heq⟩ <;>
            rw [heq] <;> exact h
      | unborn | callback | publish | clear | ended => simp [threadFunc, hpoint, h]
  | startLoop | destroy | spurious => simp [step, h]
  | call t c =>
      rw [step]
      split <;> exact h
  | wakeup t =>
      rw [step]
      split <;> exact h
  | own c =>
      rw [step]
      split <;> exact h

/-- Where the owner and the thread are when `quit()` is called. -/
def AtQuit (s : EventLoopThread τ φ) : Prop :=
  s.owner = .quitting → s.loop.other none = .idle ∧ (s.Entered ∨ s.Early ∨ s.Dangling)

omit [DecidableEq τ] in
theorem atQuit_of_owner (h : s.owner ≠ .quitting) : s.AtQuit := fun hquitting => absurd hquitting h

/-- The thread is somewhere behind the publication of the pointer. -/
theorem atQuit_of_point (hidle : s.loop.other none = .idle)
    (hpoint : s.point = .looping ∨ s.point = .clear ∨ s.point = .ended) : s.AtQuit := by
  refine fun hquitting => ⟨hidle, ?_⟩
  rcases hpoint with hpoint | hpoint | hpoint
  · by_cases hout : s.loop.point = .outside
    · exact .inr (.inl ⟨hpoint, hout⟩)
    · exact .inl (.inl ⟨hpoint, hout⟩)
  · exact .inl (.inr hpoint)
  · exact .inr (.inr ⟨.inl hquitting, hpoint⟩)

omit [DecidableEq τ] in
theorem AtQuit.point (h : s.AtQuit) (hquitting : s.owner = .quitting) :
    s.point = .looping ∨ s.point = .clear ∨ s.point = .ended := by
  rcases (h hquitting).2 with (hentered | hclear) | hearly | hdangling
  · exact .inl hentered.1
  · exact .inr (.inl hclear)
  · exact .inl hearly.1
  · exact .inr (.inr hdangling.2)

theorem AtQuit.call (h : s.AtQuit) {e : LoopEvent (Option τ) φ}
    (hcall : s.owner = .quitting → ∀ c, e ≠ .call none c)
    (hwakeup : s.owner = .quitting → e ≠ .wakeup none) :
    AtQuit { s with loop := s.loop.step e } := by
  intro hquitting
  refine atQuit_of_point (s := { s with loop := s.loop.step e }) ?_ (h.point hquitting) hquitting
  exact (EventLoop.step_other (hcall hquitting) (hwakeup hquitting)).trans (h hquitting).1

theorem AtQuit.step (h : s.AtQuit) (hinv : s.Inv) (e : ThreadEvent τ φ) : (s.step e).AtQuit := by
  cases e with
  | startLoop =>
      rw [EventLoopThread.step]
      split
      · exact atQuit_of_owner (by simp [startLoop])
      · exact h
  | destroy =>
      rw [EventLoopThread.step]
      split
      · rename_i hdestroy
        unfold destroy
        dsimp only
        split
        · rename_i hset
          exact atQuit_of_point hdestroy.2 ((hinv.pointer.mp hset).imp_right .inl)
        · split
          · exact atQuit_of_owner (by simp)
          · exact atQuit_of_owner (by simp)
      · exact h
  | owner =>
      rw [EventLoopThread.step]
      unfold ownerStep
      split
      · apply atQuit_of_owner
        cases s.loop_ <;> simp
      · exact atQuit_of_owner (by simp)
      · exact atQuit_of_owner (by simp)
      · split
        · exact atQuit_of_owner (by simp)
        · exact h
      · exact h
  | thread activeChannels_ =>
      rw [EventLoopThread.step]
      cases hpoint : s.point with
      | unborn | ended => simpa only [threadFunc, hpoint] using h
      | callback =>
          apply atQuit_of_owner
          intro hquitting
          have hlater := h.point (by simpa only [threadFunc, hpoint] using hquitting)
          simp [hpoint] at hlater
      | publish =>
          apply atQuit_of_owner
          intro hquitting
          simp only [threadFunc, hpoint] at hquitting
          have hlater := h.point (by
            split at hquitting
            · cases hquitting
            · exact hquitting)
          simp [hpoint] at hlater
      | looping =>
          have hother : (s.loop.step (.next activeChannels_)).other none = s.loop.other none :=
            EventLoop.step_other (by simp) (by simp)
          rcases threadFunc_looping hpoint activeChannels_ with ⟨-, -, heq⟩ | ⟨-, heq⟩ <;> rw [heq]
          · exact fun hquitting =>
              atQuit_of_point (hother.trans (h hquitting).1) (.inr (.inl rfl)) hquitting
          · exact fun hquitting =>
              atQuit_of_point (hother.trans (h hquitting).1) (.inl hpoint) hquitting
      | clear =>
          simp only [threadFunc, hpoint]
          exact fun hquitting => atQuit_of_point (h hquitting).1 (.inr (.inr rfl)) hquitting
  | call t c =>
      rw [EventLoopThread.step]
      split
      · rename_i hcall
        refine h.call (fun hquitting c' heq => ?_) (by simp)
        cases heq
        simp [hcall.2 rfl] at hquitting
      · exact h
  | wakeup t =>
      rw [EventLoopThread.step]
      split
      · rename_i hcall
        refine h.call (by simp) fun hquitting heq => ?_
        cases heq
        simp [hcall.2 rfl] at hquitting
      · exact h
  | own c =>
      rw [EventLoopThread.step]
      split
      · exact h.call (by simp) (by simp)
      · exact h
  | spurious =>
      rw [EventLoopThread.step]
      split
      · exact atQuit_of_owner (by simp)
      · exact h

theorem exec_inv (es : List (ThreadEvent τ φ)) : (Run.exec step new es).Inv :=
  Run.exec_of_forall (I := Inv) (fun _ e h => step_inv h e) new_inv es

theorem exec_atQuit (es : List (ThreadEvent τ φ)) : (Run.exec step new es).AtQuit := by
  have hboth := Run.exec_of_forall (I := fun t : EventLoopThread τ φ => t.Inv ∧ t.AtQuit)
    (fun _ e h => ⟨step_inv h.1 e, h.2.step h.1 e⟩)
    ⟨new_inv, atQuit_of_owner (by simp [new])⟩ es
  exact hboth.2

end EventLoopThread

/-! ## Whole runs -/

section Runs

variable [DecidableEq τ]

/-- Up to the destructor's `quit()` a loop that nobody asks to quit keeps its thread. -/
theorem exec_calm {es : List (ThreadEvent τ φ)} (hquiet : ∀ e ∈ es, ¬ e.Quits) :
    (Run.exec EventLoopThread.step .new es).Calm := by
  have hcalm := Run.exec_invariant (I := fun t : EventLoopThread τ φ => t.Inv ∧ t.Calm)
    (P := fun _ e => ¬ e.Quits) (fun t e h he => ⟨EventLoopThread.step_inv h.1 e, h.2.step h.1 he⟩)
    ⟨EventLoopThread.new_inv, fun _ =>
      ⟨rfl, by simp [EventLoopThread.new], by simp [EventLoopThread.new]⟩⟩
    (Run.AllSteps.of_forall hquiet)
  exact hcalm.2

/-- The handshake of `startLoop`, along every interleaving of the owner, the thread and any other
    threads.  When `startLoop` returns, the callback is over and the loop is alive.  The owner never
    sleeps while the pointer is there.  If nobody asks the loop to quit, `startLoop` returns as soon
    as the thread has gone on; but once the thread has come to its end, it never does. -/
theorem start_loop_handshake (es : List (ThreadEvent τ φ)) :
    let s := Run.exec EventLoopThread.step .new es
    (Run.AllSteps EventLoopThread.step
        (fun s e => s.owner = .test → (s.step e).owner = .started →
          s.point = .looping ∨ s.point = .clear) .new es) ∧
      (s.owner = .waiting → s.loop_ = false) ∧
      ((∀ e ∈ es, ¬ e.Quits) → s.InStartLoop →
        ∃ n, (Run.exec EventLoopThread.step s
          (List.replicate n (.thread []) ++ [.owner])).owner = .started) ∧
      (s.InStartLoop → s.point = .ended →
        ∀ fs, (Run.exec EventLoopThread.step s fs).InStartLoop) := by
  intro s
  have hinv : s.Inv := EventLoopThread.exec_inv es
  refine ⟨?_, hinv.waiting, ?_, ?_⟩
  · refine Run.AllSteps.of_invariant (I := EventLoopThread.Inv) (P := fun _ _ => True)
      (fun _ e h _ => EventLoopThread.step_inv h e) ?_ EventLoopThread.new_inv
      (Run.AllSteps.of_forall fun _ _ => trivial)
    intro t e h _ htest hstarted
    exact h.pointer.mp (EventLoopThread.step_started htest hstarted)
  · intro hquiet hin
    exact EventLoopThread.exists_started hinv (exec_calm hquiet) hin
  · intro hin hended fs
    have hnull : s.loop_ = false := by
      simpa [hended] using hinv.pointer
    exact (Run.exec_of_forall (I := EventLoopThread.Missed) (fun _ e h => h.step e)
      ⟨hin, hended, hnull⟩ fs).1

/-- The owner sleeps before the thread has got to the pointer. -/
def sleepingOwner : List (ThreadEvent Nat String) :=
  [.startLoop, .owner, .spurious, .owner, .thread []]

theorem start_loop_handshake_sleeping :
    (Run.exec EventLoopThread.step .new sleepingOwner).owner = .waiting ∧
      ∃ n, (Run.exec EventLoopThread.step (Run.exec EventLoopThread.step .new sleepingOwner)
        (List.replicate n (.thread []) ++ [.owner])).owner = .started := by
  have hwaiting : (Run.exec EventLoopThread.step .new sleepingOwner).owner = .waiting := by
    decide +kernel
  refine ⟨hwaiting, ?_⟩
  refine (start_loop_handshake sleepingOwner).2.2.1 ?_ (.inr hwaiting)
  simp [sleepingOwner, ThreadEvent.Quits]

/-- What becomes of the destructor, along every interleaving of the owner, the thread and any other
    threads.

    It reads `loop_` when `startLoop` has returned.  A thread that has come to its end by then is
    not joined, and the process is terminated.

    Its call of `quit()` may come any number of steps later.  By then `loop()` has been entered, or
    it has not, or the thread has come to its end in between and the loop is destroyed; the last
    only if somebody else has asked it to quit.  A loop that has been entered is left: from any
    state that the run comes to, the thread is joined when it is left alone, unless it has come to
    its end before the `wakeup()` in `quit()`, which it can.  A loop that has not been entered
    forgets the request, and `join` never returns unless somebody else asks it to quit. -/
theorem destructor_outcome (es : List (ThreadEvent τ φ)) :
    let s := Run.exec EventLoopThread.step .new es
    (s.owner = .started → s.loop.other none = .idle →
        (s.point ≠ .ended → (s.step .destroy).owner = .quitting) ∧
        (s.point = .ended → ∀ fs,
          (Run.exec EventLoopThread.step (s.step .destroy) fs).owner = .terminated)) ∧
      (s.owner = .quitting →
        (s.Entered ∨ s.Early ∨ s.Dangling) ∧
        ((∀ e ∈ es, ¬ e.Quits) → ¬ s.Dangling) ∧
        (s.Entered → ∀ fs, let t := Run.exec EventLoopThread.step (s.step .owner) fs
          t.Dangling ∨ ∃ n, (Run.exec EventLoopThread.step t
            (.owner :: (List.replicate n (.thread []) ++ [.owner]))).owner = .joined) ∧
        (s.Entered → ∃ n, (Run.exec EventLoopThread.step (s.step .owner)
          (List.replicate n (.thread []))).Dangling) ∧
        (s.Early → ∀ fs, (∀ e ∈ fs, ¬ e.Quits) →
          let t := Run.exec EventLoopThread.step (s.step .owner) fs
          t.point = .looping ∧ (t.owner = .waking ∨ t.owner = .joining))) := by
  intro s
  have hinv : s.Inv := EventLoopThread.exec_inv es
  refine ⟨?_, ?_⟩
  · intro hstarted hidle
    constructor
    · intro hpoint
      have hset : s.loop_ = true :=
        hinv.pointer.mpr ((hinv.started hstarted).imp id fun h => h.resolve_right hpoint)
      simp [EventLoopThread.step, hstarted, hidle, EventLoopThread.destroy, hset]
    · intro hended fs
      have hnull : s.loop_ = false := by
        simpa [hended] using hinv.pointer
      refine Run.exec_of_forall (I := fun t : EventLoopThread τ φ => t.owner = .terminated)
        (fun _ e h => EventLoopThread.terminated_step h e) ?_ fs
      simp [EventLoopThread.step, hstarted, hidle, EventLoopThread.destroy, hnull, hended]
  · intro hquitting
    obtain ⟨hidle, hplace⟩ := EventLoopThread.exec_atQuit es hquitting
    obtain ⟨howner, hpoint, hloop, hquit⟩ := EventLoopThread.step_owner_quit hquitting hidle
    refine ⟨hplace, ?_, ?_, ?_, ?_⟩
    · intro hquiet hdangling
      exact (exec_calm hquiet (.inr (.inr (.inr hquitting)))).2.2 hdangling.2
    · intro hentered fs
      exact (Run.exec_of_forall (I := EventLoopThread.Leaving) (fun _ e h => h.step e)
        (EventLoopThread.leaving_of_quit hinv hquitting hidle hentered) fs).exists_joined
    · intro hentered
      have hentered' : (s.step .owner).Entered := by
        rwa [EventLoopThread.Entered, hpoint, hloop]
      obtain ⟨n, hended, hsame, -⟩ := EventLoopThread.exists_ended
        (EventLoopThread.step_inv hinv .owner) hentered' hquit
      exact ⟨n, .inr (hsame.trans howner), hended⟩
    · intro hearly fs hfs
      have hforgotten : (s.step .owner).Forgotten :=
        ⟨EventLoopThread.step_inv hinv .owner, .inl howner, hpoint.trans hearly.1,
          .inl (hloop.trans hearly.2)⟩
      obtain ⟨-, hjoining, hlooping, -⟩ := Run.exec_invariant (I := EventLoopThread.Forgotten)
        (P := fun _ e => ¬ ThreadEvent.Quits e) (fun _ _ h he => h.step he) hforgotten
        (Run.AllSteps.of_forall hfs)
      exact ⟨hlooping, hjoining⟩

/-- The pointer is there, and the loop has not been entered. -/
def justStarted : List (ThreadEvent Nat String) :=
  [.startLoop, .thread [], .thread [], .owner]

/-- The thread may or may not take a step between the read of `loop_` and `quit()`. -/
theorem destructor_outcome_just_started :
    (∀ fs : List (ThreadEvent Nat String), (∀ e ∈ fs, ¬ e.Quits) →
        (Run.exec EventLoopThread.step ((Run.exec EventLoopThread.step .new
          (justStarted ++ [.destroy])).step .owner) fs).point = .looping) ∧
      ∃ n, (Run.exec EventLoopThread.step ((Run.exec EventLoopThread.step .new
        (justStarted ++ [.destroy, .thread []])).step .owner)
          (.owner :: (List.replicate n (.thread []) ++ [.owner]))).owner = .joined := by
  have hearly := (destructor_outcome (justStarted ++ [.destroy])).2 (by decide +kernel)
  have hlate := (destructor_outcome (justStarted ++ [.destroy, .thread []])).2 (by decide +kernel)
  refine ⟨fun fs hfs => (hearly.2.2.2.2 ⟨by decide +kernel, by decide +kernel⟩ fs hfs).1, ?_⟩
  exact (hlate.2.2.1 (.inl ⟨by decide +kernel, by decide +kernel⟩) []).resolve_left
    (by decide +kernel)

/-- Which functors a loop that is asked to quit still runs, along every interleaving.  If it is left
    alone it ends, and has then run all that was pushed, in order, but those that were pending when
    it had its last swap behind it: between that swap and the test of `quit_`.  Before the swap none
    is lost. -/
theorem functors_left_at_quit (es : List (ThreadEvent τ φ)) :
    let s := Run.exec EventLoopThread.step .new es
    s.point = .looping → s.loop.point ≠ .outside → s.loop.quit_ = true →
      ∃ n, let f := Run.exec EventLoopThread.step s (List.replicate n (.thread []))
        f.point = .ended ∧ f.loop.ran ++ s.loop.unrun = s.loop.pushed := by
  intro s hpoint hinside hquit
  have hinv : s.Inv := EventLoopThread.exec_inv es
  obtain ⟨n, hended, -, hran⟩ :=
    EventLoopThread.exists_ended hinv (.inl ⟨hpoint, hinside⟩) hquit
  rw [EventLoop.left_eq_unrun hinside] at hran
  exact ⟨n, hended, hran⟩

/-- One functor is in the batch when the owner queues another and destroys the thread. -/
def lateFunctor : List (ThreadEvent Nat String) :=
  justStarted ++ [.call none (.queueInLoop "a"), .wakeup none, .thread [], .thread [], .thread [],
    .thread [], .thread [], .thread [], .call none (.queueInLoop "b"), .wakeup none, .destroy,
    .owner, .owner]

theorem functors_left_at_quit_late :
    ∃ n, (Run.exec EventLoopThread.step (Run.exec EventLoopThread.step .new lateFunctor)
      (List.replicate n (.thread []))).loop.ran = [⟨"a", some none⟩] := by
  obtain ⟨n, -, hran⟩ := functors_left_at_quit lateFunctor (by decide +kernel) (by decide +kernel)
    (by decide +kernel)
  have hsplit : (Run.exec EventLoopThread.step .new lateFunctor).loop.pushed
      = [⟨"a", some none⟩] ++ (Run.exec EventLoopThread.step .new lateFunctor).loop.unrun := by
    decide +kernel
  exact ⟨n, List.append_cancel_right (hran.trans hsplit)⟩

end Runs

end DoubleTurnouts
