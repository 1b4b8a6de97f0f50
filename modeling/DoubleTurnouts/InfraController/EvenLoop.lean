/-
  DoubleTurnouts.InfraController.EvenLoop

  The life of a unit's event thread: the constructor registers the RPC
  actions, starts `even_loop` and only then sets `status_`; the RPC thread
  enqueues requests from the registration on; the destructor sets
  `exit_flage_`, enqueues an `EVENT_NONE` and joins the thread.

  A request that is handled before `status_` is set is dropped without an
  answer, one that comes after the last `process` is left in the queue, and
  every other one is dispatched, once and in order.  The `EVENT_NONE` is what
  wakes a thread that sleeps in `wait`, so `join` returns.
-/
import Mathlib.Tactic
import DoubleTurnouts.Lib.BatchLoop
import DoubleTurnouts.Lib.Run

namespace DoubleTurnouts

/-- Where the owner of the unit is.  In the constructor it has registered the actions, or started
    the thread as well; in the destructor it is before `enqueue`, or in `join`. -/
inductive FlowPoint
  | registered
  | started
  | serving
  | enqueuing
  | joining
  | joined
  deriving DecidableEq, Repr

/-- A unit's queue and its thread.  In `loop` an `EVENT_NONE` is `none`, and `stop` is
    `exit_flage_`; `requests` are what the RPC actions enqueued, `dispatched` and `dropped` what the
    listeners made of it. -/
structure EvenLoop (ε : Type) where
  loop : BatchLoop (Option ε)
  status_ : Bool
  owner : FlowPoint
  requests : List ε
  dispatched : List ε
  dropped : List ε
  deriving DecidableEq, Repr

/-- The owner takes its next step, or begins to destroy the unit; an RPC action enqueues a
    request; the event thread takes its next step. -/
inductive FlowEvent (ε : Type)
  | owner
  | destroy
  | request (event : ε)
  | thread
  deriving DecidableEq, Repr

variable {ε : Type}

namespace EvenLoop

def new : EvenLoop ε where
  loop := .new
  status_ := false
  owner := .registered
  requests := []
  dispatched := []
  dropped := []

/-- The listener of an event: `_none_event`, or one that looks at `status_` first. -/
def dispatch (s : EvenLoop ε) : Option ε → EvenLoop ε
  | none => s
  | some event =>
      if s.status_ then { s with dispatched := s.dispatched ++ [event] }
      else { s with dropped := s.dropped ++ [event] }

/-- The next step of `even_loop`. -/
def even_loop (s : EvenLoop ε) : EvenLoop ε :=
  match s.loop.point with
  -- `wait` does not return while the queue is empty
  | .take => if s.loop.waiting = [] then s else { s with loop := s.loop.next }
  | .handle (event :: _) => dispatch { s with loop := s.loop.next } event
  | _ => { s with loop := s.loop.next }

/-- The owner's next step. -/
def ownerStep (s : EvenLoop ε) : EvenLoop ε :=
  match s.owner with
  | .registered => { s with owner := .started }
  | .started => { s with status_ := true, owner := .serving }
  | .serving => s
  | .enqueuing => { s with loop := s.loop.give none, owner := .joining }
  | .joining =>
      match s.loop.point with
      | .ended => { s with owner := .joined }
      | _ => s
  | .joined => s

def step (s : EvenLoop ε) : FlowEvent ε → EvenLoop ε
  | .owner => s.ownerStep
  | .destroy =>
      if s.owner = .serving then
        { s with loop := { s.loop with stop := true }, owner := .enqueuing }
      else s
  | .request event =>
      { s with loop := s.loop.give (some event), requests := s.requests ++ [event] }
  | .thread => if s.owner = .registered then s else s.even_loop

/-- The requests that are taken or waiting. -/
def pending (s : EvenLoop ε) : List ε :=
  (s.loop.point.batch ++ s.loop.waiting).filterMap id

/-- The requests that a thread which is told to stop now will not handle. -/
def left (s : EvenLoop ε) : List ε := s.loop.left.filterMap id

/-! ## The invariant -/

structure Inv (s : EvenLoop ε) : Prop where
  ordered : s.loop.Ordered
  given : s.loop.given.filterMap id = s.requests
  handled : s.loop.handled.filterMap id = s.dropped ++ s.dispatched
  early : s.status_ = false → s.dispatched = []
  status_ : s.status_ = true ↔ s.owner ≠ .registered ∧ s.owner ≠ .started
  stop : s.loop.stop = true ↔ s.owner = .enqueuing ∨ s.owner = .joining ∨ s.owner = .joined
  woken : s.owner = .joining → s.loop.point = .take → s.loop.waiting ≠ []
  ended : s.owner = .joined → s.loop.point = .ended
  stopped : s.loop.point = .ended → s.loop.stop = true

theorem new_inv : (new : EvenLoop ε).Inv where
  ordered := BatchLoop.new_ordered
  given := rfl
  handled := rfl
  early := fun _ => rfl
  status_ := by simp [new]
  stop := by simp [new, BatchLoop.new]
  woken := by simp [new]
  ended := by simp [new]
  stopped := by simp [new, BatchLoop.new]

variable {s : EvenLoop ε}

/-- What was enqueued: dropped, dispatched, or still to come. -/
theorem Inv.requests_eq (h : s.Inv) : s.dropped ++ s.dispatched ++ s.pending = s.requests := by
  have horder : s.loop.handled ++ (s.loop.point.batch ++ s.loop.waiting) = s.loop.given :=
    h.ordered
  rw [← h.handled, pending, ← List.filterMap_append, horder, h.given]

/-- The thread is asleep, takes a batch, or handles an event. -/
theorem even_loop_cases (s : EvenLoop ε) :
    (s.even_loop = s ∧ s.loop.point = .take ∧ s.loop.waiting = []) ∨
      (s.even_loop = { s with loop := s.loop.next } ∧ s.loop.next.handled = s.loop.handled ∧
        (s.loop.point = .take → s.loop.waiting ≠ [])) ∨
      ∃ event rest, s.loop.point = .handle (event :: rest) ∧
        s.even_loop = dispatch { s with loop := s.loop.next } event := by
  cases hpoint : s.loop.point with
  | test =>
      exact .inr (.inl ⟨by simp [even_loop, hpoint], by simp [BatchLoop.next, hpoint], by simp⟩)
  | take =>
      by_cases hwaiting : s.loop.waiting = []
      · exact .inl ⟨by simp [even_loop, hpoint, hwaiting], rfl, hwaiting⟩
      · exact .inr (.inl ⟨by simp [even_loop, hpoint, hwaiting], by simp [BatchLoop.next, hpoint],
          fun _ => hwaiting⟩)
  | handle rest =>
      cases rest with
      | nil =>
          exact .inr (.inl ⟨by simp [even_loop, hpoint], by simp [BatchLoop.next, hpoint], by simp⟩)
      | cons event rest =>
          exact .inr (.inr ⟨event, rest, rfl, by simp [even_loop, hpoint]⟩)
  | ended =>
      exact .inr (.inl ⟨by simp [even_loop, hpoint], by simp [BatchLoop.next, hpoint], by simp⟩)

/-- A listener adds its request to what was dispatched, or to what was dropped. -/
theorem dispatch_spec (h : s.status_ = false → s.dispatched = []) (event : Option ε) :
    let t := s.dispatch event
    t.loop = s.loop ∧ t.owner = s.owner ∧ t.status_ = s.status_ ∧ t.requests = s.requests ∧
      t.dropped ++ t.dispatched = s.dropped ++ s.dispatched ++ event.toList ∧
      (t.status_ = false → t.dispatched = []) ∧ (s.status_ = true → t.dropped = s.dropped) := by
  cases event with
  | none => simpa [dispatch] using h
  | some event =>
      cases hstatus : s.status_ with
      | true => simp [dispatch, hstatus]
      | false => simp [dispatch, hstatus, h hstatus]

theorem Inv.even_loop (h : s.Inv) : s.even_loop.Inv := by
  have hordered := h.ordered.next
  rcases even_loop_cases s with ⟨hstep, -⟩ | ⟨hstep, hhandled, hwoken⟩ |
    ⟨event, rest, hpoint, hstep⟩
  · rw [hstep]
    exact h
  · rw [hstep]
    have hended : s.owner = .joined → s.loop.next.point = .ended := fun ho => by
      simp [BatchLoop.next, h.ended ho]
    refine ⟨hordered, ?_, ?_, h.early, h.status_, ?_, ?_, hended, ?_⟩
    · rw [BatchLoop.next_given]
      exact h.given
    · rw [hhandled]
      exact h.handled
    · rw [BatchLoop.next_stop]
      exact h.stop
    · intro ho hpoint
      -- a thread that is told to stop does not come to `wait` again
      have hstop := h.stop.mpr (.inr (.inl ho))
      exfalso
      revert hpoint
      unfold BatchLoop.next
      split <;> simp_all
    · intro hpoint
      rw [BatchLoop.next_stop]
      revert hpoint
      unfold BatchLoop.next
      split <;> simp_all [h.stopped]
  · have hnext : s.loop.next =
        { s.loop with handled := s.loop.handled ++ [event], point := .handle rest } := by
      simp [BatchLoop.next, hpoint]
    obtain ⟨hloop, howner, hstatus, hrequests, hsplit, hearly, -⟩ :=
      dispatch_spec (s := { s with loop := s.loop.next }) h.early event
    rw [hstep]
    refine ⟨hloop ▸ hordered, ?_, ?_, hearly, ?_, ?_, ?_, ?_, ?_⟩
    · rw [hloop, hrequests]
      simpa using h.given
    · rw [hloop, hsplit, hnext, List.filterMap_append, h.handled]
      cases event <;> rfl
    · rw [hstatus, howner]
      exact h.status_
    · rw [hloop, howner]
      simpa using h.stop
    · intro _ htake
      rw [hloop, hnext] at htake
      cases htake
    · intro ho
      rw [howner] at ho
      cases hpoint.symm.trans (h.ended ho)
    · intro hended
      rw [hloop, hnext] at hended
      cases hended

theorem Inv.ownerStep (h : s.Inv) : s.ownerStep.Inv := by
  unfold EvenLoop.ownerStep
  split
  · rename_i ho
    exact ⟨h.ordered, h.given, h.handled, h.early, by simpa [ho] using h.status_,
      by simpa [ho] using h.stop, by simp, by simp, h.stopped⟩
  · rename_i ho
    exact ⟨h.ordered, h.given, h.handled, by simp, by simp, by simpa [ho] using h.stop, by simp,
      by simp, h.stopped⟩
  · exact h
  · rename_i ho
    refine ⟨h.ordered.give none, ?_, h.handled, h.early, by simpa [ho] using h.status_,
      by simpa [ho, BatchLoop.give] using h.stop, fun _ _ => by simp [BatchLoop.give], by simp,
      h.stopped⟩
    simpa [BatchLoop.give] using h.given
  · rename_i ho
    split
    · rename_i hended
      exact ⟨h.ordered, h.given, h.handled, h.early, by simpa [ho] using h.status_,
        by simpa [ho] using h.stop, by simp, fun _ => hended, h.stopped⟩
    · exact h
  · exact h

theorem Inv.step (h : s.Inv) (e : FlowEvent ε) : (s.step e).Inv := by
  cases e with
  | owner => exact h.ownerStep
  | destroy =>
      simp only [EvenLoop.step]
      split
      · rename_i ho
        exact ⟨h.ordered, h.given, h.handled, h.early, by simpa [ho] using h.status_, by simp,
          by simp, by simp, fun _ => rfl⟩
      · exact h
  | request event =>
      refine ⟨h.ordered.give _, ?_, h.handled, h.early, h.status_, h.stop, fun _ _ => ?_, h.ended,
        h.stopped⟩
      · simpa [EvenLoop.step, BatchLoop.give] using h.given
      · simp [EvenLoop.step, BatchLoop.give]
  | thread =>
      simp only [EvenLoop.step]
      split
      · exact h
      · exact h.even_loop

theorem exec_inv (es : List (FlowEvent ε)) : (Run.exec step (new : EvenLoop ε) es).Inv :=
  Run.exec_of_forall (fun _ e h => h.step e) new_inv es

/-! ## What does not change any more -/

/-- `status_` stays set, and nothing is dropped from then on. -/
theorem step_status (h : s.Inv) (hstatus : s.status_ = true) (e : FlowEvent ε) :
    (s.step e).status_ = true ∧ (s.step e).dropped = s.dropped := by
  cases e with
  | owner =>
      simp only [step, ownerStep]
      split
      · exact ⟨hstatus, rfl⟩
      · exact ⟨rfl, rfl⟩
      · exact ⟨hstatus, rfl⟩
      · exact ⟨hstatus, rfl⟩
      · split <;> exact ⟨hstatus, rfl⟩
      · exact ⟨hstatus, rfl⟩
  | destroy =>
      simp only [step]
      split <;> exact ⟨hstatus, rfl⟩
  | request event => exact ⟨hstatus, rfl⟩
  | thread =>
      simp only [step]
      split
      · exact ⟨hstatus, rfl⟩
      · rcases even_loop_cases s with ⟨hstep, -⟩ | ⟨hstep, -⟩ | ⟨event, rest, -, hstep⟩
        · rw [hstep]; exact ⟨hstatus, rfl⟩
        · rw [hstep]; exact ⟨hstatus, rfl⟩
        · obtain ⟨-, -, hkeep, -, -, -, hdropped⟩ :=
            dispatch_spec (s := { s with loop := s.loop.next }) h.early event
          rw [hstep]
          exact ⟨hkeep.trans hstatus, hdropped hstatus⟩

/-- A thread that has come to its end dispatches nothing. -/
theorem step_joined (h : s.Inv) (ho : s.owner = .joined) (e : FlowEvent ε) :
    (s.step e).owner = .joined ∧ (s.step e).dispatched = s.dispatched := by
  have hended := h.ended ho
  cases e with
  | owner => simp [step, ownerStep, ho]
  | destroy => simp [step, ho]
  | request event => exact ⟨ho, rfl⟩
  | thread => simp [step, ho, even_loop, hended, BatchLoop.next]

/-! ## The thread left alone -/

/-- In `join` no step of the thread is a sleep. -/
theorem joining_thread (h : s.Inv) (ho : s.owner = .joining) :
    (s.step .thread).loop = s.loop.next ∧ (s.step .thread).owner = .joining ∧
      (s.step .thread).requests = s.requests := by
  simp only [step, ho, reduceCtorEq, if_false]
  rcases even_loop_cases s with ⟨-, hpoint, hwaiting⟩ | ⟨hstep, -⟩ | ⟨event, rest, -, hstep⟩
  · exact absurd hwaiting (h.woken ho hpoint)
  · rw [hstep]
    exact ⟨rfl, ho, rfl⟩
  · obtain ⟨hloop, howner, -, hrequests, -⟩ :=
      dispatch_spec (s := { s with loop := s.loop.next }) h.early event
    rw [hstep]
    exact ⟨hloop, howner.trans ho, hrequests⟩

theorem joining_threads (h : s.Inv) (ho : s.owner = .joining) (n : Nat) :
    let t := Run.exec step s (List.replicate n .thread)
    t.Inv ∧ t.loop = Run.exec BatchLoop.step s.loop (List.replicate n .next) ∧
      t.owner = .joining ∧ t.requests = s.requests := by
  induction n generalizing s with
  | zero => exact ⟨h, rfl, ho, rfl⟩
  | succ n ih =>
      obtain ⟨hloop, howner, hrequests⟩ := joining_thread h ho
      obtain ⟨hinv, hloop', howner', hrequests'⟩ := ih (h.step .thread) howner
      rw [List.replicate_succ, List.replicate_succ, Run.exec_cons, Run.exec_cons]
      refine ⟨hinv, ?_, howner', hrequests'.trans hrequests⟩
      rw [hloop', hloop]
      rfl

/-- `join` returns, and what was left when it was entered has not been handled. -/
theorem exists_joined (h : s.Inv) (ho : s.owner = .joining) :
    ∃ n, let t := Run.exec step s (List.replicate n .thread ++ [.owner])
      t.owner = .joined ∧ t.dropped ++ t.dispatched ++ s.left = s.requests := by
  obtain ⟨n, hended, hhandled⟩ :=
    BatchLoop.exists_ended h.ordered (h.stop.mpr (.inr (.inl ho)))
  obtain ⟨hinv, hloop, howner, -⟩ := joining_threads h ho n
  refine ⟨n, ?_⟩
  rw [Run.exec_append, Run.exec_cons, Run.exec_nil]
  have hpoint : (Run.exec step s (List.replicate n .thread)).loop.point = .ended := by
    rw [hloop]
    exact hended
  have hstep : (Run.exec step s (List.replicate n .thread)).step .owner =
      { Run.exec step s (List.replicate n .thread) with owner := .joined } := by
    simp only [step, ownerStep, howner, hpoint]
  rw [hstep]
  refine ⟨rfl, ?_⟩
  dsimp only
  rw [← hinv.handled, hloop, left, ← List.filterMap_append, hhandled, h.given]

/-- The steps the thread still has to take before nothing is pending. -/
def toDo (s : EvenLoop ε) : Nat :=
  match s.loop.point with
  | .test => s.loop.waiting.length + 5
  | .take => s.loop.waiting.length + 4
  | .handle rest =>
      rest.length + if s.loop.waiting = [] then 0 else s.loop.waiting.length + 6
  | .ended => 0

/-- As long as something is pending, the thread has a step to take. -/
theorem toDo_thread (h : s.Inv) (hstop : s.loop.stop = false) (ho : s.owner ≠ .registered)
    (hpending : s.pending ≠ []) :
    (s.step .thread).loop.stop = false ∧ (s.step .thread).owner = s.owner ∧
      (s.step .thread).toDo < s.toDo := by
  have hloop : (s.step .thread).loop = s.loop.next ∧ (s.step .thread).owner = s.owner := by
    simp only [step, ho, if_false]
    rcases even_loop_cases s with ⟨-, hpoint, hwaiting⟩ | ⟨hstep, -⟩ | ⟨event, rest, -, hstep⟩
    · exact absurd (by simp [pending, hpoint, hwaiting, BatchPoint.batch]) hpending
    · rw [hstep]
      exact ⟨rfl, rfl⟩
    · obtain ⟨hloop, howner, -⟩ :=
        dispatch_spec (s := { s with loop := s.loop.next }) h.early event
      rw [hstep]
      exact ⟨hloop, howner⟩
  refine ⟨?_, hloop.2, ?_⟩
  · rw [hloop.1, BatchLoop.next_stop, hstop]
  · have hended : s.loop.point ≠ .ended := by
      intro hended
      cases hstop.symm.trans (h.stopped hended)
    unfold toDo
    rw [hloop.1]
    cases hpoint : s.loop.point with
    | test => simp [BatchLoop.next, hpoint, hstop]
    | take => simp [BatchLoop.next, hpoint]
    | handle rest =>
        cases rest with
        | nil =>
            have hwaiting : s.loop.waiting ≠ [] := by
              rintro hwaiting
              exact hpending (by simp [pending, hpoint, hwaiting, BatchPoint.batch])
            simp [BatchLoop.next, hpoint, hwaiting]
        | cons event rest => simp [BatchLoop.next, hpoint]
    | ended => exact absurd hpoint hended

/-- A thread that nobody stops gets to everything. -/
theorem exists_none_pending (h : s.Inv) (hstop : s.loop.stop = false)
    (ho : s.owner ≠ .registered) :
    ∃ n, (Run.exec step s (List.replicate n .thread)).pending = [] := by
  have hstep : ∀ t : EvenLoop ε, (t.Inv ∧ t.loop.stop = false ∧ t.owner ≠ .registered) →
      t.pending = [] ∨ ((t.step .thread).Inv ∧ (t.step .thread).loop.stop = false ∧
        (t.step .thread).owner ≠ .registered) ∧ (t.step .thread).toDo < t.toDo := by
    rintro t ⟨hinv, htstop, hto⟩
    by_cases hpending : t.pending = []
    · exact .inl hpending
    · obtain ⟨hstop', howner', hless⟩ := toDo_thread hinv htstop hto hpending
      exact .inr ⟨⟨hinv.step .thread, hstop', howner' ▸ hto⟩, hless⟩
  obtain ⟨n, -, hgoal⟩ := Run.exists_replicate toDo FlowEvent.thread hstep ⟨h, hstop, ho⟩
  exact ⟨n, hgoal⟩

end EvenLoop

/-- The requests of a unit, along every interleaving of its constructor or destructor, the RPC
    thread and the event thread.  What was enqueued is, in this order, what was dropped, what was
    dispatched and what is pending; nothing is dropped once `status_` is set.  While the unit lives,
    the thread gets to everything that is pending.  `join` returns, and all but what was left when
    it was entered has been handled by then; after it nothing is dispatched. -/
theorem unit_requests_dispatched (es : List (FlowEvent ε)) :
    let s := Run.exec EvenLoop.step (.new : EvenLoop ε) es
    s.dropped ++ s.dispatched ++ s.pending = s.requests ∧
      (s.status_ = true → ∀ fs, (Run.exec EvenLoop.step s fs).dropped = s.dropped) ∧
      (s.owner = .started ∨ s.owner = .serving →
        ∃ n, (Run.exec EvenLoop.step s (List.replicate n .thread)).pending = []) ∧
      (s.owner = .joining →
        ∃ n, let t := Run.exec EvenLoop.step s (List.replicate n .thread ++ [.owner])
          t.owner = .joined ∧ t.dropped ++ t.dispatched ++ s.left = s.requests) ∧
      (s.owner = .joined → ∀ fs, (Run.exec EvenLoop.step s fs).dispatched = s.dispatched) := by
  intro s
  have h : s.Inv := EvenLoop.exec_inv es
  refine ⟨h.requests_eq, fun hstatus fs => ?_, fun ho => ?_, EvenLoop.exists_joined h,
    fun ho fs => ?_⟩
  · have hend := Run.exec_of_forall
      (I := fun t : EvenLoop ε => t.Inv ∧ t.status_ = true ∧ t.dropped = s.dropped)
      (fun t e ht => by
        obtain ⟨hstatus', hdropped⟩ := EvenLoop.step_status ht.1 ht.2.1 e
        exact ⟨ht.1.step e, hstatus', hdropped.trans ht.2.2⟩)
      ⟨h, hstatus, rfl⟩ fs
    exact hend.2.2
  · apply EvenLoop.exists_none_pending h
    · rcases hstop : s.loop.stop with _ | _
      · rfl
      · rcases h.stop.mp hstop with hx | hx | hx <;> rcases ho with ho | ho <;>
          cases hx.symm.trans ho
    · rcases ho with ho | ho <;> simp [ho]
  · have hend := Run.exec_of_forall
      (I := fun t : EvenLoop ε => t.Inv ∧ t.owner = .joined ∧ t.dispatched = s.dispatched)
      (fun t e ht => by
        obtain ⟨ho', hdispatched⟩ := EvenLoop.step_joined ht.1 ht.2.1 e
        exact ⟨ht.1.step e, ho', hdispatched.trans ht.2.2⟩)
      ⟨h, ho, rfl⟩ fs
    exact hend.2.2

/-- A request before `status_` is set, one while the unit serves, and one that comes when the thread
    has taken its last batch. -/
def flowEvents : List (FlowEvent Nat) :=
  [.request 1, .owner, .thread, .thread, .thread, .owner, .request 2, .thread, .thread, .thread,
   .thread, .request 3, .destroy, .owner]

theorem unit_requests_dispatched_late :
    let s := Run.exec EvenLoop.step .new flowEvents
    s.dropped = [1] ∧ s.dispatched = [2] ∧
      ∃ n, let t := Run.exec EvenLoop.step s (List.replicate n .thread ++ [.owner])
        t.owner = .joined ∧ t.dropped ++ t.dispatched ++ [3] = [1, 2, 3] := by
  intro s
  have hjoins := (unit_requests_dispatched flowEvents).2.2.2.1 (by decide)
  exact ⟨by decide, by decide, hjoins⟩

end DoubleTurnouts
