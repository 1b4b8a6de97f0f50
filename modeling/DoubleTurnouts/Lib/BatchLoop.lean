/-
  DoubleTurnouts.Lib.BatchLoop

  A loop that tests a stop flag, takes all that is waiting as one batch, and
  handles the batch piece by piece, while others give it more at any time.

  What has been handled, what is left of the batch and what is waiting are, in
  this order, all that was given (`Ordered`).  A loop that is stopped still
  takes one more batch only if it had tested the flag before: `left` is what
  it will never handle, and does not change any more (`left_next`).
-/
import Mathlib.Data.List.Basic
import DoubleTurnouts.Lib.Run

namespace DoubleTurnouts

/-- Where the loop is. -/
inductive BatchPoint (α : Type)
  | test
  | take
  | handle (rest : List α)
  | ended
  deriving DecidableEq, Repr

/-- The loop with what is waiting for it.  `handled` and `given` are what was handled and given, in
    order. -/
structure BatchLoop (α : Type) where
  stop : Bool
  waiting : List α
  point : BatchPoint α
  handled : List α
  given : List α
  deriving DecidableEq, Repr

inductive BatchEvent (α : Type)
  | give (a : α)
  | stop
  | next
  deriving DecidableEq, Repr

variable {α : Type}

namespace BatchPoint

/-- The pieces taken and not yet handled. -/
def batch : BatchPoint α → List α
  | .handle rest => rest
  | _ => []

end BatchPoint

namespace BatchLoop

/-- A loop that has not started. -/
def new : BatchLoop α where
  stop := false
  waiting := []
  point := .test
  handled := []
  given := []

def give (s : BatchLoop α) (a : α) : BatchLoop α :=
  { s with waiting := s.waiting ++ [a], given := s.given ++ [a] }

/-- The next step of the loop itself. -/
def next (s : BatchLoop α) : BatchLoop α :=
  match s.point with
  | .test => { s with point := if s.stop then .ended else .take }
  | .take => { s with waiting := [], point := .handle s.waiting }
  | .handle [] => { s with point := .test }
  | .handle (a :: rest) => { s with handled := s.handled ++ [a], point := .handle rest }
  | .ended => s

def step (s : BatchLoop α) : BatchEvent α → BatchLoop α
  | .give a => s.give a
  | .stop => { s with stop := true }
  | .next => s.next

/-- Everything given is handled, in hand or waiting, in this order. -/
def Ordered (s : BatchLoop α) : Prop := s.handled ++ (s.point.batch ++ s.waiting) = s.given

/-- What a loop that is stopped now will not handle. -/
def left (s : BatchLoop α) : List α :=
  match s.point with
  | .take => []
  | _ => s.waiting

/-! ## One step -/

theorem new_ordered : (new : BatchLoop α).Ordered := rfl

variable {s : BatchLoop α}

theorem Ordered.give (h : s.Ordered) (a : α) : (s.give a).Ordered := by
  show s.handled ++ (s.point.batch ++ (s.waiting ++ [a])) = s.given ++ [a]
  rw [← h]
  simp only [List.append_assoc]

theorem Ordered.next (h : s.Ordered) : s.next.Ordered := by
  have horder : s.handled ++ (s.point.batch ++ s.waiting) = s.given := h
  unfold BatchLoop.next Ordered
  split
  · rename_i hpoint
    rw [hpoint] at horder
    dsimp only
    split <;> exact horder
  · rename_i hpoint
    rw [hpoint] at horder
    simpa [BatchPoint.batch] using horder
  · rename_i hpoint
    rw [hpoint] at horder
    exact horder
  · rename_i a rest hpoint
    rw [hpoint] at horder
    simpa [BatchPoint.batch] using horder
  · exact horder

@[simp] theorem next_stop : s.next.stop = s.stop := by
  unfold next
  split <;> rfl

@[simp] theorem next_given : s.next.given = s.given := by
  unfold next
  split <;> rfl

/-- Once it is to stop, the loop's own steps settle nothing about what is left. -/
theorem left_next (hstop : s.stop = true) : s.next.left = s.left := by
  unfold next
  split
  · rename_i hpoint
    simp [left, hpoint, hstop]
  · rename_i hpoint
    simp [left, hpoint]
  · rename_i hpoint
    simp [left, hpoint]
  · rename_i a rest hpoint
    simp [left, hpoint]
  · rfl

/-- At the end the loop has handled all but what is left. -/
theorem handled_append_left (h : s.Ordered) (hended : s.point = .ended) :
    s.handled ++ s.left = s.given := by
  have horder : s.handled ++ (s.point.batch ++ s.waiting) = s.given := h
  rw [hended] at horder
  rw [left, hended]
  exact horder

/-! ## The end -/

/-- Steps to the end of a loop that is to stop. -/
def toEnd (s : BatchLoop α) : Nat :=
  match s.point with
  | .test => 1
  | .take => s.waiting.length + 3
  | .handle rest => rest.length + 2
  | .ended => 0

theorem toEnd_next (hstop : s.stop = true) : s.point = .ended ∨ s.next.toEnd < s.toEnd := by
  unfold next
  split
  · rename_i hpoint
    exact .inr (by simp [toEnd, hpoint, hstop])
  · rename_i hpoint
    exact .inr (by simp [toEnd, hpoint])
  · rename_i hpoint
    exact .inr (by simp [toEnd, hpoint])
  · rename_i a rest hpoint
    exact .inr (by simp [toEnd, hpoint])
  · rename_i hpoint
    exact .inl hpoint

/-- A loop that is to stop comes to its end, with all handled but what was left at the time. -/
theorem exists_ended (h : s.Ordered) (hstop : s.stop = true) :
    ∃ n, (Run.exec step s (List.replicate n .next)).point = .ended ∧
      (Run.exec step s (List.replicate n .next)).handled ++ s.left = s.given := by
  have hstep : ∀ t : BatchLoop α,
      (t.Ordered ∧ t.stop = true ∧ t.left = s.left ∧ t.given = s.given) →
        t.point = .ended ∨ ((t.step .next).Ordered ∧ (t.step .next).stop = true ∧
          (t.step .next).left = s.left ∧ (t.step .next).given = s.given) ∧
            (t.step .next).toEnd < t.toEnd := by
    rintro t ⟨hordered, htstop, hleft, hgiven⟩
    rcases toEnd_next htstop with hended | hlt
    · exact .inl hended
    · refine .inr ⟨⟨hordered.next, next_stop.trans htstop, ?_, next_given.trans hgiven⟩, hlt⟩
      exact (left_next htstop).trans hleft
  obtain ⟨n, ⟨hordered, -, hleft, hgiven⟩, hended⟩ :=
    Run.exists_replicate toEnd BatchEvent.next hstep (s := s) ⟨h, hstop, rfl, rfl⟩
  refine ⟨n, hended, ?_⟩
  rw [← hleft, ← hgiven]
  exact handled_append_left hordered hended

end BatchLoop
end DoubleTurnouts
