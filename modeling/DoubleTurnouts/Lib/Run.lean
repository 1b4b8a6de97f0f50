/-
  DoubleTurnouts.Lib.Run

  Runs of a deterministic transition function, and the induction rules every
  result about whole runs of this development is proved with: an invariant
  kept by each step that meets a side condition holds at the end of a run,
  and what it implies about a single step holds at every step of the run; a
  system that answers each step with a few of its own follows the whole run
  (`exec_image`, `exec_image_iff`); repeating a step that lowers a measure reaches its goal
  (`exists_replicate`).
-/
import Mathlib.Data.List.Basic

namespace DoubleTurnouts
namespace Run

variable {σ ε : Type} (step : σ → ε → σ)

/-- The state after a sequence of events. -/
def exec (s : σ) (es : List ε) : σ := es.foldl step s

/-- Every step of the run from `s` meets `P`, a relation between the state before the
    step and its event. -/
def AllSteps (P : σ → ε → Prop) : σ → List ε → Prop
  | _, [] => True
  | s, e :: es => P s e ∧ AllSteps P (step s e) es

instance AllSteps.decidable {P : σ → ε → Prop} [∀ s e, Decidable (P s e)] (s : σ)
    (es : List ε) : Decidable (AllSteps step P s es) :=
  match es with
  | [] => isTrue trivial
  | e :: es =>
      have : Decidable (AllSteps step P (step s e) es) := AllSteps.decidable (step s e) es
      inferInstanceAs (Decidable (P s e ∧ AllSteps step P (step s e) es))

variable {step}

@[simp] theorem exec_nil (s : σ) : exec step s [] = s := rfl

@[simp] theorem exec_cons (s : σ) (e : ε) (es : List ε) :
    exec step s (e :: es) = exec step (step s e) es := rfl

theorem exec_append (s : σ) (es fs : List ε) :
    exec step s (es ++ fs) = exec step (exec step s es) fs := by
  simp [exec]

/-- A condition on the events alone holds at every step when it holds of every event. -/
theorem AllSteps.of_forall {P : ε → Prop} {s : σ} {es : List ε} (hes : ∀ e ∈ es, P e) :
    AllSteps step (fun _ e => P e) s es := by
  induction es generalizing s with
  | nil => trivial
  | cons e es ih => exact ⟨hes e (by simp), ih fun e' he' => hes e' (by simp [he'])⟩

theorem AllSteps.append_iff {P : σ → ε → Prop} {s : σ} {es fs : List ε} :
    AllSteps step P s (es ++ fs) ↔ AllSteps step P s es ∧ AllSteps step P (exec step s es) fs := by
  induction es generalizing s with
  | nil => simp [AllSteps]
  | cons e es ih => simp only [List.cons_append, AllSteps, exec_cons, ih, and_assoc]

theorem AllSteps.and {P Q : σ → ε → Prop} {s : σ} {es : List ε} (hP : AllSteps step P s es)
    (hQ : AllSteps step Q s es) : AllSteps step (fun s e => P s e ∧ Q s e) s es := by
  induction es generalizing s with
  | nil => trivial
  | cons e es ih => exact ⟨⟨hP.1, hQ.1⟩, ih hP.2 hQ.2⟩

theorem AllSteps.mono {P Q : σ → ε → Prop} (hPQ : ∀ s e, P s e → Q s e) {s : σ} {es : List ε}
    (hP : AllSteps step P s es) : AllSteps step Q s es := by
  induction es generalizing s with
  | nil => trivial
  | cons e es ih => exact ⟨hPQ s e hP.1, ih hP.2⟩

/-- An invariant that every admissible step keeps holds in the final state. -/
theorem exec_invariant {I : σ → Prop} {P : σ → ε → Prop}
    (hstep : ∀ s e, I s → P s e → I (step s e)) {s : σ} {es : List ε}
    (hs : I s) (hes : AllSteps step P s es) : I (exec step s es) := by
  induction es generalizing s with
  | nil => exact hs
  | cons e es ih => exact ih (hstep s e hs hes.1) hes.2

/-- An invariant that every step keeps holds in the final state. -/
theorem exec_of_forall {I : σ → Prop} (hstep : ∀ s e, I s → I (step s e)) {s : σ} (hs : I s)
    (es : List ε) : I (exec step s es) := by
  induction es generalizing s with
  | nil => exact hs
  | cons e es ih => exact ih (hstep s e hs)

/-- What an invariant says about one admissible step holds at every step of the run. -/
theorem AllSteps.of_invariant {I : σ → Prop} {P Q : σ → ε → Prop}
    (hstep : ∀ s e, I s → P s e → I (step s e)) (hQ : ∀ s e, I s → P s e → Q s e)
    {s : σ} {es : List ε} (hs : I s) (hes : AllSteps step P s es) : AllSteps step Q s es := by
  induction es generalizing s with
  | nil => trivial
  | cons e es ih => exact ⟨hQ s e hs hes.1, ih (hstep s e hs hes.1) hes.2⟩

/-- Two step conditions that agree wherever an invariant holds hold along the same runs, when
    steps that meet the second one keep the invariant. -/
theorem AllSteps.iff_of_guarded {I : σ → Prop} {W : ε → Prop} {P Q : σ → ε → Prop}
    (hstep : ∀ s e, I s → W e → Q s e → I (step s e))
    (hPQ : ∀ s e, I s → W e → (P s e ↔ Q s e))
    {s : σ} {es : List ε} (hs : I s) (hes : ∀ e ∈ es, W e) :
    AllSteps step P s es ↔ AllSteps step Q s es := by
  induction es generalizing s with
  | nil => exact Iff.rfl
  | cons e es ih =>
      have hhead := hPQ s e hs (hes e (by simp))
      -- the two conditions agree as long as the second one has held so far
      have htail : ∀ hQ : Q s e, AllSteps step P (step s e) es ↔ AllSteps step Q (step s e) es :=
        fun hQ => ih (hstep s e hs (hes e (by simp)) hQ) fun e' he' => hes e' (by simp [he'])
      constructor
      · rintro ⟨hP, hrest⟩
        exact ⟨hhead.mp hP, (htail (hhead.mp hP)).mp hrest⟩
      · rintro ⟨hQ, hrest⟩
        exact ⟨hhead.mpr hQ, (htail hQ).mpr hrest⟩

/-- The case of an invariant that every step keeps. -/
theorem AllSteps.iff_of_invariant {I : σ → Prop} {W : ε → Prop} {P Q : σ → ε → Prop}
    (hstep : ∀ s e, I s → I (step s e)) (hPQ : ∀ s e, I s → W e → (P s e ↔ Q s e))
    {s : σ} {es : List ε} (hs : I s) (hes : ∀ e ∈ es, W e) :
    AllSteps step P s es ↔ AllSteps step Q s es :=
  AllSteps.iff_of_guarded (fun s e h _ _ => hstep s e h) hPQ hs hes

/-! ## Following a run with another system -/

/-- The steps of another system that a run stands for, `abs s e` for the step `e` from `s`. -/
def image (step : σ → ε → σ) {φ : Type} (abs : σ → ε → List φ) : σ → List ε → List φ
  | _, [] => []
  | s, e :: es => abs s e ++ image step abs (step s e) es

/-- A relation that every admissible step keeps, together with the steps it stands for,
    relates the ends of the two runs. -/
theorem exec_image {τ φ : Type} {step' : τ → φ → τ} {abs : σ → ε → List φ} {R : σ → τ → Prop}
    {P : σ → ε → Prop}
    (hstep : ∀ s t e, R s t → P s e → R (step s e) (exec step' t (abs s e)))
    {s : σ} {t : τ} {es : List ε} (hR : R s t) (hes : AllSteps step P s es) :
    R (exec step s es) (exec step' t (image step abs s es)) := by
  induction es generalizing s t with
  | nil => exact hR
  | cons e es ih =>
      rw [exec_cons, image, exec_append]
      exact ih (hstep s t e hR hes.1) hes.2

/-- The other system may rely on a condition `E` on the steps the run stands for; a condition on the
    steps of the run then agrees with one on the steps it stands for, when the two agree for each
    step. -/
theorem exec_image_iff {τ φ : Type} {step' : τ → φ → τ} {abs : σ → ε → List φ}
    {R : σ → τ → Prop} {P : σ → ε → Prop} {E Q : τ → φ → Prop}
    (hstep : ∀ s t e, R s t → AllSteps step' E t (abs s e) →
      R (step s e) (exec step' t (abs s e)) ∧ (P s e ↔ AllSteps step' Q t (abs s e)))
    {s : σ} {t : τ} {es : List ε} (hR : R s t) (hE : AllSteps step' E t (image step abs s es)) :
    R (exec step s es) (exec step' t (image step abs s es)) ∧
      (AllSteps step P s es ↔ AllSteps step' Q t (image step abs s es)) := by
  induction es generalizing s t with
  | nil => exact ⟨hR, Iff.rfl⟩
  | cons e es ih =>
      rw [image, AllSteps.append_iff] at hE
      obtain ⟨hnext, hhead⟩ := hstep s t e hR hE.1
      obtain ⟨hend, htail⟩ := ih hnext hE.2
      rw [exec_cons, image, exec_append, AllSteps.append_iff]
      exact ⟨hend, and_congr hhead htail⟩

/-- An event that keeps an invariant and lowers a measure until a goal is met reaches the goal
    when it is repeated often enough. -/
theorem exists_replicate {I Goal : σ → Prop} (measure : σ → Nat) (e : ε)
    (hstep : ∀ s, I s → Goal s ∨ I (step s e) ∧ measure (step s e) < measure s) {s : σ}
    (hs : I s) :
    ∃ n, I (exec step s (List.replicate n e)) ∧ Goal (exec step s (List.replicate n e)) := by
  -- each repetition short of the goal lowers the measure
  induction hm : measure s using Nat.strongRecOn generalizing s with
  | ind m ih =>
      rcases hstep s hs with hgoal | ⟨hI, hlt⟩
      · exact ⟨0, hs, hgoal⟩
      · obtain ⟨n, hn⟩ := ih _ (hm ▸ hlt) hI rfl
        refine ⟨n + 1, ?_⟩
        rwa [List.replicate_succ, exec_cons]

end Run

/-- One move of a system with a thread of its own: something from outside, or a step of the
    thread. -/
inductive Move (ι : Type)
  | input (i : ι)
  | run
  deriving DecidableEq, Repr

/-- A sequence of fallible steps that ends well had a first step that did. -/
theorem exists_of_bind_eq_ok {ε α β : Type} {x : Except ε α} {f : α → Except ε β} {b : β}
    (h : x >>= f = .ok b) : ∃ a, x = .ok a ∧ f a = .ok b := by
  cases x with
  | error e => cases h
  | ok a => exact ⟨a, rfl, h⟩

end DoubleTurnouts
