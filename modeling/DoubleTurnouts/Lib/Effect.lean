/-
  DoubleTurnouts.Lib.Effect

  Frame reasoning for programs with a state and exceptions.  `Within R m` says
  that the state `m` ends in, normally or by an exception, is related by `R` to
  the one it starts in.  For a preorder `R` this is closed under sequencing, so
  a frame condition of a handler follows from those of the calls it makes.  An
  invariant `I` is the preorder "`I` before implies `I` after".

  `loop` is `while (1)` with fuel: it has a rule for what a loop that ended has
  kept, and one for loops that do end.
-/
import Mathlib.Tactic

namespace DoubleTurnouts
namespace Effect

variable {ε σ α β : Type} {R : σ → σ → Prop}

/-- The state a program ends in. -/
def final (m : EStateM ε σ α) (s : σ) : σ :=
  match m.run s with
  | .ok _ s' => s'
  | .error _ s' => s'

/-- Start and end of the program are related, however it ends. -/
def Within (R : σ → σ → Prop) (m : EStateM ε σ α) : Prop := ∀ s, R s (final m s)

theorem Within.pure [Std.Refl R] (a : α) : Within R (pure a : EStateM ε σ α) :=
  fun s => refl_of R s

theorem Within.liftExcept [Std.Refl R] (x : Except ε α) :
    Within R (liftExcept x : EStateM ε σ α) := by
  intro s
  cases x <;> exact refl_of R s

theorem Within.modify {f : σ → σ} (h : ∀ s, R s (f s)) :
    Within R (modify f : EStateM ε σ PUnit) := h

theorem Within.bind [IsTrans σ R] {x : EStateM ε σ α} {f : α → EStateM ε σ β}
    (hx : Within R x) (hf : ∀ a, Within R (f a)) : Within R (x >>= f) := by
  intro s
  have hfirst := hx s
  unfold final at hfirst ⊢
  rw [EStateM.run_bind]
  -- an exception ends the program where it was thrown
  cases hrun : x.run s with
  | error e s' =>
      rw [hrun] at hfirst
      exact hfirst
  | ok a s' =>
      rw [hrun] at hfirst
      exact trans_of R hfirst (hf a s')

/-- The rest of a program that starts by reading its state. -/
theorem Within.get_bind {f : σ → EStateM ε σ β} (hf : ∀ s, R s (final (f s) s)) :
    Within R (get >>= f) := hf

theorem Within.ite {c : Prop} [Decidable c] {x y : EStateM ε σ α} (hx : Within R x)
    (hy : Within R y) : Within R (if c then x else y) := by
  split
  · exact hx
  · exact hy

theorem Within.tryCatch [IsTrans σ R] {x : EStateM ε σ α} {handler : ε → EStateM ε σ α}
    (hx : Within R x) (hh : ∀ e, Within R (handler e)) : Within R (tryCatch x handler) := by
  intro s
  have hfirst := hx s
  unfold final at hfirst ⊢
  simp only [MonadExcept.tryCatch, tryCatchThe, MonadExceptOf.tryCatch, EStateM.tryCatch,
    EStateM.run] at hfirst ⊢
  cases hrun : x s with
  | error e s' =>
      rw [hrun] at hfirst
      -- what was done before the exception is kept
      exact trans_of R hfirst (hh e s')
  | ok a s' =>
      rw [hrun] at hfirst
      exact hfirst

theorem Within.throw [Std.Refl R] (e : ε) : Within R (throw e : EStateM ε σ α) :=
  fun s => refl_of R s

theorem Within.get [Std.Refl R] : Within R (get : EStateM ε σ σ) := fun s => refl_of R s

theorem Within.mono {R' : σ → σ → Prop} {m : EStateM ε σ α} (h : Within R m)
    (hR : ∀ s s', R s s' → R' s s') : Within R' m := fun s => hR s _ (h s)

/-- An invariant as a frame condition. -/
def Keeps (I : σ → Prop) (s s' : σ) : Prop := I s → I s'

instance (I : σ → Prop) : IsPreorder σ (Keeps I) where
  refl _ h := h
  trans _ _ _ hab hbc h := hbc (hab h)

/-! ## Total programs -/

/-- From `s` the program ends without an exception, in a state related to `s`. -/
def Completes (R : σ → σ → Prop) (m : EStateM ε σ α) (s : σ) : Prop :=
  ∃ a s', m.run s = .ok a s' ∧ R s s'

theorem Completes.pure [Std.Refl R] (a : α) (s : σ) :
    Completes R (pure a : EStateM ε σ α) s := ⟨a, s, rfl, refl_of R s⟩

theorem Completes.modify {f : σ → σ} {s : σ} (h : R s (f s)) :
    Completes R (modify f : EStateM ε σ PUnit) s := ⟨⟨⟩, f s, rfl, h⟩

theorem Completes.get_bind {f : σ → EStateM ε σ β} {s : σ} (h : Completes R (f s) s) :
    Completes R (get >>= f) s := h

theorem Completes.bind [IsTrans σ R] {x : EStateM ε σ α} {f : α → EStateM ε σ β} {s : σ}
    (hx : Completes R x s) (hf : ∀ a s', R s s' → Completes R (f a) s') :
    Completes R (x >>= f) s := by
  obtain ⟨a, s', hrun, hR⟩ := hx
  obtain ⟨b, s'', hrun', hR'⟩ := hf a s' hR
  refine ⟨b, s'', ?_, trans_of R hR hR'⟩
  rw [EStateM.run_bind, hrun]
  exact hrun'

/-! ## Loops -/

/-- `while (1)` around a body that says whether there is another round; `false` if the fuel is
    used up first. -/
def loop (body : EStateM ε σ Bool) : Nat → EStateM ε σ Bool
  | 0 => pure false
  | fuel + 1 => do
      if ← body then loop body fuel else pure true

theorem loop_succ_run (body : EStateM ε σ Bool) (fuel : Nat) (s : σ) :
    (loop body (fuel + 1)).run s =
      match body.run s with
      | .ok true s' => (loop body fuel).run s'
      | .ok false s' => .ok true s'
      | .error e s' => .error e s' := by
  rw [loop, EStateM.run_bind]
  match body.run s with
  | .ok true _ => rfl
  | .ok false _ => rfl
  | .error _ _ => rfl

/-- What every round keeps holds when the loop has ended. -/
theorem loop_keeps {body : EStateM ε σ Bool} {I : σ → Prop}
    (hbody : ∀ s b s', I s → body.run s = .ok b s' → I s') {fuel : Nat} {s s' : σ} {b : Bool}
    (hs : I s) (h : (loop body fuel).run s = .ok b s') : I s' := by
  induction fuel generalizing s with
  | zero =>
      cases h
      exact hs
  | succ fuel ih =>
      rw [loop_succ_run] at h
      cases hrun : body.run s with
      | error e s1 =>
          rw [hrun] at h
          cases h
      | ok again s1 =>
          -- the last round is a round too
          have hs1 := hbody s again s1 hs hrun
          rw [hrun] at h
          cases again with
          | true => exact ih hs1 h
          | false =>
              cases h
              exact hs1

/-- A loop whose rounds keep an invariant and lower a measure comes to its end. -/
theorem loop_ends {body : EStateM ε σ Bool} {I Goal : σ → Prop} (measure : σ → Nat)
    (hbody : ∀ s, I s → (∃ s', body.run s = .ok false s' ∧ Goal s') ∨
      ∃ s', body.run s = .ok true s' ∧ I s' ∧ measure s' < measure s) {s : σ} (hs : I s) :
    ∃ fuel s', (loop body fuel).run s = .ok true s' ∧ Goal s' := by
  induction hm : measure s using Nat.strongRecOn generalizing s with
  | ind m ih =>
      rcases hbody s hs with ⟨s', hrun, hgoal⟩ | ⟨s1, hrun, hI, hlt⟩
      · exact ⟨1, s', by rw [loop_succ_run, hrun], hgoal⟩
      · obtain ⟨fuel, s', hloop, hgoal⟩ := ih _ (hm ▸ hlt) hI rfl
        exact ⟨fuel + 1, s', by rw [loop_succ_run, hrun]; exact hloop, hgoal⟩

end Effect
end DoubleTurnouts
