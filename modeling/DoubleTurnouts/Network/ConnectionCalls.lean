/-
  DoubleTurnouts.Network.ConnectionCalls

  The calls a connection makes on its channel: at most one in a step, and the
  channel goes where the call takes it (`Emits`).  The steps that may make a
  stray update are those of `Empties`; that a writable event is handled while
  the channel is registered (`Flow`) excludes the others.
-/
import Mathlib.Tactic
import DoubleTurnouts.Network.CallLog
import DoubleTurnouts.Network.ReadControl

namespace DoubleTurnouts
namespace ReadConn

/-- The steps whose update leaves the mask empty: those that close the connection, and a
    `stopReadInLoop` while it is not writing. -/
def Empties (k : ReadConn) : ReadEvent → Prop
  | .stopReadInLoop =>
      k.state_ ≠ .kConnecting ∧ (k.reading_ || k.reading) = true ∧ k.side.writing = false
  | .connectDestroyed => k.parts = [] ∧ k.destroyed = false ∧ k.state_ = .kConnected
  | e => k.Closes e

instance (k : ReadConn) : (e : ReadEvent) → Decidable (k.Empties e)
  | .stopReadInLoop => inferInstanceAs (Decidable (_ ∧ _ ∧ _))
  | .connectDestroyed => inferInstanceAs (Decidable (_ ∧ _ ∧ _))
  | .connectEstablished => inferInstanceAs (Decidable (k.Closes .connectEstablished))
  | .startReadInLoop => inferInstanceAs (Decidable (k.Closes .startReadInLoop))
  | .sendInLoop message r => inferInstanceAs (Decidable (k.Closes (.sendInLoop message r)))
  | .shutdown => inferInstanceAs (Decidable (k.Closes .shutdown))
  | .shutdownInLoop => inferInstanceAs (Decidable (k.Closes .shutdownInLoop))
  | .forceClose => inferInstanceAs (Decidable (k.Closes .forceClose))
  | .forceCloseInLoop => inferInstanceAs (Decidable (k.Closes .forceCloseInLoop))
  | .poll revents_ => inferInstanceAs (Decidable (k.Closes (.poll revents_)))
  | .part n r => inferInstanceAs (Decidable (k.Closes (.part n r)))

/-- The mask with these two flags. -/
def maskOf (reading writing : Bool) : BitVec 32 :=
  (if reading then EventType.ReadEvent else 0) ||| if writing then EventType.WriteEvent else 0

theorem maskOf_eq_none_iff (reading writing : Bool) :
    maskOf reading writing = EventType.NoneEvent ↔ reading = false ∧ writing = false := by
  cases reading <;> cases writing <;> decide

theorem maskOf_enableReading (reading writing : Bool) :
    maskOf true writing = PollCall.enableReading.mask (maskOf reading writing) := by
  cases reading <;> cases writing <;> decide

theorem maskOf_disableReading (reading writing : Bool) :
    maskOf false writing = PollCall.disableReading.mask (maskOf reading writing) := by
  cases reading <;> cases writing <;> decide

theorem maskOf_setWriting (reading writing writing' : Bool) :
    maskOf reading writing'
      = (if writing' then PollCall.enableWriting else .disableWriting).mask
          (maskOf reading writing) := by
  cases reading <;> cases writing <;> cases writing' <;> decide

/-- The channel of a connection. -/
def view (k : ReadConn) : PollChannel := ⟨maskOf k.reading k.side.writing, k.index_, k.addedToLoop_⟩

/-- What stands between two states: a call on the channel, or none. -/
structure Emits (k k' : ReadConn) (op : Option PollCall) : Prop where
  calls : k'.calls = k.calls ++ op.toList
  view : k'.view = op.elim k.view k.view.call

/-- `connectEstablished` comes first; the last line of `connectDestroyed` is alone in its handler;
    a writable event is handled while the channel is registered, or has nothing to do. -/
structure Flow (k : ReadConn) : Prop where
  waiting : k.state_ = .kConnecting → k.parts = []
  remove : .remove ∈ k.parts → k.parts = [.remove]
  writing : .handleWrite ∈ k.parts → k.side.writing = true → k.index_ = .kAdded

theorem new_flow (cb : Bool) : (new cb).Flow where
  waiting _ := rfl
  remove h := by cases h
  writing h := by cases h

variable {k k' : ReadConn}

/-! ### The calls of each function -/

theorem update_emits {k₁ : ReadConn} {op : PollCall} (hop : op ≠ .remove)
    (hindex : k₁.index_ = k.index_) (hcalls : k₁.calls = k.calls)
    (hmask : maskOf k₁.reading k₁.side.writing = op.mask (maskOf k.reading k.side.writing)) :
    Emits k (k₁.update op) (some op) where
  calls := by simp [update, hcalls]
  view := by
    have hnone : k₁.isNoneEvent = true ↔
        op.mask (maskOf k.reading k.side.writing) = EventType.NoneEvent := by
      rw [← hmask, maskOf_eq_none_iff]
      simp [isNoneEvent]
    rw [Option.elim, PollChannel.call_of_update _ hop]
    simp only [ReadConn.view, update, hmask, hindex, hnone]
    congr

theorem enableReading_emits (k : ReadConn) : Emits k k.enableReading (some .enableReading) :=
  update_emits (by simp) rfl rfl (maskOf_enableReading k.reading k.side.writing)

theorem disableReading_emits (k : ReadConn) : Emits k k.disableReading (some .disableReading) :=
  update_emits (by simp) rfl rfl (maskOf_disableReading k.reading k.side.writing)

theorem disconnect_emits (k : ReadConn) : Emits k k.disconnect (some .disableAll) :=
  update_emits (by simp) rfl rfl ((maskOf_eq_none_iff _ _).mpr ⟨rfl, rfl⟩)

theorem remove_emits (k : ReadConn) : Emits k k.remove (some .remove) := ⟨rfl, rfl⟩

theorem onSide_emits (k : ReadConn) (f : SendSide → SendSide) :
    Emits k (k.onSide f)
      (if (f k.side).writing = k.side.writing then none
        else some (if (f k.side).writing then .enableWriting else .disableWriting)) := by
  by_cases hw : (f k.side).writing = k.side.writing
  · rw [if_pos hw, k.onSide_of_writing hw]
    exact ⟨by simp, by simp [view, hw]⟩
  · have honSide : k.onSide f = { k with side := f k.side }.update
        (if (f k.side).writing then .enableWriting else .disableWriting) := if_neg hw
    rw [if_neg hw, honSide]
    exact update_emits (by split <;> simp) rfl rfl
      (maskOf_setWriting k.reading k.side.writing (f k.side).writing)

/-- Fields that are neither flags nor calls do not matter. -/
theorem Emits.of_eq {k₁ : ReadConn} {op : Option PollCall} (h : Emits k₁ k' op)
    (hcalls : k.calls = k₁.calls) (hview : k.view = k₁.view) : Emits k k' op :=
  ⟨hcalls ▸ h.calls, hview ▸ h.view⟩

theorem Emits.none_of_eq (hcalls : k'.calls = k.calls) (hview : k'.view = k.view) :
    Emits k k' none := ⟨by simp [hcalls], hview⟩

/-! ### One step -/

/-- What a step may do to the parts of the handler. -/
theorem Flow.next (h : k.Flow) {op : Option PollCall} (hemits : Emits k k' op)
    (hop : op ≠ some .remove) (hstate : k'.state_ ≠ .kConnecting)
    (hparts : k'.parts = k.parts ∨ k'.parts = k.parts.tail) : k'.Flow where
  waiting hconnecting := absurd hconnecting hstate
  remove hmem := by
    rcases hparts with heq | heq
    · rw [heq] at hmem ⊢
      exact h.remove hmem
    · -- the last line of `connectDestroyed` is never in the tail of a handler
      rw [heq] at hmem
      rw [h.remove (List.mem_of_mem_tail hmem)] at hmem
      cases hmem
  writing hmem hwriting := by
    have hmem' : .handleWrite ∈ k.parts := by
      rcases hparts with heq | heq
      · exact heq ▸ hmem
      · exact List.mem_of_mem_tail (heq ▸ hmem)
    have hview := hemits.view
    cases op with
    | none =>
        -- neither the flag nor the index has changed
        have hold : k.side.writing = true := by
          by_contra hfalse
          have hmask := congrArg PollChannel.events_ hview
          simp only [ReadConn.view, Option.elim, maskOf, hwriting, hfalse] at hmask
          revert hmask
          cases k'.reading <;> cases k.reading <;> decide
        have hindex := congrArg PollChannel.index_ hview
        exact hindex.trans (h.writing hmem' hold)
    | some op =>
        have hne : op ≠ .remove := fun heq => hop (by rw [heq])
        have hindex := congrArg PollChannel.index_ hview
        refine hindex.trans (PollChannel.call_index_of_mask hne ?_)
        have hevents := congrArg PollChannel.events_ hview
        rw [Option.elim, PollChannel.call_of_update _ hne] at hevents
        rw [← show k'.view.events_ = op.mask k.view.events_ from hevents]
        intro hnone
        have hflags := (maskOf_eq_none_iff _ _).mp hnone
        rw [hwriting] at hflags
        cases hflags.2

/-- What is to be shown of a step: its call, when that is a stray update, and what it leaves of the
    handler. -/
def StepOk (k k' : ReadConn) (e : ReadEvent) : Prop :=
  ∃ op, Emits k k' op ∧ ((∀ o ∈ op, ¬ k.view.Stray o) ↔ (k.Empties e → k.index_ = .kAdded)) ∧
    k'.Flow

/-- A step that does not empty the mask. -/
theorem StepOk.of_interest {e : ReadEvent} {op : Option PollCall} (hemits : Emits k k' op)
    (hempties : ¬ k.Empties e) (hstray : ∀ o ∈ op, ¬ k.view.Stray o) (hflow : k'.Flow) :
    StepOk k k' e :=
  ⟨op, hemits, iff_of_true hstray fun h => absurd h hempties, hflow⟩

/-- A step without a call. -/
theorem StepOk.silent {e : ReadEvent} (hcalls : k'.calls = k.calls) (hview : k'.view = k.view)
    (hempties : ¬ k.Empties e) (hflow : k'.Flow) : StepOk k k' e :=
  .of_interest (.none_of_eq hcalls hview) hempties (by simp) hflow

theorem StepOk.of_same {e : ReadEvent} (hempties : ¬ k.Empties e) (h : k.Flow) : StepOk k k e :=
  .silent rfl rfl hempties h

/-- A step that empties it. -/
theorem StepOk.of_empties {e : ReadEvent} {op : PollCall} (hemits : Emits k k' (some op))
    (hempties : k.Empties e) (hop : op ≠ .remove)
    (hmask : op.mask k.view.events_ = EventType.NoneEvent) (hflow : k'.Flow) : StepOk k k' e := by
  refine ⟨some op, hemits, ?_, hflow⟩
  simp only [Option.mem_def, Option.some.injEq, forall_eq', PollChannel.Stray, hop, hmask, ne_eq,
    not_false_eq_true, true_and, not_not, hempties, true_imp_iff]
  exact Iff.rfl

/-- `enableReading` and `enableWriting` are no stray updates. -/
theorem not_stray_of_mask {op : PollCall} (hmask : op.mask k.view.events_ ≠ EventType.NoneEvent) :
    ¬ k.view.Stray op := fun h => hmask h.2.1

theorem enableReading_not_stray (k : ReadConn) : ¬ k.view.Stray .enableReading := by
  refine not_stray_of_mask ?_
  rw [view, ← maskOf_enableReading, ne_eq, maskOf_eq_none_iff]
  simp

/-- A closing step. -/
theorem disconnect_ok (h : k.Flow) {k₁ : ReadConn} {e : ReadEvent}
    (hparts : k₁.parts = k.parts ∨ k₁.parts = k.parts.tail) (hcalls : k.calls = k₁.calls)
    (hview : k.view = k₁.view) (hempties : k.Empties e) : StepOk k k₁.disconnect e := by
  have hemits := k₁.disconnect_emits.of_eq hcalls hview
  exact .of_empties hemits hempties (by simp) rfl (h.next hemits (by simp) (by simp) hparts)

/-- A change of the send side that does not stop the writing, unless the channel is registered. -/
theorem onSide_ok (h : k.Flow) {k₁ : ReadConn} {e : ReadEvent} {f : SendSide → SendSide}
    (hparts : k₁.parts = k.parts ∨ k₁.parts = k.parts.tail) (hcalls : k.calls = k₁.calls)
    (hview : k.view = k₁.view) (hempties : ¬ k.Empties e)
    (hstate : (f k₁.side).state_ ≠ .kConnecting)
    (hwriting : k₁.side.writing = true → (f k₁.side).writing = true ∨ k.index_ = .kAdded) :
    StepOk k (k₁.onSide f) e := by
  have hemits := (k₁.onSide_emits f).of_eq hcalls hview
  have hflow : (k₁.onSide f).Flow := by
    refine h.next hemits ?_ (by simpa using hstate) (by simpa using hparts)
    split
    · simp
    · split <;> simp
  refine .of_interest hemits hempties ?_ hflow
  intro o ho hstray
  by_cases hsame : (f k₁.side).writing = k₁.side.writing
  · simp [hsame] at ho
  · rw [if_neg hsame, Option.mem_some_iff] at ho
    subst ho
    cases hnew : (f k₁.side).writing with
    | true =>
        have hmask := hstray.2.1
        rw [hnew, if_pos rfl, hview] at hmask
        have hset := maskOf_setWriting k₁.reading k₁.side.writing true
        rw [if_pos rfl] at hset
        have hflags := (maskOf_eq_none_iff _ _).mp (hset.trans hmask)
        cases hflags.2
    | false =>
        have hold : k₁.side.writing = true := by
          cases hw : k₁.side.writing with
          | true => rfl
          | false => exact absurd (hnew.trans hw.symm) hsame
        rcases hwriting hold with hw | hindex
        · rw [hnew] at hw
          cases hw
        · exact hstray.2.2 hindex

theorem not_empties_of_connecting (h : k.Flow) (hconnecting : k.state_ = .kConnecting)
    (e : ReadEvent) : ¬ k.Empties e := by
  have hparts := h.waiting hconnecting
  cases e <;> simp [Empties, Closes, isOpen, hconnecting, hparts]

theorem part_ok (h : k.Flow) (hstate : k.state_ ≠ .kConnecting) {p : ConnPart}
    {rest : List ConnPart} (hparts : k.parts = p :: rest) (n : ReadResult) (r : WriteResult) :
    StepOk k (runPart { k with parts := rest } n r p) (.part n r) := by
  have htail : rest = k.parts ∨ rest = k.parts.tail := Or.inr (by rw [hparts, List.tail_cons])
  have hsame : Emits k { k with parts := rest } none := .none_of_eq rfl rfl
  have hrest : Flow { k with parts := rest } := h.next hsame (by simp) hstate htail
  cases p with
  | handleClose => exact disconnect_ok h htail rfl rfl (Or.inl (by simp [hparts]))
  | handleRead =>
      cases n with
      | error errno =>
          refine .silent rfl rfl ?_ ⟨hrest.waiting, hrest.remove, hrest.writing⟩
          simp [Empties, Closes, hparts]
      | data received =>
          rw [runPart, handleRead]
          split
          · rename_i hpos
            have hne : received ≠ [] := List.length_pos_iff.mp hpos
            refine .silent rfl rfl ?_ ⟨hrest.waiting, hrest.remove, hrest.writing⟩
            simp [Empties, Closes, hparts, hne]
          · rename_i hzero
            have hnil : received = [] := List.eq_nil_of_length_eq_zero (by omega)
            exact disconnect_ok h htail rfl rfl (Or.inr ⟨by simp [hparts], by rw [hnil]⟩)
  | handleWrite =>
      refine onSide_ok (f := fun side => side.handleWrite r) h htail rfl rfl ?_ ?_ ?_
      · simp [Empties, Closes, hparts]
      · simpa only [SendSide.handleWrite_state_] using hstate
      · intro hwriting
        exact Or.inr (h.writing (by simp [hparts]) hwriting)
  | remove =>
      have hnil : rest = [] := by
        have hall := h.remove (by simp [hparts])
        rw [hparts] at hall
        exact (List.cons.inj hall).2
      have hemits := (remove_emits { k with parts := rest }).of_eq (k := k) rfl rfl
      refine .of_interest hemits ?_ (by simp [PollChannel.Stray]) ⟨fun _ => hnil, ?_, ?_⟩
      · simp [Empties, Closes, hparts]
      · intro hmem
        simp [runPart, remove, hnil] at hmem
      · intro hmem
        simp [runPart, remove, hnil] at hmem

theorem connectEstablished_ok (h : k.Flow) (hnew : k.state_ = .kConnecting) :
    StepOk k k.connectEstablished .connectEstablished := by
  have hemits : Emits k k.connectEstablished (some .enableReading) :=
    (enableReading_emits { k with side := { k.side with state_ := .kConnected } }).of_eq rfl rfl
  have hstate : k.connectEstablished.state_ ≠ .kConnecting := by
    simp [connectEstablished, enableReading, state_]
  refine .of_interest hemits (not_empties_of_connecting h hnew _) ?_
    (h.next hemits (by simp) hstate (Or.inl rfl))
  simpa using k.enableReading_not_stray

theorem startReadInLoop_ok (h : k.Flow) (hstate : k.state_ ≠ .kConnecting) :
    StepOk k k.startReadInLoop .startReadInLoop := by
  rw [startReadInLoop]
  split
  · have hemits : Emits k { k.enableReading with reading_ := true } (some .enableReading) :=
      ⟨k.enableReading_emits.calls, k.enableReading_emits.view⟩
    refine .of_interest hemits (by simp [Empties, Closes]) ?_
      (h.next hemits (by simp) hstate (Or.inl rfl))
    simpa using k.enableReading_not_stray
  · exact .of_same (by simp [Empties, Closes]) h

theorem stopReadInLoop_ok (h : k.Flow) (hstate : k.state_ ≠ .kConnecting) :
    StepOk k k.stopReadInLoop .stopReadInLoop := by
  rw [stopReadInLoop]
  split
  · rename_i hstop
    have hemits : Emits k { k.disableReading with reading_ := false } (some .disableReading) :=
      ⟨k.disableReading_emits.calls, k.disableReading_emits.view⟩
    have hflow := h.next hemits (by simp) hstate (Or.inl rfl)
    have hmask := maskOf_disableReading k.reading k.side.writing
    -- what is left of the mask is the write flag
    cases hwriting : k.side.writing with
    | false =>
        refine .of_empties hemits ⟨hstate, hstop, hwriting⟩ (by simp) ?_ hflow
        refine hmask.symm.trans ?_
        rw [maskOf_eq_none_iff]
        exact ⟨rfl, hwriting⟩
    | true =>
        refine .of_interest hemits (by simp [Empties, hwriting]) ?_ hflow
        simp only [Option.mem_def, Option.some.injEq, forall_eq']
        refine not_stray_of_mask ?_
        rw [view, ← hmask, ne_eq, maskOf_eq_none_iff, hwriting]
        simp
  · rename_i hstop
    exact .of_same (by simp [Empties, hstop]) h

theorem shutdown_ok (h : k.Flow) : StepOk k k.shutdown .shutdown := by
  rw [shutdown]
  split
  · have hemits : Emits k { k with side := { k.side with state_ := .kDisconnecting } } none :=
      .none_of_eq rfl rfl
    exact .silent rfl rfl (by simp [Empties, Closes])
      (h.next hemits (by simp) (by simp [state_]) (Or.inl rfl))
  · exact .of_same (by simp [Empties, Closes]) h

theorem forceClose_ok (h : k.Flow) (hstate : k.state_ ≠ .kConnecting) :
    StepOk k { k with side := k.side.forceClose } .forceClose := by
  have hemits : Emits k { k with side := k.side.forceClose } none := by
    refine .none_of_eq rfl ?_
    simp only [view]
    rw [SendSide.forceClose_writing]
  exact .silent rfl hemits.view (by simp [Empties, Closes])
    (h.next hemits (by simp) (SendSide.forceClose_state_ne_kConnecting hstate) (Or.inl rfl))

theorem forceCloseInLoop_ok (h : k.Flow) (hparts : k.parts = []) :
    StepOk k k.forceCloseInLoop .forceCloseInLoop := by
  rw [forceCloseInLoop]
  split
  · rename_i hisOpen
    exact disconnect_ok h (Or.inl rfl) rfl rfl ⟨hparts, hisOpen⟩
  · rename_i hisOpen
    exact .of_same (by simp [Empties, Closes, hisOpen]) h

/-- Its last line is the next part of a handler of its own. -/
theorem connectDestroyed_ok (hstate : k.state_ ≠ .kConnecting) (hparts : k.parts = [])
    (hfirst : k.destroyed = false) : StepOk k k.connectDestroyed .connectDestroyed := by
  have hflow : ∀ k' : ReadConn, k'.parts = [.remove] → k'.state_ ≠ .kConnecting → k'.Flow :=
    fun k' hremove hstate' => ⟨fun hc => absurd hc hstate', fun _ => hremove, by simp [hremove]⟩
  rw [connectDestroyed]
  split
  · rename_i hconnected
    have hemits := (disconnect_emits { k with destroyed := true, parts := [.remove] }).of_eq
      (k := k) rfl rfl
    exact .of_empties hemits ⟨hparts, hfirst, hconnected⟩ (by simp) rfl (hflow _ rfl (by simp))
  · rename_i hconnected
    exact .silent rfl rfl (fun hempties => hconnected hempties.2.2) (hflow _ rfl hstate)

/-- A channel that is reported is registered. -/
theorem poll_ok (hstate : k.state_ ≠ .kConnecting) (hindex : k.index_ = .kAdded)
    (revents_ : Revents) : StepOk k { k with parts := revents_.parts } (.poll revents_) := by
  have hmem : ConnPart.remove ∉ revents_.parts := by
    unfold Revents.parts
    split <;> split <;> split <;> simp
  exact .silent rfl rfl (by simp [Empties, Closes])
    ⟨fun hc => absurd hc hstate, fun hc => absurd hc hmem, fun _ _ => hindex⟩

theorem step_ok (h : k.Flow) (e : ReadEvent) : StepOk k (k.step e) e := by
  by_cases hnew : k.state_ = .kConnecting
  · rw [step, if_pos hnew]
    split
    · rename_i he
      exact he ▸ connectEstablished_ok h hnew
    · exact .of_same (not_empties_of_connecting h hnew e) h
  · rw [step, if_neg hnew]
    cases e with
    | connectEstablished => exact .of_same (by simp [Empties, Closes]) h
    | startReadInLoop => exact startReadInLoop_ok h hnew
    | stopReadInLoop => exact stopReadInLoop_ok h hnew
    | sendInLoop message r =>
        refine onSide_ok (e := .sendInLoop message r) (f := fun side => side.sendInLoop message r) h
          (Or.inl rfl) rfl rfl (by simp [Empties, Closes]) ?_ ?_
        · simpa only [SendSide.sendInLoop_state_] using hnew
        · intro hwriting
          exact Or.inl (SendSide.sendInLoop_writing hwriting message r)
    | shutdown => exact shutdown_ok h
    | shutdownInLoop =>
        refine onSide_ok (e := .shutdownInLoop) (f := SendSide.shutdownInLoop) h (Or.inl rfl) rfl
          rfl (by simp [Empties, Closes]) ?_ ?_
        · simpa only [SendSide.shutdownInLoop_state_] using hnew
        · intro hwriting
          exact Or.inl (by rwa [SendSide.shutdownInLoop_writing])
    | forceClose => exact forceClose_ok h hnew
    | forceCloseInLoop =>
        rw [stepStarted]
        split
        · rename_i hparts
          exact forceCloseInLoop_ok h hparts
        · rename_i hparts
          exact .of_same (by simp [Empties, Closes, hparts]) h
    | connectDestroyed =>
        rw [stepStarted]
        split
        · rename_i hfirst
          exact connectDestroyed_ok hnew hfirst.1 hfirst.2
        · rename_i hfirst
          exact .of_same (fun hempties => hfirst ⟨hempties.1, hempties.2.1⟩) h
    | poll revents_ =>
        rw [stepStarted]
        split
        · rename_i hpoll
          exact poll_ok hnew hpoll.2.1 revents_
        · exact .of_same (by simp [Empties, Closes]) h
    | part n r =>
        cases hparts : k.parts with
        | nil =>
            have hstay : k.stepStarted (.part n r) = k := by simp only [stepStarted, hparts]
            rw [hstay]
            exact .of_same (by simp [Empties, Closes, hparts]) h
        | cons p rest =>
            rw [stepStarted_part hparts]
            exact part_ok h hnew hparts n r

end ReadConn
end DoubleTurnouts
