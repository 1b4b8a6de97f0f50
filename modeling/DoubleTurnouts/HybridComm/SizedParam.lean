/-
  DoubleTurnouts.HybridComm.SizedParam

  `get_param` with its sizes in the `int` of the source: the length of the
  message is cast to one before the second component's size is computed from
  it.  For messages below 2 GiB the casts change nothing (`get_param_eq`).

  The codec is right for a first component of at most 127 bytes and a second
  one below 2^31 (`codec_domain_iff`).
-/
import Mathlib.Tactic
import DoubleTurnouts.HybridComm.PzmqData

namespace DoubleTurnouts

open Decimal

namespace Sized

/-- `pzmq_data::get_param(index, idata)`. -/
def get_param (msg : Bytes) (index : Int) (idata : Bytes) : Except Exn Bytes :=
  get_paramIn wrap32 msg index idata

theorem wrap32_sub_wrap32 (n : Nat) (c : Int) :
    wrap32 (wrap32 (wrap32 n - c) - 1) = wrap32 (n - c - 1) := by
  simp only [wrap32, Int.bmod_sub_bmod]

theorem get_param_even (msg : Bytes) {index : Int} (h : index % 2 = 0) :
    get_param msg index [] = DoubleTurnouts.get_param msg 0 [] := by
  cases msg with
  | nil => rfl
  | cons c msg => simp [get_param, DoubleTurnouts.get_param, get_paramIn, h]

theorem get_param_odd (c : UInt8) (rest : Bytes) {index : Int} (h : ¬ index % 2 = 0) :
    get_param (c :: rest) index [] =
      stringAt (c :: rest) (signedChar c + 1)
        (wrap32 ((c :: rest).length - signedChar c - 1)) := by
  rw [← wrap32_sub_wrap32]
  simp [get_param, get_paramIn, h]

theorem signedChar_range (c : UInt8) : -128 ≤ signedChar c ∧ signedChar c ≤ 127 := by
  have := c.toNat_lt
  unfold signedChar
  split <;> omega

/-- For messages below 2 GiB the casts change nothing. -/
theorem get_param_eq {msg : Bytes} (h : msg.length < 2 ^ 31 - 128) (index : Int) :
    get_param msg index [] = DoubleTurnouts.get_param msg index [] := by
  by_cases hindex : index % 2 = 0
  · rw [get_param_even msg hindex]
    cases msg <;> simp [DoubleTurnouts.get_param, get_paramIn, hindex]
  · cases msg with
    | nil => rfl
    | cons c rest =>
        have hrange := signedChar_range c
        have hcast : wrap32 ((c :: rest).length - signedChar c - 1) =
            (c :: rest).length - signedChar c - 1 := by
          apply wrap32_of_isInt32
          unfold IsInt32
          omega
        rw [get_param_odd c rest hindex, hcast]
        simp [DoubleTurnouts.get_param, get_paramIn, hindex]

/-- What is read is no longer than the message. -/
theorem length_le_of_get_param {msg part : Bytes} {index : Int}
    (h : DoubleTurnouts.get_param msg index [] = .ok part) : part.length ≤ msg.length := by
  have hstring : ∀ off n, stringAt msg off n = .ok part → part.length ≤ msg.length := by
    intro off n hn
    unfold stringAt at hn
    split_ifs at hn
    cases hn
    rw [List.length_take, List.length_drop]
    omega
  cases msg with
  | nil => cases h
  | cons c rest =>
      simp only [DoubleTurnouts.get_param, get_paramIn, List.length_nil, Nat.lt_irrefl,
        gt_iff_lt, if_false] at h
      split_ifs at h
      · exact hstring _ _ h
      · exact hstring _ _ h

/-- A non-empty argument is read in the message's place. -/
theorem get_param_idata (msg : Bytes) (index : Int) {idata : Bytes} (h : idata ≠ []) :
    get_param msg index idata = get_param idata index [] := by
  have hpos : idata.length > 0 := List.length_pos_of_ne_nil h
  simp [get_param, get_paramIn, hpos]

end Sized

/-! ## The domain of the codec -/

/-- Both components come back from `s`, whatever even or odd number asks for them; a read
    outside of `s` would be an error. -/
def Decodes (p0 p1 : Bytes) : Prop :=
  (∀ i : Int, i % 2 = 0 → Sized.get_param [] i (set_param p0 p1) = .ok p0) ∧
    ∀ j : Int, ¬ j % 2 = 0 → Sized.get_param [] j (set_param p0 p1) = .ok p1

/-- What is read of a second component whose predecessor is short. -/
theorem get_param_odd_set_param {p0 : Bytes} (h : p0.length ≤ 127) (p1 : Bytes) {j : Int}
    (hj : ¬ j % 2 = 0) :
    Sized.get_param (set_param p0 p1) j [] =
      if wrap32 p1.length < 0 then .error .length_error
      else .ok (p1.take (wrap32 p1.length).toNat) := by
  have hsize : ((set_param p0 p1).length : Int) - p0.length - 1 = p1.length := by
    simp only [set_param, List.length_cons, List.length_append]
    omega
  have hoff : ((p0.length : Int) + 1).toNat = p0.length + 1 := by omega
  -- casting to an `int` makes no size larger
  have hle : 0 ≤ wrap32 p1.length → wrap32 p1.length ≤ p1.length := by
    intro hpos
    rw [wrap32, Int.bmod_def]
    split <;> omega
  rw [set_param, Sized.get_param_odd _ _ hj, ← set_param, signedChar_ofNat h, hsize, stringAt]
  by_cases hneg : wrap32 p1.length < 0
  · rw [if_pos hneg, if_pos hneg]
  · rw [if_neg hneg, if_neg hneg, if_neg (by omega), hoff, set_param, List.drop_succ_cons,
      List.drop_left]

/-- It is read whole if its size is an `int`. -/
theorem get_param_odd_set_param_iff {p0 : Bytes} (h : p0.length ≤ 127) (p1 : Bytes) {j : Int}
    (hj : ¬ j % 2 = 0) :
    Sized.get_param (set_param p0 p1) j [] = .ok p1 ↔ p1.length < 2 ^ 31 := by
  rw [get_param_odd_set_param h p1 hj]
  constructor
  · intro hread
    have hrange := isInt32_wrap32 p1.length
    unfold IsInt32 at hrange
    split at hread
    · cases hread
    · -- what is cut off is missed, as the cast of a larger size is no size of it
      have hlen := congrArg List.length (Except.ok.inj hread)
      rw [List.length_take] at hlen
      omega
  · intro hsize
    have hcast : wrap32 p1.length = p1.length := by
      apply wrap32_of_isInt32
      unfold IsInt32
      omega
    rw [hcast, if_neg (by omega)]
    simp

theorem decodes_iff (p0 p1 : Bytes) : Decodes p0 p1 ↔ p0.length ≤ 127 ∧ p1.length < 2 ^ 31 := by
  have hread : ∀ i, Sized.get_param [] i (set_param p0 p1) =
      Sized.get_param (set_param p0 p1) i [] :=
    fun i => Sized.get_param_idata [] i (by simp [set_param])
  simp only [Decodes, hread]
  constructor
  · rintro ⟨heven, hodd⟩
    -- the first component has to fit a signed byte before the second is looked at
    have hshort : p0.length ≤ 127 := by
      have hzero := heven 0 rfl
      rw [Sized.get_param_even _ rfl] at hzero
      exact (get_param_zero_set_param_iff p0 p1).mp hzero
    exact ⟨hshort, (get_param_odd_set_param_iff hshort p1 (by decide)).mp (hodd 1 (by decide))⟩
  · rintro ⟨hshort, hsize⟩
    refine ⟨fun i hi => ?_, fun j hj => (get_param_odd_set_param_iff hshort p1 hj).mpr hsize⟩
    rw [Sized.get_param_even _ hi]
    exact get_param_zero_set_param hshort p1

/-- That the codec is right exactly for a first component of at most 127 bytes is so unless such
    a one is followed by 2^31 bytes or more. -/
theorem codec_domain_iff (p0 p1 : Bytes) :
    (Decodes p0 p1 ↔ p0.length ≤ 127) ↔ (p0.length ≤ 127 → p1.length < 2 ^ 31) := by
  rw [decodes_iff]
  tauto

/-- An empty first component and 2^31 bytes. -/
theorem huge_second_component_lost :
    ([] : Bytes).length ≤ 127 ∧ ¬ (Decodes [] (List.replicate (2 ^ 31) 0) ↔
      ([] : Bytes).length ≤ 127) := by
  refine ⟨by decide, ?_⟩
  rw [decodes_iff, List.length_replicate, List.length_nil]
  omega

end DoubleTurnouts
