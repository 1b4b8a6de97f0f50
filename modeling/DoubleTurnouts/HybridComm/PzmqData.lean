/-
  DoubleTurnouts.HybridComm.PzmqData

  `pzmq_data::set_param` / `get_param`: two strings in one message, the
  first one's length in a leading `char`.  `char` is signed, so a length
  above 127 comes back negative; the reads then leave the message or ask
  `std::string` for an impossible size.  Both are reported as faults here.

  The int in which `get_param` keeps sizes is a parameter (`get_paramIn`).
-/
import Mathlib.Tactic
import DoubleTurnouts.Lib.Bytes
import DoubleTurnouts.Lib.Decimal

namespace DoubleTurnouts

/-- `pzmq(server).call_rpc_action(action, param, ..)`. -/
structure RpcCall where
  server : Bytes
  action : Bytes
  param : Bytes
  deriving DecidableEq, Repr

/-- The value of a `char`, signed as on x86-64. -/
def signedChar (c : UInt8) : Int := if c.toNat < 128 then c.toNat else c.toNat - 256

/-- `std::string(data + off, n)` over the message `data`: a size `n` that went negative is
    a `length_error`, bytes outside the message are out of bounds. -/
def stringAt (data : Bytes) (off n : Int) : Except Exn Bytes :=
  if n < 0 then .error .length_error
  else if off < 0 ∨ off + n > data.length then .error .out_of_bounds
  else .ok ((data.drop off.toNat).take n.toNat)

/-- `pzmq_data::get_param(index, idata)` on a message with the bytes `msg`, where `int` is what
    storing a number in an int does to it. -/
def get_paramIn (int : Int → Int) (msg : Bytes) (index : Int) (idata : Bytes) :
    Except Exn Bytes :=
  let data := if idata.length > 0 then idata else msg
  let size := int data.length
  match data with
  | [] => .error .out_of_bounds
  -- an index is even or odd, it is not compared with the number of parameters
  | c :: _ =>
      if index % 2 = 0 then stringAt data 1 (signedChar c)
      -- `data[0]` is a `char`, `size - data[0] - 1` an `int`
      else stringAt data (signedChar c + 1) (int (int (size - signedChar c) - 1))

/-- On a message whose sizes are ints. -/
def get_param (msg : Bytes) (index : Int) (idata : Bytes) : Except Exn Bytes :=
  get_paramIn id msg index idata

/-- `pzmq_data::set_param(param0, param1)`. -/
def set_param (param0 param1 : Bytes) : Bytes :=
  UInt8.ofNat param0.length :: (param0 ++ param1)

theorem signedChar_ofNat {n : Nat} (h : n ≤ 127) : signedChar (UInt8.ofNat n) = n := by
  have htoNat : (UInt8.ofNat n).toNat = n := by
    rw [UInt8.toNat_ofNat']
    omega
  rw [signedChar, if_pos (by omega), htoNat]

/-- The first parameter comes back while its length fits a signed `char`. -/
theorem get_param_zero_set_param {p0 : Bytes} (h : p0.length ≤ 127) (p1 : Bytes) :
    get_param (set_param p0 p1) 0 [] = .ok p0 := by
  simp only [get_param, get_paramIn, id_eq, set_param, List.length_nil, Nat.lt_irrefl,
    gt_iff_lt, if_false, Int.zero_emod, if_true, stringAt, signedChar_ofNat h]
  rw [if_neg (by omega), if_neg (by simp; omega)]
  simp

/-- So does the second one. -/
theorem get_param_one_set_param {p0 : Bytes} (h : p0.length ≤ 127) (p1 : Bytes) :
    get_param (set_param p0 p1) 1 [] = .ok p1 := by
  simp only [get_param, get_paramIn, id_eq, set_param, List.length_nil, Nat.lt_irrefl,
    gt_iff_lt, if_false, stringAt, signedChar_ofNat h]
  rw [if_neg (by decide), if_neg (by simp; omega), if_neg (by simp; omega)]
  have hoff : ((p0.length : Int) + 1).toNat = p0.length + 1 := by omega
  rw [hoff, List.drop_succ_cons, List.drop_left, List.take_of_length_le (by simp; omega)]

/-- A non-empty argument is read in the message's place. -/
theorem get_param_idata (msg : Bytes) (index : Int) {idata : Bytes} (h : idata ≠ []) :
    get_param msg index idata = get_param idata index [] := by
  have hpos : idata.length > 0 := List.length_pos_of_ne_nil h
  simp [get_param, get_paramIn, hpos]

/-- The first parameter comes back exactly if its length fits a signed `char`: a length
    byte of 128 and more is a negative size, a smaller one after a wrap-around cuts. -/
theorem get_param_zero_set_param_iff (p0 p1 : Bytes) :
    get_param (set_param p0 p1) 0 [] = .ok p0 ↔ p0.length ≤ 127 := by
  refine ⟨?_, fun h => get_param_zero_set_param h p1⟩
  intro hget
  by_contra hlong
  have htoNat : (UInt8.ofNat p0.length).toNat = p0.length % 256 := by
    rw [UInt8.toNat_ofNat']
  simp only [get_param, get_paramIn, id_eq, set_param, List.length_nil, Nat.lt_irrefl,
    gt_iff_lt, if_false, Int.zero_emod, if_true, stringAt] at hget
  -- the byte is the length modulo 256: either it is negative as a char, or it is too small
  by_cases hbyte : p0.length % 256 < 128
  · have hsize : signedChar (UInt8.ofNat p0.length) = (p0.length % 256 : Nat) := by
      rw [signedChar, htoNat, if_pos hbyte]
    rw [hsize, if_neg (by omega), if_neg (by simp; omega)] at hget
    have hcut := congrArg List.length (Except.ok.inj hget)
    simp at hcut
    omega
  · have hneg : signedChar (UInt8.ofNat p0.length) < 0 := by
      rw [signedChar, htoNat, if_neg hbyte]
      omega
    rw [if_pos hneg] at hget
    cases hget

/-- A longer one, up to what its length byte can hold, is a negative size. -/
theorem get_param_zero_set_param_long {p0 : Bytes} (hlong : 127 < p0.length)
    (hshort : p0.length < 256) (p1 : Bytes) :
    get_param (set_param p0 p1) 0 [] = .error .length_error := by
  have htoNat : (UInt8.ofNat p0.length).toNat = p0.length := by
    rw [UInt8.toNat_ofNat']
    omega
  have hneg : signedChar (UInt8.ofNat p0.length) < 0 := by
    rw [signedChar, if_neg (by omega), htoNat]
    omega
  simp [get_param, get_paramIn, set_param, stringAt, hneg]

end DoubleTurnouts
