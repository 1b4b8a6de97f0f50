/-
  DoubleTurnouts.Lib.Endian

  Machine words in memory.  A word of `n` bytes is a `BitVec (8 * n)`; `store`
  lays it out in the host's byte order and `load` reads it back.  `swap` is the
  conversion to and from network order (`htobe*` / `be*toh`): whatever the
  host, a swapped word in memory is the big-endian layout.
-/
import Mathlib.Tactic
import DoubleTurnouts.Lib.Bytes

namespace DoubleTurnouts
namespace Endian

/-! ## Numbers as digits to the base 256 -/

/-- The `n` low digits of `x`, lowest first. -/
def split : (n x : Nat) → Bytes
  | 0, _ => []
  | n + 1, x => UInt8.ofNat x :: split n (x / 256)

/-- The number with these digits. -/
def join : Bytes → Nat
  | [] => 0
  | c :: s => c.toNat + 256 * join s

@[simp] theorem length_split (n x : Nat) : (split n x).length = n := by
  induction n generalizing x with
  | zero => rfl
  | succ n ih => rw [split, List.length_cons, ih]

theorem join_lt (s : Bytes) : join s < 256 ^ s.length := by
  induction s with
  | nil => decide
  | cons c s ih =>
      have hc : c.toNat < 256 := c.toNat_lt
      rw [join, List.length_cons, Nat.pow_succ]
      omega

theorem join_split {n x : Nat} (h : x < 256 ^ n) : join (split n x) = x := by
  induction n generalizing x with
  | zero =>
      have hx : x = 0 := by simpa using h
      rw [hx]
      rfl
  | succ n ih =>
      have hdiv : x / 256 < 256 ^ n := by
        rw [Nat.pow_succ] at h
        omega
      have hlow : (UInt8.ofNat x).toNat = x % 256 := UInt8.toNat_ofNat'
      rw [split, join, ih hdiv, hlow]
      omega

theorem split_join (s : Bytes) : split s.length (join s) = s := by
  induction s with
  | nil => rfl
  | cons c s ih =>
      have hc : c.toNat < 256 := c.toNat_lt
      -- the lowest digit is cut off by the conversion to a byte
      have hlow : UInt8.ofNat (c.toNat + 256 * join s) = c := by
        apply UInt8.toNat_inj.mp
        rw [UInt8.toNat_ofNat']
        omega
      have hhigh : (c.toNat + 256 * join s) / 256 = join s := by omega
      rw [List.length_cons, join, split, hlow, hhigh, ih]

/-! ## Words in memory -/

/-- The byte order of a host. -/
inductive Order
  | little
  | big
  deriving DecidableEq, Repr

namespace Order

variable {n : Nat}

def store : Order → BitVec (8 * n) → Bytes
  | .little, x => split n x.toNat
  | .big, x => (split n x.toNat).reverse

def load (n : Nat) : Order → Bytes → BitVec (8 * n)
  | .little, s => BitVec.ofNat (8 * n) (join s)
  | .big, s => BitVec.ofNat (8 * n) (join s.reverse)

/-- The word whose layout on this host is the big-endian one. -/
def swap : Order → BitVec (8 * n) → BitVec (8 * n)
  | .little, x => load n .little (store .little x).reverse
  | .big, x => x

@[simp] theorem length_store (o : Order) (x : BitVec (8 * n)) : (o.store x).length = n := by
  cases o <;> simp [store]

theorem two_pow_eight_mul (n : Nat) : 2 ^ (8 * n) = 256 ^ n := by
  rw [Nat.pow_mul]

theorem load_store (o : Order) (x : BitVec (8 * n)) : load n o (o.store x) = x := by
  have hlt : x.toNat < 256 ^ n := by
    rw [← two_pow_eight_mul]
    exact x.isLt
  apply BitVec.eq_of_toNat_eq
  cases o with
  | little => rw [load, store, BitVec.toNat_ofNat, join_split hlt, Nat.mod_eq_of_lt x.isLt]
  | big =>
      rw [load, store, List.reverse_reverse, BitVec.toNat_ofNat, join_split hlt,
        Nat.mod_eq_of_lt x.isLt]

theorem store_load (o : Order) {s : Bytes} (h : s.length = n) : o.store (load n o s) = s := by
  subst h
  -- no digit is lost: the number fits a word of that many bytes
  have hmod : ∀ t : Bytes, t.length = s.length →
      (BitVec.ofNat (8 * s.length) (join t)).toNat = join t := by
    intro t ht
    have hlt := join_lt t
    rw [BitVec.toNat_ofNat, two_pow_eight_mul]
    apply Nat.mod_eq_of_lt
    rw [← ht]
    exact hlt
  cases o with
  | little => rw [store, load, hmod s rfl, split_join]
  | big =>
      have hsplit := split_join s.reverse
      rw [List.length_reverse] at hsplit
      rw [store, load, hmod s.reverse (by simp), hsplit, List.reverse_reverse]

/-- On every host a swapped word lies in memory highest byte first. -/
theorem store_swap (o : Order) (x : BitVec (8 * n)) : o.store (o.swap x) = big.store x := by
  cases o with
  | big => rfl
  | little =>
      rw [swap, store_load little (by simp)]
      rfl

/-- So swapping what was loaded reads the bytes highest first. -/
theorem swap_load (o : Order) {s : Bytes} (h : s.length = n) :
    o.swap (load n o s) = load n big s := by
  cases o with
  | big => rfl
  | little =>
      rw [swap, store_load little h]
      rfl

end Order
end Endian
end DoubleTurnouts
