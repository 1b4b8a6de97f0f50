/-
  DoubleTurnouts.Network.BufferDeque

  `network::Buffer` with its assertions, against a byte deque.

  `Checked` has the class's member functions with every `assert` in place: a
  failed one is an `Assertion` and ends the call.  `Buffer.call` dispatches the
  public operations, `Deque.call` says what each of them is for.  One call
  refines the deque (`call_refines`); a run does by induction, as long as
  callers meet the assertions that are theirs.
-/
import Mathlib.Tactic
import DoubleTurnouts.Lib.Endian
import DoubleTurnouts.Lib.Run
import DoubleTurnouts.Network.Buffer

namespace DoubleTurnouts

open Endian

/-- Where an assertion stands. -/
inductive Assertion
  | retrieve
  | retrieveAsString
  | ensureWritableBytes
  | makeSpaceReader
  | makeSpaceReadable
  | hasWritten
  | unwrite
  | peekInt
  | prepend
  deriving DecidableEq, Repr

/-- `assert(c)`. -/
def Assertion.check (a : Assertion) (c : Prop) [Decidable c] : Except Assertion Unit :=
  if c then .ok () else .error a

theorem Assertion.check_bind {α : Type} {a : Assertion} {c : Prop} [Decidable c] (h : c)
    (f : Unit → Except Assertion α) : (a.check c >>= f) = f () := by
  rw [Assertion.check, if_pos h]
  rfl

/-! ## The class with its assertions -/

/-- `int8_t` to `int64_t`. -/
inductive IntWidth
  | int8
  | int16
  | int32
  | int64
  deriving DecidableEq, Repr

/-- `sizeof`. -/
def IntWidth.bytes : IntWidth → Nat
  | .int8 => 1
  | .int16 => 2
  | .int32 => 4
  | .int64 => 8

/-- An integer of some width, by its bits. -/
structure SomeInt where
  width : IntWidth
  bits : BitVec (8 * width.bytes)

/-- `hostToNetwork16` to `hostToNetwork64`; a single byte is not converted. -/
def hostToNetwork (host : Order) : (w : IntWidth) → BitVec (8 * w.bytes) → BitVec (8 * w.bytes)
  | .int8, x => x
  | _, x => host.swap x

/-- `networkToHost16` to `networkToHost64`. -/
def networkToHost (host : Order) : (w : IntWidth) → BitVec (8 * w.bytes) → BitVec (8 * w.bytes)
  | .int8, x => x
  | _, x => host.swap x

namespace Buffer
namespace Checked

def retrieve (b : Buffer) (len : Nat) : Except Assertion Buffer := do
  Assertion.check .retrieve (len ≤ b.readableBytes)
  return b.retrieve len

def retrieveAsString (b : Buffer) (len : Nat) : Except Assertion (Bytes × Buffer) := do
  Assertion.check .retrieveAsString (len ≤ b.readableBytes)
  let result := b.peekAsString len
  let b ← retrieve b len
  return (result, b)

def makeSpace (b : Buffer) (len : Nat) : Except Assertion Buffer :=
  if b.writableBytes + b.prependableBytes < len + kCheapPrepend then
    return { b with buffer_ := resize b.buffer_ (b.writerIndex_ + len) }
  else do
    Assertion.check .makeSpaceReader (kCheapPrepend < b.readerIndex_)
    let readable := b.readableBytes
    let b : Buffer :=
      { buffer_ := copyAt b.buffer_ kCheapPrepend (b.peekAsString readable)
        readerIndex_ := kCheapPrepend
        writerIndex_ := kCheapPrepend + readable }
    Assertion.check .makeSpaceReadable (readable = b.readableBytes)
    return b

def ensureWritableBytes (b : Buffer) (len : Nat) : Except Assertion Buffer :=
  (if b.writableBytes < len then makeSpace b len else .ok b) >>= fun b => do
    Assertion.check .ensureWritableBytes (b.writableBytes ≥ len)
    return b

def hasWritten (b : Buffer) (len : Nat) : Except Assertion Buffer := do
  Assertion.check .hasWritten (len ≤ b.writableBytes)
  return b.hasWritten len

def append (b : Buffer) (data : Bytes) : Except Assertion Buffer := do
  let b ← ensureWritableBytes b data.length
  hasWritten (b.writeAtEnd data) data.length

def unwrite (b : Buffer) (len : Nat) : Except Assertion Buffer := do
  Assertion.check .unwrite (len ≤ b.readableBytes)
  return b.unwrite len

def prepend (b : Buffer) (data : Bytes) : Except Assertion Buffer := do
  Assertion.check .prepend (data.length ≤ b.prependableBytes)
  return b.prepend data

def peekInt (host : Order) (b : Buffer) (w : IntWidth) :
    Except Assertion (BitVec (8 * w.bytes)) := do
  Assertion.check .peekInt (b.readableBytes ≥ w.bytes)
  return networkToHost host w (Order.load w.bytes host (b.peekAsString w.bytes))

def readInt (host : Order) (b : Buffer) (w : IntWidth) :
    Except Assertion (BitVec (8 * w.bytes) × Buffer) := do
  let result ← peekInt host b w
  let b ← retrieve b w.bytes
  return (result, b)

def readFd (b : Buffer) : ReadResult → Except Assertion (Int × Buffer)
  | .error _ => .ok (-1, b)
  | .data received =>
      let writable := b.writableBytes
      let b' := b.writeAtEnd (received.take writable)
      if received.length ≤ writable then
        .ok (received.length, { b' with writerIndex_ := b'.writerIndex_ + received.length })
      else do
        let b' ← append { b' with writerIndex_ := b'.buffer_.length } (received.drop writable)
        return (received.length, b')

end Checked
end Buffer

/-! ## Operations -/

/-- A call of a public member function. -/
inductive BufferOp
  | append (data : Bytes)
  | appendInt (x : SomeInt)
  | prepend (data : Bytes)
  | prependInt (x : SomeInt)
  | retrieve (len : Nat)
  | retrieveAll
  | retrieveAsString (len : Nat)
  | readInt (w : IntWidth)
  | unwrite (len : Nat)
  | ensureWritableBytes (len : Nat)
  | readFd (result : ReadResult)

/-- What a call returns. -/
inductive BufferValue
  | unit
  | string (s : Bytes)
  | int (x : SomeInt)
  | count (n : Int)

/-- The bytes of a converted integer, as `append(&be, sizeof be)` copies them. -/
def networkBytes (host : Order) (x : SomeInt) : Bytes :=
  host.store (hostToNetwork host x.width x.bits)

/-- One call on a buffer of this host. -/
def Buffer.call (host : Order) (b : Buffer) : BufferOp → Except Assertion (BufferValue × Buffer)
  | .append data => do return (.unit, ← Checked.append b data)
  | .appendInt x => do return (.unit, ← Checked.append b (networkBytes host x))
  | .prepend data => do return (.unit, ← Checked.prepend b data)
  | .prependInt x => do return (.unit, ← Checked.prepend b (networkBytes host x))
  | .retrieve len => do return (.unit, ← Checked.retrieve b len)
  | .retrieveAll => return (.unit, b.retrieveAll)
  | .retrieveAsString len => do
      let (s, b) ← Checked.retrieveAsString b len
      return (.string s, b)
  | .readInt w => do
      let (x, b) ← Checked.readInt host b w
      return (.int ⟨w, x⟩, b)
  | .unwrite len => do return (.unit, ← Checked.unwrite b len)
  | .ensureWritableBytes len => do return (.unit, ← Checked.ensureWritableBytes b len)
  | .readFd result => do
      let (n, b) ← Checked.readFd b result
      return (.count n, b)

/-- The assertion that is the caller's to meet. -/
def OwnAssert (b : Buffer) : BufferOp → Prop
  | .append _ | .appendInt _ | .retrieveAll | .ensureWritableBytes _ | .readFd _ => True
  | .prepend data => data.length ≤ b.prependableBytes
  | .prependInt x => x.width.bytes ≤ b.prependableBytes
  | .retrieve len | .retrieveAsString len | .unwrite len => len ≤ b.readableBytes
  | .readInt w => w.bytes ≤ b.readableBytes

instance (b : Buffer) : (op : BufferOp) → Decidable (OwnAssert b op)
  | .append _ | .appendInt _ | .retrieveAll | .ensureWritableBytes _ | .readFd _ =>
      inferInstanceAs (Decidable True)
  | .prepend data => inferInstanceAs (Decidable (data.length ≤ b.prependableBytes))
  | .prependInt x => inferInstanceAs (Decidable (x.width.bytes ≤ b.prependableBytes))
  | .retrieve len | .retrieveAsString len | .unwrite len =>
      inferInstanceAs (Decidable (len ≤ b.readableBytes))
  | .readInt w => inferInstanceAs (Decidable (w.bytes ≤ b.readableBytes))

/-! ## The deque -/

/-- The same call on a byte deque.  Integers lie there highest byte first. -/
def Deque.call (d : Bytes) : BufferOp → BufferValue × Bytes
  | .append data => (.unit, d ++ data)
  | .appendInt x => (.unit, d ++ Order.big.store x.bits)
  | .prepend data => (.unit, data ++ d)
  | .prependInt x => (.unit, Order.big.store x.bits ++ d)
  | .retrieve len => (.unit, d.drop len)
  | .retrieveAll => (.unit, [])
  | .retrieveAsString len => (.string (d.take len), d.drop len)
  | .readInt w => (.int ⟨w, Order.load w.bytes .big (d.take w.bytes)⟩, d.drop w.bytes)
  | .unwrite len => (.unit, d.take (d.length - len))
  | .ensureWritableBytes _ => (.unit, d)
  | .readFd (.data received) => (.count received.length, d ++ received)
  | .readFd (.error _) => (.count (-1), d)

/-! ## No inner assertion fails -/

namespace Buffer
namespace Checked

variable {b : Buffer}

/-- The branch conditions give the slide branch its first assertion. -/
theorem makeSpace_ok {len : Nat} (hlt : b.writableBytes < len) :
    makeSpace b len = .ok (b.makeSpace len) := by
  unfold makeSpace Buffer.makeSpace
  split
  · rfl
  · rename_i hfit
    have hreader : kCheapPrepend < b.readerIndex_ := by
      rw [prependableBytes] at hfit
      omega
    have hreadable : b.readableBytes = kCheapPrepend + b.readableBytes - kCheapPrepend := by
      omega
    rw [Assertion.check_bind hreader]
    exact Assertion.check_bind hreadable _

theorem ensureWritableBytes_ok (h : b.WF) (len : Nat) :
    ensureWritableBytes b len = .ok (b.ensureWritableBytes len) := by
  obtain ⟨-, -, hroom⟩ := ensureWritableBytes_spec h len
  unfold ensureWritableBytes
  have hspace : (if b.writableBytes < len then makeSpace b len else .ok b)
      = .ok (b.ensureWritableBytes len) := by
    unfold Buffer.ensureWritableBytes
    split
    · rename_i hlt
      exact makeSpace_ok hlt
    · rfl
  rw [hspace]
  exact Assertion.check_bind hroom _

theorem append_ok (h : b.WF) (data : Bytes) : append b data = .ok (b.append data) := by
  obtain ⟨hwf, -, hroom⟩ := ensureWritableBytes_spec h data.length
  have hsize : data.length
      ≤ ((b.ensureWritableBytes data.length).writeAtEnd data).writableBytes := by
    have h2 := hwf.writer_le_size
    rw [writableBytes] at hroom
    rw [writableBytes, writeAtEnd]
    simp only
    rw [length_copyAt (by omega)]
    exact hroom
  rw [append, ensureWritableBytes_ok h]
  exact Assertion.check_bind hsize _

theorem retrieve_ok {len : Nat} (h : len ≤ b.readableBytes) :
    retrieve b len = .ok (b.retrieve len) :=
  Assertion.check_bind h _

/-- `readFd` with an `append` of what went to the spill area. -/
theorem readFd_ok (h : b.WF) (received : Bytes) :
    readFd b (.data received) = .ok (received.length, b.readFd received) := by
  unfold readFd Buffer.readFd
  simp only
  split
  · rfl
  · rename_i hgt
    have h1 := h.reader_le_writer
    have h2 := h.writer_le_size
    have htake : (received.take b.writableBytes).length = b.writableBytes := by
      rw [List.length_take]
      omega
    have hsize : (b.writeAtEnd (received.take b.writableBytes)).buffer_.length
        = b.buffer_.length := by
      apply length_copyAt
      rw [htake, writableBytes]
      omega
    have hfull : Buffer.WF { b.writeAtEnd (received.take b.writableBytes) with
        writerIndex_ := (b.writeAtEnd (received.take b.writableBytes)).buffer_.length } :=
      ⟨by rw [hsize]; exact h1.trans h2, Nat.le_refl _, by rw [hsize]; exact h.prepend_le_size⟩
    rw [append_ok hfull]
    rfl

end Checked
end Buffer

/-! ## One call -/

theorem store_hostToNetwork (host : Order) (x : SomeInt) :
    networkBytes host x = Order.big.store x.bits := by
  obtain ⟨w, bits⟩ := x
  unfold networkBytes hostToNetwork
  cases w with
  | int8 =>
      -- one byte has one layout
      cases host with
      | big => rfl
      | little => rfl
  | int16 => exact Order.store_swap host bits
  | int32 => exact Order.store_swap host bits
  | int64 => exact Order.store_swap host bits

theorem networkToHost_load (host : Order) (w : IntWidth) {s : Bytes} (h : s.length = w.bytes) :
    networkToHost host w (Order.load w.bytes host s) = Order.load w.bytes .big s := by
  cases w with
  | int8 =>
      obtain ⟨c, rfl⟩ := List.length_eq_one_iff.mp h
      cases host with
      | big => rfl
      | little => rfl
  | int16 => exact Order.swap_load host h
  | int32 => exact Order.swap_load host h
  | int64 => exact Order.swap_load host h

/-- A call that meets its own assertion meets all others, keeps the indices in order, and
    does to the content what it does to the deque. -/
theorem call_refines (host : Order) {b : Buffer} (h : b.WF) {op : BufferOp}
    (hown : OwnAssert b op) :
    ∃ v b', b.call host op = .ok (v, b') ∧ b'.WF ∧ Deque.call b.readable op = (v, b'.readable) := by
  -- one case per call: its own assertion in, the checked call evaluated, the content compared
  cases op with
  | append data =>
      refine ⟨.unit, b.append data, ?_, Buffer.append_wf h data, ?_⟩
      · rw [Buffer.call, Buffer.Checked.append_ok h]
        rfl
      · rw [Deque.call, Buffer.readable_append h]
  | appendInt x =>
      refine ⟨.unit, b.append (networkBytes host x), ?_, Buffer.append_wf h _, ?_⟩
      · rw [Buffer.call, Buffer.Checked.append_ok h]
        rfl
      · rw [Deque.call, Buffer.readable_append h, store_hostToNetwork]
  | prepend data =>
      change data.length ≤ b.prependableBytes at hown
      obtain ⟨hwf, hread⟩ := Buffer.prepend_spec h hown
      refine ⟨.unit, b.prepend data, ?_, hwf, by rw [Deque.call, hread]⟩
      rw [Buffer.call, Buffer.Checked.prepend, Assertion.check_bind hown]
      rfl
  | prependInt x =>
      -- the assertion is about the width, which is the length of what is stored
      have hlen : (networkBytes host x).length ≤ b.prependableBytes := by
        rw [store_hostToNetwork, Order.length_store]
        exact hown
      obtain ⟨hwf, hread⟩ := Buffer.prepend_spec h hlen
      refine ⟨.unit, b.prepend (networkBytes host x), ?_, hwf, ?_⟩
      · rw [Buffer.call, Buffer.Checked.prepend, Assertion.check_bind hlen]
        rfl
      · rw [Deque.call, hread, store_hostToNetwork]
  | retrieve len =>
      obtain ⟨hwf, hread⟩ := Buffer.retrieve_spec h len
      refine ⟨.unit, b.retrieve len, ?_, hwf, by rw [Deque.call, hread]⟩
      rw [Buffer.call, Buffer.Checked.retrieve_ok hown]
      rfl
  | retrieveAll =>
      obtain ⟨hwf, hread⟩ := Buffer.retrieveAll_spec h
      exact ⟨.unit, b.retrieveAll, rfl, hwf, by rw [Deque.call, hread]⟩
  | retrieveAsString len =>
      change len ≤ b.readableBytes at hown
      obtain ⟨hwf, hread⟩ := Buffer.retrieve_spec h len
      refine ⟨.string (b.peekAsString len), b.retrieve len, ?_, hwf, ?_⟩
      · rw [Buffer.call, Buffer.Checked.retrieveAsString, Assertion.check_bind hown,
          Buffer.Checked.retrieve_ok hown]
        rfl
      · rw [Deque.call, hread, Buffer.peekAsString_eq hown]
  | readInt w =>
      change w.bytes ≤ b.readableBytes at hown
      have hlen : (b.readable.take w.bytes).length = w.bytes := by
        rw [List.length_take, Buffer.length_readable h]
        exact Nat.min_eq_left hown
      obtain ⟨hwf, hread⟩ := Buffer.retrieve_spec h w.bytes
      refine ⟨.int ⟨w, Order.load w.bytes .big (b.readable.take w.bytes)⟩, b.retrieve w.bytes, ?_,
        hwf, by rw [Deque.call, hread]⟩
      -- `peekInt` and `retrieve` check the same length
      rw [Buffer.call, Buffer.Checked.readInt, Buffer.Checked.peekInt, Assertion.check_bind hown,
        Buffer.peekAsString_eq hown, networkToHost_load host w hlen]
      show (Buffer.Checked.retrieve b w.bytes >>= _) >>= _ = _
      rw [Buffer.Checked.retrieve_ok hown]
      rfl
  | unwrite len =>
      change len ≤ b.readableBytes at hown
      obtain ⟨hwf, hread⟩ := Buffer.unwrite_spec h hown
      refine ⟨.unit, b.unwrite len, ?_, hwf, by rw [Deque.call, hread]⟩
      rw [Buffer.call, Buffer.Checked.unwrite, Assertion.check_bind hown]
      rfl
  | ensureWritableBytes len =>
      obtain ⟨hwf, hread, -⟩ := Buffer.ensureWritableBytes_spec h len
      refine ⟨.unit, b.ensureWritableBytes len, ?_, hwf, by rw [Deque.call, hread]⟩
      rw [Buffer.call, Buffer.Checked.ensureWritableBytes_ok h]
      rfl
  | readFd result =>
      cases result with
      | error savedErrno => exact ⟨.count (-1), b, rfl, h, rfl⟩
      | data received =>
          obtain ⟨hwf, hread⟩ := Buffer.readFd_spec h received
          refine ⟨.count received.length, b.readFd received, ?_, hwf, by rw [Deque.call, hread]⟩
          rw [Buffer.call, Buffer.Checked.readFd_ok h]
          rfl

/-! ## Runs -/

/-- Calls one after the other, with what they return, up to a failed assertion. -/
def Buffer.calls (host : Order) (b : Buffer) :
    List BufferOp → Except Assertion (List BufferValue × Buffer)
  | [] => .ok ([], b)
  | op :: ops => do
      let (v, b) ← b.call host op
      let (vs, b) ← b.calls host ops
      return (v :: vs, b)

def Deque.calls (d : Bytes) : List BufferOp → List BufferValue × Bytes
  | [] => ([], d)
  | op :: ops =>
      let (v, d) := Deque.call d op
      let (vs, d) := Deque.calls d ops
      (v :: vs, d)

/-- Each call meets its own assertion in the state it is made in. -/
def OwnAsserts (host : Order) (b : Buffer) : List BufferOp → Prop
  | [] => True
  | op :: ops => OwnAssert b op ∧
      ∀ v b', b.call host op = .ok (v, b') → OwnAsserts host b' ops

/-- A call has one outcome, so the condition can be evaluated along the run. -/
theorem ownAsserts_cons_iff {host : Order} {b b' : Buffer} {op : BufferOp} {ops : List BufferOp}
    {v : BufferValue} (h : b.call host op = .ok (v, b')) :
    OwnAsserts host b (op :: ops) ↔ OwnAssert b op ∧ OwnAsserts host b' ops := by
  constructor
  · rintro ⟨hown, hrest⟩
    exact ⟨hown, hrest v b' h⟩
  · rintro ⟨hown, hrest⟩
    refine ⟨hown, ?_⟩
    intro v' b'' hcall
    rw [h] at hcall
    obtain ⟨-, rfl⟩ := Prod.mk.inj (Except.ok.inj hcall)
    exact hrest

theorem calls_cons {host : Order} {b b1 b2 : Buffer} {op : BufferOp} {ops : List BufferOp}
    {v : BufferValue} {vs : List BufferValue} (h : b.call host op = .ok (v, b1))
    (h' : b1.calls host ops = .ok (vs, b2)) : b.calls host (op :: ops) = .ok (v :: vs, b2) := by
  simp only [Buffer.calls, h]
  show (b1.calls host ops >>= _) = _
  rw [h']
  rfl

/-- A run from any buffer in order. -/
theorem calls_refine (host : Order) {b : Buffer} (h : b.WF) {ops : List BufferOp}
    (hown : OwnAsserts host b ops) :
    ∃ vs b', b.calls host ops = .ok (vs, b') ∧ b'.WF ∧
      Deque.calls b.readable ops = (vs, b'.readable) := by
  induction ops generalizing b with
  | nil => exact ⟨[], b, rfl, h, rfl⟩
  | cons op ops ih =>
      obtain ⟨v, b1, hcall, hwf1, hdeque1⟩ := call_refines host h hown.1
      obtain ⟨vs, b2, hcalls, hwf2, hdeque2⟩ := ih hwf1 (hown.2 v b1 hcall)
      refine ⟨v :: vs, b2, calls_cons hcall hcalls, hwf2, ?_⟩
      rw [Deque.calls, hdeque1]
      simp only [hdeque2]

/-- A run that meets its assertions does so up to any point. -/
theorem OwnAsserts.before {host : Order} {b : Buffer} {before after : List BufferOp}
    (h : OwnAsserts host b (before ++ after)) : OwnAsserts host b before := by
  induction before generalizing b with
  | nil => trivial
  | cons op before ih => exact ⟨h.1, fun v b' hcall => ih (h.2 v b' hcall)⟩

/-! ### Integers -/

/-- The bytes of a list of integers, as they lie in the deque. -/
def intBytes (xs : List SomeInt) : Bytes := xs.flatMap fun x => Order.big.store x.bits

/-- A run is continued by another one. -/
theorem calls_append {host : Order} {b b1 b2 : Buffer} {ops ops' : List BufferOp}
    {vs vs' : List BufferValue} (h : b.calls host ops = .ok (vs, b1))
    (h' : b1.calls host ops' = .ok (vs', b2)) :
    b.calls host (ops ++ ops') = .ok (vs ++ vs', b2) := by
  induction ops generalizing b vs with
  | nil =>
      cases h
      exact h'
  | cons op ops ih =>
      obtain ⟨⟨v, b3⟩, hcall, h⟩ := exists_of_bind_eq_ok h
      obtain ⟨⟨vs3, b4⟩, hcalls, h⟩ := exists_of_bind_eq_ok h
      cases h
      exact calls_cons hcall (ih hcalls)

/-- Appending integers returns nothing and adds their bytes. -/
theorem appendInts_calls (host : Order) {b : Buffer} (h : b.WF) (xs : List SomeInt) :
    ∃ b', b.calls host (xs.map .appendInt) = .ok (xs.map fun _ => .unit, b') ∧ b'.WF ∧
      b'.readable = b.readable ++ intBytes xs := by
  induction xs generalizing b with
  | nil => exact ⟨b, rfl, h, (List.append_nil _).symm⟩
  | cons x xs ih =>
      obtain ⟨v, b1, hcall, hwf1, hdeque⟩ := @call_refines host b h (.appendInt x) trivial
      obtain ⟨rfl, hread1⟩ := Prod.mk.inj hdeque
      obtain ⟨b2, hcalls, hwf2, hread2⟩ := ih hwf1
      refine ⟨b2, calls_cons hcall hcalls, hwf2, ?_⟩
      rw [hread2, ← hread1, List.append_assoc]
      rfl

/-- Reading the widths back in the same order returns the integers. -/
theorem readInts_calls (host : Order) {b : Buffer} (h : b.WF) {xs : List SomeInt} {rest : Bytes}
    (hread : b.readable = intBytes xs ++ rest) :
    ∃ b', b.calls host (xs.map fun x => .readInt x.width) = .ok (xs.map .int, b') ∧ b'.WF ∧
      b'.readable = rest := by
  induction xs generalizing b with
  | nil => exact ⟨b, rfl, h, hread⟩
  | cons x xs ih =>
      have hsplit : b.readable = Order.big.store x.bits ++ (intBytes xs ++ rest) := by
        rw [hread, ← List.append_assoc]
        rfl
      have hown : OwnAssert b (.readInt x.width) := by
        show x.width.bytes ≤ b.readableBytes
        rw [← Buffer.length_readable h, hsplit, List.length_append, Order.length_store]
        omega
      obtain ⟨v, b1, hcall, hwf1, hdeque⟩ := call_refines host h hown
      obtain ⟨rfl, hread1⟩ := Prod.mk.inj hdeque
      have hlen : (Order.big.store x.bits).length = x.width.bytes := Order.length_store _ _
      have htake : b.readable.take x.width.bytes = Order.big.store x.bits := by
        rw [hsplit, List.take_left' hlen]
      have hdrop : b.readable.drop x.width.bytes = intBytes xs ++ rest := by
        rw [hsplit, List.drop_left' hlen]
      rw [hdrop] at hread1
      obtain ⟨b2, hcalls, hwf2, hread2⟩ := ih hwf1 hread1.symm
      rw [htake, Order.load_store] at hcall
      exact ⟨b2, calls_cons hcall hcalls, hwf2, hread2⟩

/-- For every host, initial size and sequence of calls that meet their own assertions: up to
    every point of the run no other assertion fails, the indices are in order, and values and
    content are those of the deque.  Integers appended at its end come out as they went in,
    in the same order, once what was there before has been taken out. -/
theorem buffer_refines_deque (host : Order) (initialSize : Nat) (ops : List BufferOp)
    (hown : OwnAsserts host (Buffer.new initialSize) ops) :
    (∀ before after, ops = before ++ after →
      ∃ vs b, (Buffer.new initialSize).calls host before = .ok (vs, b) ∧
        b.readerIndex_ ≤ b.writerIndex_ ∧ b.writerIndex_ ≤ b.buffer_.length ∧
        Deque.calls [] before = (vs, b.readable)) ∧
    ∀ xs : List SomeInt, ∃ vs b,
      (Buffer.new initialSize).calls host (ops ++ (xs.map .appendInt ++
        .retrieve (Deque.calls [] ops).2.length :: xs.map fun x => .readInt x.width))
          = .ok (vs ++ xs.map .int, b) := by
  have hempty : (Buffer.new initialSize).readable = [] := Buffer.readable_new initialSize
  refine ⟨?_, ?_⟩
  · rintro before after rfl
    obtain ⟨vs, b, hcalls, hwf, hdeque⟩ :=
      calls_refine host (Buffer.new_wf initialSize) hown.before
    rw [hempty] at hdeque
    exact ⟨vs, b, hcalls, hwf.reader_le_writer, hwf.writer_le_size, hdeque⟩
  · intro xs
    obtain ⟨vs, b, hcalls, hwf, hdeque⟩ := calls_refine host (Buffer.new_wf initialSize) hown
    rw [hempty] at hdeque
    obtain ⟨b1, happend, hwf1, hread1⟩ := appendInts_calls host hwf xs
    have hretrieve : OwnAssert b1 (.retrieve b.readable.length) := by
      show b.readable.length ≤ b1.readableBytes
      rw [← Buffer.length_readable hwf1, hread1, List.length_append]
      omega
    obtain ⟨v, b2, hcall, hwf2, hdeque2⟩ := call_refines host hwf1 hretrieve
    obtain ⟨rfl, hread2⟩ := Prod.mk.inj hdeque2
    rw [hread1, List.drop_left] at hread2
    obtain ⟨b3, hreads, -, -⟩ := @readInts_calls host b2 hwf2 xs []
      (by rw [List.append_nil]; exact hread2.symm)
    refine ⟨vs ++ ((xs.map fun _ => .unit) ++ [.unit]), b3, ?_⟩
    have hall := calls_append hcalls (calls_append happend (calls_cons hcall hreads))
    rw [hdeque]
    simpa using hall

/-- An empty buffer that has to grow, is prepended to, read from both ends and drained. -/
def mixedCalls : List BufferOp :=
  [.append [1, 2, 3], .prependInt ⟨.int16, 7⟩, .readFd (.data [4, 5, 6]), .unwrite 1,
   .readInt .int16, .retrieve 5]

theorem buffer_refines_deque_mixed :
    ∃ vs b, (Buffer.new 0).calls .little mixedCalls = .ok (vs, b) ∧
      b.readerIndex_ ≤ b.writerIndex_ ∧ b.writerIndex_ ≤ b.buffer_.length ∧
      Deque.calls [] mixedCalls = (vs, b.readable) := by
  refine (buffer_refines_deque .little 0 mixedCalls ?_).1 mixedCalls []
    (List.append_nil _).symm
  rw [mixedCalls, ownAsserts_cons_iff rfl, ownAsserts_cons_iff rfl, ownAsserts_cons_iff rfl,
    ownAsserts_cons_iff rfl, ownAsserts_cons_iff rfl, ownAsserts_cons_iff rfl]
  exact ⟨by decide, by decide, by decide, by decide, by decide, by decide, trivial⟩

end DoubleTurnouts
