/-
  DoubleTurnouts.Network.Buffer

  `network::Buffer`: a byte vector with a read and a write index.  The model
  keeps the vector and both indices as the class does, including the slide
  and grow branches of `makeSpace` and the spill area of `readFd`.

  `Buffer.readable` is the abstract content.  Every operation below is
  characterised by what it does to `readable` and by `Buffer.WF`, the index
  order the class diagram states; callers use those lemmas and never unfold
  an operation.
-/
import Mathlib.Tactic
import DoubleTurnouts.Lib.Bytes

namespace DoubleTurnouts

/-- What `readFd` reports: `n >= 0` with the bytes delivered, or an error. -/
inductive ReadResult
  | data (received : Bytes)
  | error (savedErrno : Int)
  deriving DecidableEq, Repr

structure Buffer where
  buffer_ : Bytes
  readerIndex_ : Nat
  writerIndex_ : Nat
  deriving DecidableEq, Repr

namespace Buffer

def kCheapPrepend : Nat := 8
def kInitialSize : Nat := 1024 * 4

/-- `Buffer(size_t initialSize)`. -/
def new (initialSize : Nat) : Buffer where
  buffer_ := List.replicate (kCheapPrepend + initialSize) 0
  readerIndex_ := kCheapPrepend
  writerIndex_ := kCheapPrepend

def readableBytes (b : Buffer) : Nat := b.writerIndex_ - b.readerIndex_
def writableBytes (b : Buffer) : Nat := b.buffer_.length - b.writerIndex_
def prependableBytes (b : Buffer) : Nat := b.readerIndex_

/-- `std::string(peek(), len)`. -/
def peekAsString (b : Buffer) (len : Nat) : Bytes := (b.buffer_.drop b.readerIndex_).take len

def retrieveAll (b : Buffer) : Buffer :=
  { b with readerIndex_ := kCheapPrepend, writerIndex_ := kCheapPrepend }

def retrieve (b : Buffer) (len : Nat) : Buffer :=
  if len < b.readableBytes then { b with readerIndex_ := b.readerIndex_ + len }
  else b.retrieveAll

def retrieveAsString (b : Buffer) (len : Nat) : Bytes × Buffer :=
  (b.peekAsString len, b.retrieve len)

def retrieveAllAsString (b : Buffer) : Bytes × Buffer := b.retrieveAsString b.readableBytes

/-- `std::copy` of `data` to position `i`, which lies inside the vector. -/
def copyAt (v : Bytes) (i : Nat) (data : Bytes) : Bytes :=
  v.take i ++ data ++ v.drop (i + data.length)

/-- `buffer_.resize(n)`. -/
def resize (v : Bytes) (n : Nat) : Bytes := v.take n ++ List.replicate (n - v.length) 0

def makeSpace (b : Buffer) (len : Nat) : Buffer :=
  -- grow if sliding the content back would not make enough room
  if b.writableBytes + b.prependableBytes < len + kCheapPrepend then
    { b with buffer_ := resize b.buffer_ (b.writerIndex_ + len) }
  else
    let readable := b.readableBytes
    { buffer_ := copyAt b.buffer_ kCheapPrepend (b.peekAsString readable)
      readerIndex_ := kCheapPrepend
      writerIndex_ := kCheapPrepend + readable }

def ensureWritableBytes (b : Buffer) (len : Nat) : Buffer :=
  if b.writableBytes < len then b.makeSpace len else b

def hasWritten (b : Buffer) (len : Nat) : Buffer :=
  { b with writerIndex_ := b.writerIndex_ + len }

/-- `std::copy` to `beginWrite()`. -/
def writeAtEnd (b : Buffer) (data : Bytes) : Buffer :=
  { b with buffer_ := copyAt b.buffer_ b.writerIndex_ data }

def append (b : Buffer) (data : Bytes) : Buffer :=
  ((b.ensureWritableBytes data.length).writeAtEnd data).hasWritten data.length

/-- `readFd` when `readv` delivered the bytes `received` (`n = received.length`): `vec[0]`
    is filled first, what does not fit went to `extrabuf` and is appended. -/
def readFd (b : Buffer) (received : Bytes) : Buffer :=
  let writable := b.writableBytes
  let b' := b.writeAtEnd (received.take writable)
  if received.length ≤ writable then b'.hasWritten received.length
  else
    let full := { b' with writerIndex_ := b'.buffer_.length }
    full.append (received.drop writable)

def unwrite (b : Buffer) (len : Nat) : Buffer :=
  { b with writerIndex_ := b.writerIndex_ - len }

/-- The data is copied in front of the content, below the read index. -/
def prepend (b : Buffer) (data : Bytes) : Buffer :=
  { b with
    buffer_ := copyAt b.buffer_ (b.readerIndex_ - data.length) data
    readerIndex_ := b.readerIndex_ - data.length }

/-! ## Content and index order -/

/-- The readable bytes. -/
def readable (b : Buffer) : Bytes := (b.buffer_.take b.writerIndex_).drop b.readerIndex_

/-- `0 <= readerIndex <= writerIndex <= size`, as the class diagram has it, and the
    prepend area the vector is constructed with. -/
structure WF (b : Buffer) : Prop where
  reader_le_writer : b.readerIndex_ ≤ b.writerIndex_
  writer_le_size : b.writerIndex_ ≤ b.buffer_.length
  prepend_le_size : kCheapPrepend ≤ b.buffer_.length

theorem new_wf (n : Nat) : (new n).WF :=
  ⟨Nat.le_refl _, by simp [new], by simp [new]⟩

@[simp] theorem readable_new (n : Nat) : (new n).readable = [] := by
  apply List.drop_eq_nil_of_le
  simp [new, kCheapPrepend]

theorem length_readable {b : Buffer} (h : b.WF) : b.readable.length = b.readableBytes := by
  have := h.writer_le_size
  simp only [readable, readableBytes, List.length_drop, List.length_take]
  omega

theorem peekAsString_readableBytes {b : Buffer} :
    b.peekAsString b.readableBytes = b.readable := by
  rw [peekAsString, readable, readableBytes, List.drop_take]

theorem length_copyAt {v data : Bytes} {i : Nat} (h : i + data.length ≤ v.length) :
    (copyAt v i data).length = v.length := by
  simp only [copyAt, List.length_append, List.length_take, List.length_drop]
  omega

/-- Reading back a copied stretch, together with what stood before it. -/
theorem take_copyAt {v data : Bytes} {i : Nat} (h : i ≤ v.length) :
    (copyAt v i data).take (i + data.length) = v.take i ++ data := by
  have hlen : (v.take i ++ data).length = i + data.length := by
    simp [Nat.min_eq_left h]
  rw [copyAt, ← hlen, List.take_left]

/-! ## What each operation does to the content -/

/-- Writing at the write index and advancing it appends to the content. -/
theorem readable_write_hasWritten {b : Buffer} (h : b.WF) (data : Bytes) :
    ((b.writeAtEnd data).hasWritten data.length).readable = b.readable ++ data := by
  simp only [readable, hasWritten, writeAtEnd, take_copyAt h.writer_le_size]
  -- what is written starts behind the read index
  rw [List.drop_append_of_le_length]
  simp [h.reader_le_writer, h.reader_le_writer.trans h.writer_le_size]

theorem write_hasWritten_wf {b : Buffer} (h : b.WF) {data : Bytes}
    (hroom : data.length ≤ b.writableBytes) :
    ((b.writeAtEnd data).hasWritten data.length).WF := by
  have h1 := h.reader_le_writer
  have h2 := h.writer_le_size
  simp only [writableBytes] at hroom
  have hcopy : (copyAt b.buffer_ b.writerIndex_ data).length = b.buffer_.length :=
    length_copyAt (by omega)
  refine ⟨?_, ?_, ?_⟩
  · simp only [hasWritten, writeAtEnd]
    omega
  · simp only [hasWritten, writeAtEnd, hcopy]
    omega
  · simp only [hasWritten, writeAtEnd, hcopy]
    exact h.prepend_le_size

/-- The grow branch keeps the content and makes room for `len` bytes. -/
theorem resize_spec {b : Buffer} (h : b.WF) (len : Nat) (hlt : b.writableBytes < len) :
    ({ b with buffer_ := resize b.buffer_ (b.writerIndex_ + len) } : Buffer).WF ∧
      ({ b with buffer_ := resize b.buffer_ (b.writerIndex_ + len) } : Buffer).readable
        = b.readable ∧
      len ≤
        ({ b with buffer_ := resize b.buffer_ (b.writerIndex_ + len) } : Buffer).writableBytes := by
  have h1 := h.reader_le_writer
  have h2 := h.writer_le_size
  simp only [writableBytes] at hlt
  -- the vector only grows, so nothing is cut off
  have htake : b.buffer_.take (b.writerIndex_ + len) = b.buffer_ :=
    List.take_of_length_le (by omega)
  have hlen : (resize b.buffer_ (b.writerIndex_ + len)).length = b.writerIndex_ + len := by
    simp only [resize, List.length_append, htake, List.length_replicate]
    omega
  have h3 := h.prepend_le_size
  refine ⟨⟨h1, ?_, ?_⟩, ?_, ?_⟩
  · simp only [hlen]
    omega
  · simp only [hlen]
    omega
  · simp only [readable, resize, htake]
    rw [List.take_append_of_le_length h2]
  · simp only [writableBytes, hlen]
    omega

/-- The slide branch: its own assertion (`kCheapPrepend < readerIndex_`) follows from the
    branch conditions, and the content is kept. -/
theorem slide_spec {b : Buffer} (h : b.WF) (len : Nat) (hlt : b.writableBytes < len)
    (hfit : ¬ b.writableBytes + b.prependableBytes < len + kCheapPrepend) :
    (b.makeSpace len).WF ∧ (b.makeSpace len).readable = b.readable ∧
      len ≤ (b.makeSpace len).writableBytes := by
  have h1 := h.reader_le_writer
  have h2 := h.writer_le_size
  have hlen := length_readable h
  have hms : b.makeSpace len =
      { buffer_ := copyAt b.buffer_ kCheapPrepend b.readable
        readerIndex_ := kCheapPrepend
        writerIndex_ := kCheapPrepend + b.readable.length } := by
    rw [makeSpace, if_neg hfit]
    simp only [peekAsString_readableBytes, hlen]
  simp only [writableBytes, prependableBytes, readableBytes] at hlt hfit hlen
  have hcopy : (copyAt b.buffer_ kCheapPrepend b.readable).length = b.buffer_.length :=
    length_copyAt (by omega)
  rw [hms]
  refine ⟨⟨Nat.le_add_right _ _, ?_, ?_⟩, ?_, ?_⟩
  · simp only [hcopy]
    omega
  · simp only [hcopy]
    exact h.prepend_le_size
  · simp only [readable]
    rw [show (b.buffer_.take b.writerIndex_).drop b.readerIndex_ = b.readable from rfl,
      take_copyAt (by omega), List.drop_left' (by simp; omega)]
  · simp only [writableBytes, hcopy]
    omega

/-- `ensureWritableBytes` meets its own closing assertion and changes nothing readable. -/
theorem ensureWritableBytes_spec {b : Buffer} (h : b.WF) (len : Nat) :
    (b.ensureWritableBytes len).WF ∧ (b.ensureWritableBytes len).readable = b.readable ∧
      len ≤ (b.ensureWritableBytes len).writableBytes := by
  unfold ensureWritableBytes
  split
  · rename_i hlt
    by_cases hfit : b.writableBytes + b.prependableBytes < len + kCheapPrepend
    · rw [makeSpace, if_pos hfit]
      exact resize_spec h len hlt
    · exact slide_spec h len hlt hfit
  · rename_i hge
    exact ⟨h, rfl, Nat.le_of_not_lt hge⟩

theorem append_wf {b : Buffer} (h : b.WF) (data : Bytes) : (b.append data).WF := by
  obtain ⟨hwf, -, hroom⟩ := ensureWritableBytes_spec h data.length
  exact write_hasWritten_wf hwf hroom

@[simp] theorem readable_append {b : Buffer} (h : b.WF) (data : Bytes) :
    (b.append data).readable = b.readable ++ data := by
  obtain ⟨hwf, hread, -⟩ := ensureWritableBytes_spec h data.length
  rw [append, readable_write_hasWritten hwf, hread]

/-- `readFd` appends what `readv` delivered, through `vec[0]` and the spill area alike. -/
theorem readFd_spec {b : Buffer} (h : b.WF) (received : Bytes) :
    (b.readFd received).WF ∧ (b.readFd received).readable = b.readable ++ received := by
  have h2 := h.writer_le_size
  by_cases hle : received.length ≤ b.writableBytes
  · have htake : received.take b.writableBytes = received := List.take_of_length_le hle
    simp only [readFd, htake, if_pos hle]
    exact ⟨write_hasWritten_wf h hle, readable_write_hasWritten h received⟩
  · have hlen : (received.take b.writableBytes).length = b.writableBytes := by
      rw [List.length_take]
      omega
    -- setting `writerIndex_` to the vector's end is `hasWritten(writable)`
    have hfull : ({ b.writeAtEnd (received.take b.writableBytes) with
          writerIndex_ := (b.writeAtEnd (received.take b.writableBytes)).buffer_.length } : Buffer)
        = (b.writeAtEnd (received.take b.writableBytes)).hasWritten
            (received.take b.writableBytes).length := by
      simp only [hasWritten, writeAtEnd, Buffer.mk.injEq, true_and]
      rw [length_copyAt (by rw [hlen, writableBytes]; omega), hlen, writableBytes]
      omega
    have hwf := write_hasWritten_wf h (Nat.le_of_eq hlen)
    have hread := readable_write_hasWritten h (received.take b.writableBytes)
    simp only [readFd, if_neg hle, hfull]
    refine ⟨append_wf hwf _, ?_⟩
    rw [readable_append hwf, hread, List.append_assoc, List.take_append_drop]

theorem retrieveAll_spec {b : Buffer} (h : b.WF) :
    b.retrieveAll.WF ∧ b.retrieveAll.readable = [] := by
  refine ⟨⟨Nat.le_refl _, h.prepend_le_size, h.prepend_le_size⟩, ?_⟩
  exact List.drop_eq_nil_of_le (by simp [retrieveAll])

/-- `retrieve` drops from the front; a drained buffer starts over at the prepend area. -/
theorem retrieve_spec {b : Buffer} (h : b.WF) (len : Nat) :
    (b.retrieve len).WF ∧ (b.retrieve len).readable = b.readable.drop len := by
  have hlen := length_readable h
  unfold retrieve
  split
  · rename_i hlt
    have h1 := h.reader_le_writer
    rw [readableBytes] at hlt
    refine ⟨⟨by simp only; omega, h.writer_le_size, h.prepend_le_size⟩, ?_⟩
    simp only [readable, List.drop_drop]
  · rename_i hge
    obtain ⟨hwf, hempty⟩ := retrieveAll_spec h
    refine ⟨hwf, ?_⟩
    rw [hempty, List.drop_eq_nil_of_le (by omega)]

/-- `peek` sees the front of the content. -/
theorem peekAsString_eq {b : Buffer} {len : Nat} (h : len ≤ b.readableBytes) :
    b.peekAsString len = b.readable.take len := by
  rw [readableBytes] at h
  rw [peekAsString, readable, List.drop_take, List.take_take, Nat.min_eq_left h]

/-- `retrieveAllAsString` hands out the whole content and empties the buffer. -/
theorem retrieveAllAsString_spec {b : Buffer} (h : b.WF) :
    b.retrieveAllAsString.1 = b.readable ∧ b.retrieveAllAsString.2.WF ∧
      b.retrieveAllAsString.2.readable = [] := by
  obtain ⟨hwf, hread⟩ := retrieve_spec h b.readableBytes
  have hall : b.readable.drop b.readableBytes = [] := by
    rw [← length_readable h, List.drop_length]
  exact ⟨peekAsString_readableBytes, hwf, hread.trans hall⟩

/-- `unwrite` drops from the back. -/
theorem unwrite_spec {b : Buffer} (h : b.WF) {len : Nat} (hlen : len ≤ b.readableBytes) :
    (b.unwrite len).WF ∧
      (b.unwrite len).readable = b.readable.take (b.readable.length - len) := by
  have h1 := h.reader_le_writer
  have h2 := h.writer_le_size
  have hcontent := length_readable h
  rw [readableBytes] at hlen hcontent
  refine ⟨⟨by simp only [unwrite]; omega, by simp only [unwrite]; omega, h.prepend_le_size⟩, ?_⟩
  -- moving the write index back cuts as many bytes off the content
  have hcut : b.writerIndex_ - len - b.readerIndex_ = b.writerIndex_ - b.readerIndex_ - len := by
    omega
  rw [hcontent]
  simp only [unwrite, readable, List.drop_take, hcut, List.take_take]
  rw [Nat.min_eq_left (Nat.sub_le _ _)]

/-- `prepend` puts the data in front. -/
theorem prepend_spec {b : Buffer} (h : b.WF) {data : Bytes}
    (hlen : data.length ≤ b.prependableBytes) :
    (b.prepend data).WF ∧ (b.prepend data).readable = data ++ b.readable := by
  have h1 := h.reader_le_writer
  have h2 := h.writer_le_size
  rw [prependableBytes] at hlen
  have hcopy : (copyAt b.buffer_ (b.readerIndex_ - data.length) data).length = b.buffer_.length :=
    length_copyAt (by omega)
  refine ⟨⟨by simp only [prepend]; omega, by simp only [prepend, hcopy]; omega,
    by simp only [prepend, hcopy]; exact h.prepend_le_size⟩, ?_⟩
  have hfront : (b.buffer_.take (b.readerIndex_ - data.length)).length
      = b.readerIndex_ - data.length := by
    rw [List.length_take]
    omega
  -- the data ends where the content begins
  have hback : b.readerIndex_ - data.length + data.length = b.readerIndex_ := by omega
  have hrest : b.writerIndex_ - (b.readerIndex_ - data.length) - data.length
      = b.writerIndex_ - b.readerIndex_ := by omega
  simp only [prepend, readable, copyAt, hback]
  rw [List.drop_take, List.append_assoc, List.drop_left' hfront, List.take_append,
    List.take_of_length_le (by omega), hrest, List.drop_take]

end Buffer
end DoubleTurnouts
