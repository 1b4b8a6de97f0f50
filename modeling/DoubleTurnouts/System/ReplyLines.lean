/-
  DoubleTurnouts.System.ReplyLines

  The way of the replies: a unit or the manager serialises a body and adds a
  newline, the session's PULL socket delivers the message to
  `TcpSession::send_data`, whose thread passes it to `TcpConnection::send`,
  the loop writes it to the socket in whatever pieces the kernel takes, and
  the client reads it in pieces of its own.

  nlohmann escapes control characters, so a reply is a line
  (`OutBody.shownLine`); the connection keeps the order of what it is passed
  (`Sending`); and the client reads lines if no read cuts a character.
  Together: the client has the replies, whole and in order
  (`replies_read_as_sent`).
-/
import Mathlib.Tactic
import DoubleTurnouts.Lib.LossyUtf8
import DoubleTurnouts.Network.Buffer
import DoubleTurnouts.Network.GracefulShutdown
import DoubleTurnouts.Node.ChunkText
import DoubleTurnouts.Sample.ResponseStream
import DoubleTurnouts.UnitManager.Sessions

namespace DoubleTurnouts

open Text Decimal Utf8

/-! ## The text of a reply -/

mutual

/-- The literals of the floating point numbers in a value. -/
def Json.floats : Json → List Bytes
  | .float l => [l]
  | .array items => itemFloats items
  | .object members => memberFloats members
  | _ => []

def Json.itemFloats : List Json → List Bytes
  | [] => []
  | j :: js => j.floats ++ itemFloats js

def Json.memberFloats : List (Bytes × Json) → List Bytes
  | [] => []
  | (_, j) :: js => j.floats ++ memberFloats js

end

namespace OutBody

/-- The members of `out_body` in the order of their names. -/
def members (out_body : OutBody) (created : Int) : List (Bytes × Json) :=
  [(str "created", .int created), (str "data", out_body.data), (str "error", out_body.error),
   (str "object", .string out_body.object), (str "request_id", .string out_body.request_id),
   (str "work_id", .string out_body.work_id)]

/-- `out_body.dump()`. -/
def text (out_body : OutBody) (created : Int) : Bytes :=
  (Json.object (out_body.members created)).dump

/-- `dump` does not throw, and the floating point numbers are printed as numbers. -/
structure Dumps (out_body : OutBody) : Prop where
  strings : ∀ s ∈ out_body.strings, Valid s
  floats : ∀ l ∈ out_body.data.floats ++ out_body.error.floats, ∀ c ∈ l, 0x20 ≤ c ∧ c < 0x80

end OutBody

/-- Well-formed, and without control characters. -/
structure Printed (s : Bytes) : Prop where
  valid : Valid s
  noControl : ∀ c ∈ s, 0x20 ≤ c

theorem Printed.append {s t : Bytes} (hs : Printed s) (ht : Printed t) : Printed (s ++ t) where
  valid := hs.valid.append ht.valid
  noControl := fun c hc => (List.mem_append.mp hc).elim (hs.noControl c) (ht.noControl c)

theorem printed_of_ascii {s : Bytes} (h : ∀ c ∈ s, 0x20 ≤ c ∧ c < 0x80) : Printed s where
  valid := valid_of_ascii fun c hc => (h c hc).2
  noControl := fun c hc => (h c hc).1

/-- What is escaped is an ASCII character, and so is all of its escape. -/
theorem escape_ascii {c : UInt8} (h : ¬ Plain c) :
    c < 0x80 ∧ ∀ d ∈ escape c, 0x20 ≤ d ∧ d < 0x80 := by
  have htable : ∀ n < 256, ¬ Plain (UInt8.ofNat n) → UInt8.ofNat n < 0x80 ∧
      ∀ d ∈ escape (UInt8.ofNat n), 0x20 ≤ d ∧ d < 0x80 := by
    decide +kernel
  have hc := htable c.toNat c.toNat_lt (by simpa using h)
  simpa using hc

/-- Escaping leaves a well-formed text well formed, and leaves no control character. -/
theorem printed_escaped {s : Bytes} (h : Valid s) : Printed (escaped s) := by
  induction hlen : s.length using Nat.strong_induction_on generalizing s with
  | _ n ih =>
      by_cases hplain : ∀ c ∈ s, Plain c
      · rw [escaped_of_plain hplain]
        exact ⟨h, fun c hc => (hplain c hc).2.2⟩
      · -- the first byte that is escaped stands between two characters
        obtain ⟨pre, c, post, rfl, hpre, hc⟩ :
            ∃ pre c post, s = pre ++ c :: post ∧ (∀ d ∈ pre, Plain d) ∧ ¬ Plain c := by
          have hne : s.dropWhile (fun d => decide (Plain d)) ≠ [] := by
            simpa [List.dropWhile_eq_nil_iff] using hplain
          obtain ⟨c, post, hdrop⟩ := List.exists_cons_of_ne_nil hne
          refine ⟨s.takeWhile fun d => decide (Plain d), c, post, ?_, ?_, ?_⟩
          · rw [← hdrop, List.takeWhile_append_dropWhile]
          · intro d hd
            simpa using List.mem_takeWhile_imp hd
          · have hfirst := List.head_dropWhile_not (fun d => decide (Plain d)) hne
            simpa [hdrop] using hfirst
        obtain ⟨hascii, hescape⟩ := escape_ascii hc
        obtain ⟨hvalid, hpost⟩ := Valid.of_append_cons hascii h
        have hshort : post.length < n := by
          rw [← hlen, List.length_append, List.length_cons]
          omega
        have hrest := ih post.length hshort hpost rfl
        rw [escaped_append, escaped_cons, escaped_of_plain hpre]
        exact Printed.append ⟨hvalid, fun d hd => (hpre d hd).2.2⟩
          ((printed_of_ascii hescape).append hrest)

theorem printed_literal {s : Bytes} (h : Valid s) : Printed (literal s) := by
  have hquote : Printed [quote] := printed_of_ascii (by decide)
  exact hquote.append ((printed_escaped h).append hquote)

theorem printed_to_string (n : Int) : Printed (to_string n) := by
  apply printed_of_ascii
  intro c hc
  rcases mem_to_string hc with rfl | hdigit
  · decide
  · have htable : ∀ m < 256, isDigit (UInt8.ofNat m) = true →
        0x20 ≤ UInt8.ofNat m ∧ UInt8.ofNat m < 0x80 := by
      decide +kernel
    simpa using htable c.toNat c.toNat_lt (by simpa using hdigit)

mutual

/-- What `dump` writes. -/
theorem Json.printed_dump (j : Json) (hs : ∀ s ∈ j.strings, Valid s)
    (hf : ∀ l ∈ j.floats, ∀ c ∈ l, 0x20 ≤ c ∧ c < 0x80) : Printed j.dump := by
  cases j with
  | null => exact printed_of_ascii (by decide)
  | bool b => cases b <;> exact printed_of_ascii (by decide)
  | int n => exact printed_to_string n
  | float l => exact printed_of_ascii (hf l (by simp [Json.floats]))
  | string s => exact printed_literal (hs s (by simp [Json.strings]))
  | array items =>
      have hopen : Printed (str "[") := printed_of_ascii (by decide)
      have hclose : Printed (str "]") := printed_of_ascii (by decide)
      exact hopen.append ((Json.printed_dumpItems items hs hf).append hclose)
  | object members =>
      have hopen : Printed (str "\x7b") := printed_of_ascii (by decide)
      have hclose : Printed (str "\x7d") := printed_of_ascii (by decide)
      exact hopen.append ((Json.printed_dumpMembers members hs hf).append hclose)

theorem Json.printed_dumpItems (items : List Json) (hs : ∀ s ∈ Json.itemStrings items, Valid s)
    (hf : ∀ l ∈ Json.itemFloats items, ∀ c ∈ l, 0x20 ≤ c ∧ c < 0x80) :
    Printed (Json.dumpItems items) := by
  match items with
  | [] => exact printed_of_ascii (by simp [Json.dumpItems])
  | j :: js =>
      have hj := Json.printed_dump j (fun s h => hs s (by simp [Json.itemStrings, h]))
        fun l h => hf l (by simp [Json.itemFloats, h])
      have hjs := Json.printed_dumpItems js (fun s h => hs s (by simp [Json.itemStrings, h]))
        fun l h => hf l (by simp [Json.itemFloats, h])
      have hcomma : Printed (str ",") := printed_of_ascii (by decide)
      cases js with
      | nil => exact hj
      | cons k ks => exact hj.append (hcomma.append hjs)

theorem Json.printed_dumpMembers (members : List (Bytes × Json))
    (hs : ∀ s ∈ Json.memberStrings members, Valid s)
    (hf : ∀ l ∈ Json.memberFloats members, ∀ c ∈ l, 0x20 ≤ c ∧ c < 0x80) :
    Printed (Json.dumpMembers members) := by
  match members with
  | [] => exact printed_of_ascii (by simp [Json.dumpMembers])
  | (key, j) :: js =>
      have hkey := printed_literal (hs key (by simp [Json.memberStrings]))
      have hj := Json.printed_dump j (fun s h => hs s (by simp [Json.memberStrings, h]))
        fun l h => hf l (by simp [Json.memberFloats, h])
      have hjs := Json.printed_dumpMembers js (fun s h => hs s (by simp [Json.memberStrings, h]))
        fun l h => hf l (by simp [Json.memberFloats, h])
      have hcolon : Printed (str ":") := printed_of_ascii (by decide)
      have hcomma : Printed (str ",") := printed_of_ascii (by decide)
      cases js with
      | nil => exact hkey.append (hcolon.append hj)
      | cons k ks => exact hkey.append (hcolon.append (hj.append (hcomma.append hjs)))

end

/-- A JSON object is a line that the client sees as it is. -/
theorem shownLine_braces {s : Bytes} (h : Printed s) :
    ShownLine (str "\x7b" ++ (s ++ str "\x7d")) := by
  have hopen : Printed (str "\x7b") := printed_of_ascii (by decide)
  have hclose : Printed (str "\x7d") := printed_of_ascii (by decide)
  have hwhole := hopen.append (h.append hclose)
  have hchars : decodeIgnore (str "\x7b" ++ (s ++ str "\x7d")) =
      0x7B :: (decodeIgnore s ++ [0x7D]) := by
    rw [decodeIgnore_append hopen.valid, decodeIgnore_append h.valid]
    rfl
  refine ⟨hwhole.valid, fun hmem => ?_, ?_, by simp [str]⟩
  · exact absurd (hwhole.noControl _ hmem) (by decide)
  · rw [hchars]
    apply (strip_eq_self_iff (List.cons_ne_nil _ _)).mpr
    refine ⟨rfl, ?_⟩
    rw [List.getLast_cons (by simp), List.getLast_append_singleton]
    rfl

namespace OutBody

/-- A reply is one line of well-formed text. -/
theorem shownLine {out_body : OutBody} (h : out_body.Dumps) (created : Int) :
    ShownLine (out_body.text created) := by
  apply shownLine_braces
  apply Json.printed_dumpMembers
  · obtain ⟨hrequest, hwork, hobject, hdata, herror⟩ := out_body.strings_valid_iff.mp h.strings
    intro s hs
    simp only [members, Json.memberStrings, Json.strings, List.nil_append, List.append_nil,
      List.mem_cons, List.mem_append, List.not_mem_nil, or_false] at hs
    rcases hs with rfl | rfl | hs | rfl | hs | rfl | rfl | rfl | rfl | rfl | rfl
    · decide
    · decide
    · exact hdata s hs
    · decide
    · exact herror s hs
    · decide
    · exact hobject
    · decide
    · exact hrequest
    · decide
    · exact hwork
  · intro l hl
    refine h.floats l ?_
    simpa [members, Json.memberFloats, Json.floats] using hl

end OutBody

/-! ## The session -/

/-- `TcpSession::send_data`, on the thread that receives for the session. -/
def TcpSession.send_data (conn_ : Flushing) (data : Bytes) (r : WriteResult) : Flushing :=
  let buf := (Buffer.new Buffer.kInitialSize).append data
  conn_.send false buf.retrieveAllAsString.1 r

/-- A message for the session, or a step of the loop. -/
inductive ReplyEvent
  | message (data : Bytes)
  | handleWrite (r : WriteResult)
  | swap
  | functor (r : WriteResult)
  deriving DecidableEq, Repr

namespace ReplyEvent

def message? : ReplyEvent → Option Bytes
  | .message data => some data
  | _ => none

/-- No write of the event fails with `EPIPE` or `ECONNRESET`. -/
def NoReset : ReplyEvent → Prop
  | .handleWrite r | .functor r => r ≠ .fails .EPIPE ∧ r ≠ .fails .ECONNRESET
  | .message _ | .swap => True

instance (e : ReplyEvent) : Decidable e.NoReset := by
  cases e <;> unfold NoReset <;> infer_instance

end ReplyEvent

namespace Replying

def step (conn_ : Flushing) : ReplyEvent → Flushing
  -- the thread is not the loop's, so the kernel is not asked yet
  | .message data => TcpSession.send_data conn_ data (.accepts 0)
  | .handleWrite r => conn_.step false (.handleWrite r)
  | .swap => conn_.step false .swap
  | .functor r => conn_.step false (.functor r)

end Replying

theorem send_data_eq (conn_ : Flushing) (data : Bytes) (r : WriteResult) :
    TcpSession.send_data conn_ data r = conn_.step false (.send data r) := by
  have hwf := Buffer.new_wf Buffer.kInitialSize
  obtain ⟨hstring, -, -⟩ := Buffer.retrieveAllAsString_spec (Buffer.append_wf hwf data)
  rw [Buffer.readable_append hwf, Buffer.readable_new, List.nil_append] at hstring
  simp only [TcpSession.send_data, hstring, Flushing.step]

/-! ## What the connection holds -/

/-- A connection that is up, has been passed the messages so far, and holds them in order. -/
structure Sending (conn_ : Flushing) (messages : List Bytes) : Prop where
  inv : conn_.Inv false
  state : conn_.side.state_ = .kConnected
  passed : conn_.passed = messages.flatten

namespace Sending

variable {s : Flushing} {messages : List Bytes}

theorem established (cb : Bool) : Sending (.established cb) [] where
  inv := Flushing.established_inv false cb
  state := rfl
  passed := rfl

/-- While the connection is up nothing but messages is queued. -/
theorem queue (h : Sending s messages) : .shutdownInLoop ∉ s.queue := by
  rcases h.inv.stage with ⟨-, hqueue, -⟩ | ⟨-, hdown, -⟩ | ⟨hdown, -⟩ | ⟨hdown, -⟩
  · exact hqueue
  all_goals cases hdown.symm.trans h.state

/-- A step brings one message more, or moves those that are there. -/
theorem step (h : Sending s messages) {e : ReplyEvent} (he : e.NoReset) :
    Sending (Replying.step s e) (messages ++ e.message?.toList) := by
  cases e with
  | message data =>
      have hstep : Replying.step s (.message data) = s.step false (.send data (.accepts 0)) :=
        send_data_eq s data _
      rw [hstep]
      refine ⟨Flushing.step_inv h.inv ⟨by decide, by decide⟩ trivial, ?_, ?_⟩
      · simp [Flushing.step, Flushing.send, h.state, Flushing.queueInLoop]
      · simp [Flushing.step, Flushing.send, h.state, Flushing.queueInLoop, h.passed,
          ReplyEvent.message?]
  | handleWrite r =>
      have hquiet : s.Quiet (.handleWrite r) := by
        rintro ⟨hdown, -⟩
        cases hdown.symm.trans h.state
      refine ⟨Flushing.step_inv h.inv (e := .handleWrite r) he hquiet, ?_, ?_⟩
      · simp only [Replying.step, Flushing.step]
        split
        · exact (SendSide.handleWrite_state_ _ r).trans h.state
        · exact h.state
      · simp only [Replying.step, Flushing.step, ReplyEvent.message?, Option.toList_none,
          List.append_nil]
        split <;> exact h.passed
  | swap =>
      refine ⟨Flushing.step_inv h.inv (e := .swap) trivial trivial, ?_, ?_⟩
      · simp only [Replying.step, Flushing.step]
        split <;> exact h.state
      · simp only [Replying.step, Flushing.step, ReplyEvent.message?, Option.toList_none,
          List.append_nil]
        split <;> exact h.passed
  | functor r =>
      have hqueue := h.queue
      refine ⟨Flushing.step_inv h.inv (e := .functor r) he trivial, ?_, ?_⟩
      · simp only [Replying.step, Flushing.step]
        split
        · exact h.state
        · rename_i cb rest hbatch
          cases cb with
          | sendInLoop message => exact (SendSide.sendInLoop_state_ _ message r).trans h.state
          | shutdownInLoop => simp [Flushing.queue, hbatch] at hqueue
      · simp only [Replying.step, Flushing.step, ReplyEvent.message?, Option.toList_none,
          List.append_nil]
        split
        · exact h.passed
        · rename_i cb rest _
          cases cb <;> exact h.passed

/-- A whole run: the messages of the run are there, in order. -/
theorem exec (h : Sending s messages) {es : List ReplyEvent} (hes : ∀ e ∈ es, e.NoReset) :
    Sending (Run.exec Replying.step s es) (messages ++ es.filterMap ReplyEvent.message?) := by
  induction es generalizing s messages with
  | nil => simpa using h
  | cons e es ih =>
      have hnext := ih (h.step (hes e (by simp))) fun e' he' => hes e' (by simp [he'])
      have hmessages : messages ++ (e :: es).filterMap ReplyEvent.message? =
          messages ++ e.message?.toList ++ es.filterMap ReplyEvent.message? := by
        cases he : e.message? <;> simp [he]
      rw [Run.exec_cons, hmessages]
      exact hnext

/-- What the socket has taken is the first part of the messages, and all of them once nothing is
    queued or buffered. -/
theorem accepted (h : Sending s messages) :
    s.side.accepted <+: messages.flatten ∧
      (s.queue = [] → s.side.writing = false → s.side.accepted = messages.flatten) := by
  obtain ⟨stream, hcarries, hstream⟩ := h.inv.holds
  rw [h.passed] at hstream
  refine ⟨⟨s.side.outputBuffer_.readable ++ Flushing.queuedBytes s.queue, ?_⟩, fun hqueue hw => ?_⟩
  · rw [← List.append_assoc, hcarries.stream_eq, hstream]
  · rw [hqueue, Flushing.queuedBytes, List.append_nil] at hstream
    rw [hcarries.accepted_eq hw, hstream]

/-! ### The loop left alone -/

/-- The batch in hand is run to its end. -/
theorem functors_run (s : Flushing) :
    let t := Run.exec Replying.step s (List.replicate s.functors.length (.functor (.accepts 0)))
    t.functors = [] ∧ t.pendingFunctors_ = s.pendingFunctors_ := by
  induction hbatch : s.functors generalizing s with
  | nil => exact ⟨hbatch, rfl⟩
  | cons cb rest ih =>
      have hstep : (Replying.step s (.functor (.accepts 0))).functors = rest ∧
          (Replying.step s (.functor (.accepts 0))).pendingFunctors_ = s.pendingFunctors_ := by
        simp only [Replying.step, Flushing.step, hbatch]
        cases cb <;> exact ⟨rfl, rfl⟩
      obtain ⟨hnone, hpending⟩ := ih _ hstep.1
      exact ⟨hnone, hpending.trans hstep.2⟩

/-- The loop gets everything out: it runs what is queued, and the socket becomes writable. -/
theorem exists_drained (h : Sending s messages) :
    ∃ fs, (∀ e ∈ fs, e.NoReset ∧ e.message? = none) ∧
      (Run.exec Replying.step s fs).queue = [] ∧
      (Run.exec Replying.step s fs).side.writing = false := by
  let batch (n : Nat) : List ReplyEvent := List.replicate n (.functor (.accepts 0))
  have hbatch : ∀ n, ∀ e ∈ batch n, e.NoReset ∧ e.message? = none := by
    intro n e he
    rw [List.eq_of_mem_replicate he]
    exact ⟨⟨by decide, by decide⟩, rfl⟩
  -- two batches are run: the one in hand, and what is pending behind it
  let s₁ := Run.exec Replying.step s (batch s.functors.length)
  obtain ⟨hnone₁, -⟩ := functors_run s
  let s₂ := Replying.step s₁ .swap
  have hpending₂ : s₂.pendingFunctors_ = [] := by
    simp only [s₂, Replying.step, Flushing.step]
    rw [if_pos hnone₁]
  let s₃ := Run.exec Replying.step s₂ (batch s₂.functors.length)
  obtain ⟨hnone₃, hpending₃⟩ := functors_run s₂
  let fs := batch s.functors.length ++ .swap :: batch s₂.functors.length
  have hfs : ∀ e ∈ fs, e.NoReset ∧ e.message? = none := by
    intro e he
    simp only [fs, List.mem_append, List.mem_cons] at he
    rcases he with he | rfl | he
    · exact hbatch _ e he
    · exact ⟨trivial, rfl⟩
    · exact hbatch _ e he
  have hrun : Run.exec Replying.step s fs = s₃ := by
    simp only [fs, Run.exec_append, Run.exec_cons]
    rfl
  have hqueue : s₃.queue = [] := by
    rw [Flushing.queue, hnone₃, hpending₃, hpending₂, List.nil_append]
  have hsending := h.exec fun e he => (hfs e he).1
  rw [hrun] at hsending
  by_cases hw : s₃.side.writing = true
  · obtain ⟨stream, hcarries, -⟩ := hsending.inv.holds
    have hdrains : s₃.side.Drains (.accepts s₃.side.outputBuffer_.readableBytes) := by
      refine ⟨hw, ?_, le_rfl⟩
      rw [← Buffer.length_readable hcarries.wf]
      exact List.length_pos_of_ne_nil (hcarries.writing_iff.mp hw)
    obtain ⟨-, -, hdrained, -⟩ := Flushing.handleWrite_spec hcarries
      (.accepts s₃.side.outputBuffer_.readableBytes)
    have hstep : Replying.step s₃ (.handleWrite (.accepts s₃.side.outputBuffer_.readableBytes)) =
        s₃.onSide fun c => c.handleWrite (.accepts s₃.side.outputBuffer_.readableBytes) := by
      simp only [Replying.step, Flushing.step]
      rw [if_pos hnone₃]
    refine ⟨fs ++ [.handleWrite (.accepts s₃.side.outputBuffer_.readableBytes)], ?_, ?_, ?_⟩
    · intro e he
      rcases List.mem_append.mp he with he | he
      · exact hfs e he
      · rw [List.mem_singleton.mp he]
        exact ⟨⟨by simp, by simp⟩, rfl⟩
    · rw [Run.exec_append, hrun, Run.exec_cons, Run.exec_nil, hstep]
      exact hqueue
    · rw [Run.exec_append, hrun, Run.exec_cons, Run.exec_nil, hstep]
      exact (hdrained hdrains).1
  · exact ⟨fs, hfs, by rw [hrun]; exact hqueue, by rw [hrun]; simpa using hw⟩

end Sending

/-- The way of the replies, from the bodies to the client.  Let the messages a session receives in a
    run be serialised bodies with a newline each, and let the client have read some of what the
    socket has taken, in reads that end between characters: it has the first of the replies, each
    whole, in order.  The loop left alone gets all of them out.  When they are out, and the client
    has read it all, it has all of them if and only if its reads end between characters. -/
theorem replies_read_as_sent (writeCompleteCallback_ : Bool) (es : List ReplyEvent)
    (replies : List (OutBody × Int)) (parts : List Bytes)
    (hreplies : ∀ reply ∈ replies, reply.1.Dumps)
    (hes : ∀ e ∈ es, e.NoReset)
    (hmessages : es.filterMap ReplyEvent.message? =
      newlineTerminated (replies.map fun reply => reply.1.text reply.2))
    (hparts : ∀ part ∈ parts, part ≠ []) :
    let s := Run.exec Replying.step (.established writeCompleteCallback_) es
    let lines := replies.map fun reply => decodeIgnore (reply.1.text reply.2)
    (parts.flatten <+: s.side.accepted → (∀ part ∈ parts, Valid part) →
        (receive_json_stream parts).yielded <+: lines) ∧
      (∃ fs, (∀ e ∈ fs, e.NoReset ∧ e.message? = none) ∧
        (Run.exec Replying.step s fs).side.accepted =
          (newlineTerminated (replies.map fun reply => reply.1.text reply.2)).flatten) ∧
      (s.queue = [] → s.side.writing = false → parts.flatten = s.side.accepted →
        ((receive_json_stream parts).yielded = lines ↔ ∀ part ∈ parts, Valid part)) := by
  intro s lines
  have hsending : Sending s
      (newlineTerminated (replies.map fun reply => reply.1.text reply.2)) := by
    have hrun := (Sending.established writeCompleteCallback_).exec hes
    rwa [hmessages, List.nil_append] at hrun
  have hshown : ∀ line ∈ replies.map fun reply => reply.1.text reply.2, ShownLine line := by
    intro line hline
    obtain ⟨reply, hreply, rfl⟩ := List.mem_map.mp hline
    exact OutBody.shownLine (hreplies reply hreply) reply.2
  have hlines : (replies.map fun reply => reply.1.text reply.2).map decodeIgnore = lines := by
    rw [List.map_map]
    rfl
  obtain ⟨haccepted, hall⟩ := hsending.accepted
  refine ⟨fun hread hvalid => ?_, ?_, fun hqueue hw hread => ?_⟩
  · obtain ⟨rest, hrest⟩ := hread.trans haccepted
    have hwhole := takeLines_newlineTerminated hshown
    rw [← hrest, decodeIgnore_append (valid_flatten hvalid), takeLines_append, hlines] at hwhole
    rw [receive_json_stream_of_valid fun part hp => ⟨hvalid part hp, hparts part hp⟩]
    exact ⟨_, congrArg Prod.fst hwhole⟩
  · obtain ⟨fs, hfs, hqueue, hw⟩ := hsending.exists_drained
    have hend := hsending.exec fun e he => (hfs e he).1
    have hnone : fs.filterMap ReplyEvent.message? = [] :=
      List.filterMap_eq_nil_iff.mpr fun e he => (hfs e he).2
    rw [hnone, List.append_nil] at hend
    exact ⟨fs, hfs, hend.accepted.2 hqueue hw⟩
  · rw [← hlines]
    exact (json_stream_lines_iff _ parts hshown hparts (hread.trans (hall hqueue hw))).1

/-- A reply to a `setup`. -/
def setupReply : OutBody where
  request_id := str "1"
  work_id := str "llm.0"
  object := str "None"
  data := LLM_NONE
  error := error_member LLM_NO_ERROR

/-- The reply is written in two pieces, and read in two others. -/
theorem replies_read_as_sent_setup :
    let line := setupReply.text 7
    let es := [ReplyEvent.message (line ++ [ch '\n']), .swap, .functor (.accepts 10),
      .handleWrite (.accepts 1000)]
    (Run.exec Replying.step (.established true) es).side.accepted = line ++ [ch '\n'] ∧
      (receive_json_stream [line.take 20, line.drop 20 ++ [ch '\n']]).yielded =
        [decodeIgnore line] := by
  intro line es
  have hread := replies_read_as_sent true es [(setupReply, 7)]
    [line.take 20, line.drop 20 ++ [ch '\n']] (by
      intro reply hreply
      rw [List.mem_singleton.mp hreply]
      constructor <;> decide +kernel)
    (by decide +kernel) (by decide +kernel) (by decide +kernel)
  have haccepted : (Run.exec Replying.step (.established true) es).side.accepted =
      line ++ [ch '\n'] := by
    decide +kernel
  refine ⟨haccepted, (hread.2.2 (by decide +kernel) (by decide +kernel) ?_).mpr
    (by decide +kernel)⟩
  exact Eq.trans (by decide +kernel) haccepted.symm

end DoubleTurnouts
