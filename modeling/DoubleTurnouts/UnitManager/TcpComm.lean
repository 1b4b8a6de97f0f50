/-
  DoubleTurnouts.UnitManager.TcpComm

  How client bytes become requests: `TcpConnection::handleRead` reads into
  the input buffer, `onMessage` takes everything out of it and hands it to
  `select_json_str`, which drops one trailing newline and calls `on_data`.

  `onMessage` leaves no partial line behind, so what `on_data` sees is decided
  by how the stream was cut into reads (`on_data_run`).  The requests are the
  client's lines exactly when every read delivered one whole line
  (`on_data_eq_lines_iff`).
-/
import Mathlib.Tactic
import DoubleTurnouts.Lib.Run
import DoubleTurnouts.Network.Buffer

namespace DoubleTurnouts

/-- A connection as the message path sees it.  `context_` is set when `onConnection` has
    stored a session; `on_data` records the texts `TcpSession::on_data` was called with. -/
structure TcpConnection where
  inputBuffer_ : Buffer
  context_ : Bool
  closed : Bool
  on_data : List Bytes
  deriving DecidableEq, Repr

namespace TcpConnection

/-- The connection after `connectEstablished` has run `onConnection`. -/
def established : TcpConnection where
  inputBuffer_ := Buffer.new Buffer.kInitialSize
  context_ := true
  closed := false
  on_data := []

end TcpConnection

/-- `zmq_bus_com::select_json_str`: the one text passed to `out_fun`. -/
def select_json_str (json_src : Bytes) : Bytes :=
  if json_src.getLast? = some (ch '\n') then json_src.dropLast else json_src

/-- `onMessage`.  Without a session the `any_cast` fails and is caught; the buffer has
    been emptied by then. -/
def onMessage (conn : TcpConnection) : TcpConnection :=
  let (msg, buf) := conn.inputBuffer_.retrieveAllAsString
  let conn := { conn with inputBuffer_ := buf }
  -- the any_cast comes after the buffer has been emptied
  if conn.context_ then { conn with on_data := conn.on_data ++ [select_json_str msg] }
  else conn

/-- `TcpConnection::handleRead`.  A read of zero bytes closes the connection, an error is
    only logged. -/
def handleRead (conn : TcpConnection) : ReadResult → TcpConnection
  | .data received =>
      let conn := { conn with inputBuffer_ := conn.inputBuffer_.readFd received }
      if received.length > 0 then onMessage conn else { conn with closed := true }
  -- not closed: the next read tries again
  | .error _ => conn

/-- The reads that deliver the given chunks one after the other. -/
def deliver (conn : TcpConnection) (chunks : List Bytes) : TcpConnection :=
  Run.exec handleRead conn (chunks.map .data)

/-! ## The state between two reads -/

/-- Nothing is kept between reads: the buffer is in order and empty, the session is there. -/
structure Idle (conn : TcpConnection) : Prop where
  wf : conn.inputBuffer_.WF
  drained : conn.inputBuffer_.readable = []
  session : conn.context_ = true

theorem idle_established : Idle .established where
  wf := Buffer.new_wf _
  drained := Buffer.readable_new _
  session := rfl

/-- One read of a non-empty chunk: `on_data` is called once, with the chunk less one
    trailing newline. -/
theorem handleRead_data {conn : TcpConnection} (h : Idle conn) {chunk : Bytes}
    (hne : chunk ≠ []) :
    Idle (handleRead conn (.data chunk)) ∧
      (handleRead conn (.data chunk)).on_data = conn.on_data ++ [select_json_str chunk] := by
  -- nothing was left over, so the buffer holds the chunk alone
  obtain ⟨hwf, hread⟩ := Buffer.readFd_spec h.wf chunk
  rw [h.drained, List.nil_append] at hread
  obtain ⟨hmsg, hwf', hempty⟩ := Buffer.retrieveAllAsString_spec hwf
  have hpos : chunk.length > 0 := List.length_pos_of_ne_nil hne
  simp only [handleRead, if_pos hpos, onMessage, h.session, if_true, hmsg, hread, and_true]
  exact ⟨hwf', hempty, rfl⟩

/-- A whole run of reads: one `on_data` call per read. -/
theorem on_data_run {conn : TcpConnection} (h : Idle conn) {chunks : List Bytes}
    (hne : ∀ chunk ∈ chunks, chunk ≠ []) :
    (deliver conn chunks).on_data = conn.on_data ++ chunks.map select_json_str := by
  induction chunks generalizing conn with
  | nil => simp [deliver]
  | cons chunk chunks ih =>
      obtain ⟨hidle, hlog⟩ := handleRead_data h (hne chunk (by simp))
      have hrest := ih hidle fun c hc => hne c (by simp [hc])
      simp only [deliver, List.map_cons, Run.exec_cons] at hrest ⊢
      rw [hrest, hlog]
      simp

/-! ## Lines against reads -/

/-- A chunk is at most one byte longer than the text it gives, and then ends in a newline. -/
theorem length_le_select_json_str (chunk : Bytes) :
    chunk.length ≤ (select_json_str chunk).length + 1 := by
  unfold select_json_str
  split
  · simp only [List.length_dropLast]
    omega
  · omega

theorem eq_select_json_str_append {chunk : Bytes}
    (h : chunk.length = (select_json_str chunk).length + 1) :
    chunk = select_json_str chunk ++ [ch '\n'] := by
  unfold select_json_str at h ⊢
  split at h
  · rename_i hlast
    rw [if_pos hlast]
    exact (List.dropLast_append_getLast? _ hlast).symm
  · omega

theorem select_json_str_append_newline (line : Bytes) :
    select_json_str (line ++ [ch '\n']) = line := by
  simp [select_json_str]

/-- The newline-terminated form in which a client sends its lines. -/
def newlineTerminated (lines : List Bytes) : List Bytes := lines.map (· ++ [ch '\n'])

theorem length_flatten_le (chunks : List Bytes) :
    chunks.flatten.length
      ≤ (newlineTerminated (chunks.map select_json_str)).flatten.length := by
  induction chunks with
  | nil => simp [newlineTerminated]
  | cons chunk chunks ih =>
      have hchunk := length_le_select_json_str chunk
      simp only [newlineTerminated, List.map_cons, List.flatten_cons, List.length_append,
        List.length_singleton] at ih ⊢
      omega

/-- If the reads carry as many bytes as the lines they produce, every read was one line. -/
theorem chunks_eq_of_length_eq {chunks : List Bytes}
    (h : chunks.flatten.length
      = (newlineTerminated (chunks.map select_json_str)).flatten.length) :
    chunks = newlineTerminated (chunks.map select_json_str) := by
  induction chunks with
  | nil => rfl
  | cons chunk chunks ih =>
      have hchunk := length_le_select_json_str chunk
      have hchunks := length_flatten_le chunks
      simp only [newlineTerminated, List.map_cons, List.flatten_cons, List.length_append,
        List.length_singleton] at h hchunks ⊢
      -- no chunk makes up for a byte another one is short of
      have hhead := @eq_select_json_str_append chunk (by omega)
      have htail := ih (by simp only [newlineTerminated]; omega)
      rw [← hhead]
      exact congrArg (chunk :: ·) htail

/-- For every way of cutting the client's byte stream into non-empty reads, the texts
    `on_data` is called with are the client's lines, in order, exactly when each read
    delivered one whole newline-terminated line. -/
theorem on_data_eq_lines_iff (lines chunks : List Bytes)
    (hne : ∀ chunk ∈ chunks, chunk ≠ [])
    (hcut : chunks.flatten = (newlineTerminated lines).flatten) :
    (deliver .established chunks).on_data = lines ↔ chunks = newlineTerminated lines := by
  rw [on_data_run idle_established hne]
  simp only [TcpConnection.established, List.nil_append]
  constructor
  · intro hlines
    -- only the total length of the cut is needed
    rw [← hlines] at hcut ⊢
    exact chunks_eq_of_length_eq (congrArg List.length hcut)
  · rintro rfl
    simp [newlineTerminated, Function.comp_def, select_json_str_append_newline]

theorem on_data_eq_lines_iff_two_reads :
    (deliver .established [str "setup\n", str "exit\n"]).on_data = [str "setup", str "exit"]
      ↔ [str "setup\n", str "exit\n"] = newlineTerminated [str "setup", str "exit"] :=
  on_data_eq_lines_iff _ _ (by decide) (by decide)

/-- Two lines that arrive in one read reach `on_data` as a single text. -/
theorem on_data_coalesced_lines :
    (∀ line ∈ [str "setup", str "exit"], ch '\n' ∉ line) ∧
      [str "setup\nexit\n"].flatten
        = (newlineTerminated [str "setup", str "exit"]).flatten ∧
      (deliver .established [str "setup\nexit\n"]).on_data ≠ [str "setup", str "exit"] := by
  refine ⟨by decide, by decide, ?_⟩
  rw [on_data_run idle_established (by decide)]
  decide

end DoubleTurnouts
