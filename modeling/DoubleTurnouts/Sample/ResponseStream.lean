/-
  DoubleTurnouts.Sample.ResponseStream

  How the sample client reads its responses: `receive_response` decodes each
  read strictly and returns the text up to the end of the read that brought
  a newline; `receive_json_stream` decodes each read with errors ignored,
  keeps what follows the last newline for the next read, and ends at the first
  read that decodes to nothing.

  Neither keeps bytes between reads, so a character that is cut is lost, or
  raises.  The stream is read as the server's lines exactly when every read
  ends between two characters (`json_stream_lines_iff`): characters are
  counted, and none can be made up for.  The first response is returned exactly
  when a read ends with its newline (`first_response_iff`).
-/
import Mathlib.Tactic
import Mathlib.Data.List.DropRight
import DoubleTurnouts.Lib.Run
import DoubleTurnouts.Lib.LossyUtf8
import DoubleTurnouts.UnitManager.TcpComm

namespace DoubleTurnouts

open Utf8

/-! ## Python strings -/

/-- `'\n'`. -/
def newline : Nat := 10

/-- The characters that `str.strip` removes. -/
def isspace (c : Nat) : Bool :=
  (9 ≤ c && c ≤ 13) || (0x1C ≤ c && c ≤ 0x20) || c == 0x85 || c == 0xA0 || c == 0x1680 ||
    (0x2000 ≤ c && c ≤ 0x200A) || c == 0x2028 || c == 0x2029 || c == 0x202F || c == 0x205F ||
    c == 0x3000

/-- `str.strip`. -/
def strip (s : List Nat) : List Nat := (s.dropWhile isspace).rdropWhile isspace

/-! ## `receive_json_stream` -/

/-- The inner loop: a line is split off as long as there is one, and yielded if it is not
    blank. -/
def takeLines (buffer : List Nat) : List (List Nat) × List Nat :=
  if newline ∈ buffer then
    -- `line, buffer = buffer.split('\n', 1)`
    let line := buffer.takeWhile (· ≠ newline)
    let (lines, rest) := takeLines (buffer.dropWhile (· ≠ newline)).tail
    (if strip line ≠ [] then strip line :: lines else lines, rest)
  else ([], buffer)
termination_by buffer.length
decreasing_by
  rename_i hmem
  have hne : buffer ≠ [] := List.ne_nil_of_mem hmem
  have hle : (buffer.dropWhile (· ≠ newline)).length ≤ buffer.length :=
    (List.dropWhile_suffix _).length_le
  have hpos : 0 < buffer.length := List.length_pos_of_ne_nil hne
  simp only [List.length_tail]
  omega

/-- The generator: what it keeps, what it has yielded, and whether it has come to its end. -/
structure JsonStream where
  buffer : List Nat
  yielded : List (List Nat)
  ended : Bool
  deriving DecidableEq, Repr

namespace JsonStream

def new : JsonStream := ⟨[], [], false⟩

/-- One `recv`. -/
def recv (g : JsonStream) (part : Bytes) : JsonStream :=
  if g.ended then g
  else
    let chunk := decodeIgnore part
    -- a closed connection, or a read in which no character is complete
    if chunk = [] then { g with ended := true }
    else
      let (lines, buffer) := takeLines (g.buffer ++ chunk)
      { g with buffer := buffer, yielded := g.yielded ++ lines }

end JsonStream

/-- `receive_json_stream`, with what the reads bring one after the other. -/
def receive_json_stream (parts : List Bytes) : JsonStream := Run.exec JsonStream.recv .new parts

/-! ## `receive_response` -/

inductive Response
  | returned (response : List Nat)
  /-- `UnicodeDecodeError`. -/
  | raised
  /-- The next read is waited for. -/
  | waiting (response : List Nat)
  deriving DecidableEq, Repr

/-- The loop of `receive_response`.  A closed connection gives reads of no bytes, which change
    nothing. -/
def receiveFrom (response : List Nat) : List Bytes → Response
  | [] => .waiting response
  | part :: parts =>
      match decode part with
      | none => .raised
      | some chars =>
          if newline ∈ response ++ chars then .returned (strip (response ++ chars))
          else receiveFrom (response ++ chars) parts

def receive_response (parts : List Bytes) : Response := receiveFrom [] parts

/-! ## Lines -/

theorem takeLines_of_not_mem {buffer : List Nat} (h : newline ∉ buffer) :
    takeLines buffer = ([], buffer) := by
  rw [takeLines, if_neg h]

theorem takeLines_cons {line : List Nat} (h : newline ∉ line) (rest : List Nat) :
    takeLines (line ++ newline :: rest) =
      (if strip line ≠ [] then strip line :: (takeLines rest).1 else (takeLines rest).1,
        (takeLines rest).2) := by
  have hline : ∀ c ∈ line, decide (c ≠ newline) = true := by
    intro c hc
    exact decide_eq_true fun heq => h (heq ▸ hc)
  have htake : (line ++ newline :: rest).takeWhile (· ≠ newline) = line := by
    rw [List.takeWhile_append_of_pos hline]
    simp
  have hdrop : (line ++ newline :: rest).dropWhile (· ≠ newline) = newline :: rest := by
    rw [List.dropWhile_append_of_pos hline]
    simp
  rw [takeLines, if_pos (by simp), htake, hdrop, List.tail_cons]

/-- What holds of a text without newlines, and goes on over a line, holds of every text. -/
theorem lines_induction {P : List Nat → Prop} (hlast : ∀ buffer, newline ∉ buffer → P buffer)
    (hline : ∀ line rest, newline ∉ line → P rest → P (line ++ newline :: rest))
    (buffer : List Nat) : P buffer := by
  induction hlen : buffer.length using Nat.strong_induction_on generalizing buffer with
  | _ n ih =>
      by_cases hmem : newline ∈ buffer
      · obtain ⟨line, rest, rfl, hnot⟩ := List.eq_append_cons_of_mem hmem
        have hshort : rest.length < n := by
          rw [← hlen, List.length_append, List.length_cons]
          omega
        exact hline line rest hnot (ih rest.length hshort rest rfl)
      · exact hlast buffer hmem

/-- Splitting off lines does not depend on when the text arrives. -/
theorem takeLines_append (buffer chunk : List Nat) :
    takeLines (buffer ++ chunk) =
      ((takeLines buffer).1 ++ (takeLines ((takeLines buffer).2 ++ chunk)).1,
        (takeLines ((takeLines buffer).2 ++ chunk)).2) := by
  induction buffer using lines_induction with
  | hlast buffer hnot => rw [takeLines_of_not_mem hnot, List.nil_append]
  | hline line rest hnot ih =>
      rw [List.append_assoc, List.cons_append, takeLines_cons hnot, ih, takeLines_cons hnot]
      split <;> rfl

theorem strip_length_le (s : List Nat) : (strip s).length ≤ s.length := by
  have hright := (List.rdropWhile_prefix isspace (s.dropWhile isspace)).length_le
  have hleft := (List.dropWhile_suffix isspace (l := s)).length_le
  exact hright.trans hleft

/-- The lines that are yielded and the rest are no longer than the text. -/
theorem takeLines_length_le (buffer : List Nat) :
    ((takeLines buffer).1.map fun line => line.length + 1).sum + (takeLines buffer).2.length ≤
      buffer.length := by
  induction buffer using lines_induction with
  | hlast buffer hnot => rw [takeLines_of_not_mem hnot]; simp
  | hline line rest hnot ih =>
      have hstrip := strip_length_le line
      rw [takeLines_cons hnot, List.length_append, List.length_cons]
      split
      · simp only [List.map_cons, List.sum_cons]
        omega
      · dsimp only
        omega

/-- The lines of a text are yielded as they are, if none is blank or has blanks around it. -/
theorem takeLines_flatten {lines : List (List Nat)}
    (h : ∀ line ∈ lines, newline ∉ line ∧ strip line = line ∧ line ≠ []) :
    takeLines (lines.map (· ++ [newline])).flatten = (lines, []) := by
  induction lines with
  | nil => exact takeLines_of_not_mem List.not_mem_nil
  | cons line lines ih =>
      obtain ⟨hnot, hstrip, hne⟩ := h line (by simp)
      rw [List.map_cons, List.flatten_cons, List.append_assoc, List.singleton_append,
        takeLines_cons hnot, ih fun l hl => h l (by simp [hl]), hstrip, if_pos hne]

/-! ## Whole reads -/

namespace JsonStream

/-- The characters the generator has used. -/
def weight (g : JsonStream) : Nat :=
  (g.yielded.map fun line => line.length + 1).sum + g.buffer.length

theorem weight_recv_le (g : JsonStream) (part : Bytes) :
    (g.recv part).weight ≤ g.weight + (decodeIgnore part).length := by
  unfold recv
  split
  · omega
  · dsimp only
    split
    · simp only [weight]
      omega
    · have hlength := takeLines_length_le (g.buffer ++ decodeIgnore part)
      simp only [weight, List.map_append, List.sum_append, List.length_append] at hlength ⊢
      omega

/-- No more characters are yielded than were read. -/
theorem weight_exec_le (g : JsonStream) (parts : List Bytes) :
    (Run.exec recv g parts).weight ≤
      g.weight + (parts.map fun part => (decodeIgnore part).length).sum := by
  induction parts generalizing g with
  | nil => simp
  | cons part parts ih =>
      have hpart := weight_recv_le g part
      have hparts := ih (g.recv part)
      rw [Run.exec_cons, List.map_cons, List.sum_cons]
      omega

/-- Reads that end between characters: the lines of all the text so far. -/
theorem exec_of_valid (text : List Nat) {parts : List Bytes}
    (h : ∀ part ∈ parts, Valid part ∧ part ≠ []) :
    Run.exec recv ⟨(takeLines text).2, (takeLines text).1, false⟩ parts =
      ⟨(takeLines (text ++ decodeIgnore parts.flatten)).2,
        (takeLines (text ++ decodeIgnore parts.flatten)).1, false⟩ := by
  induction parts generalizing text with
  | nil => simp [decodeIgnore, Decoder.init]
  | cons part parts ih =>
      obtain ⟨hvalid, hne⟩ := h part (by simp)
      have hrecv : recv ⟨(takeLines text).2, (takeLines text).1, false⟩ part =
          ⟨(takeLines (text ++ decodeIgnore part)).2, (takeLines (text ++ decodeIgnore part)).1,
            false⟩ := by
        simp [recv, decodeIgnore_ne_nil hvalid hne, takeLines_append text]
      rw [Run.exec_cons, hrecv, ih _ fun p hp => h p (by simp [hp]), List.flatten_cons,
        decodeIgnore_append hvalid, List.append_assoc]

end JsonStream

theorem receive_json_stream_of_valid {parts : List Bytes}
    (h : ∀ part ∈ parts, Valid part ∧ part ≠ []) :
    receive_json_stream parts =
      ⟨(takeLines (decodeIgnore parts.flatten)).2, (takeLines (decodeIgnore parts.flatten)).1,
        false⟩ := by
  have hstart := JsonStream.exec_of_valid [] h
  rwa [takeLines_of_not_mem List.not_mem_nil, List.nil_append] at hstart

/-! ## Lines as the server writes them -/

/-- A line that can be told from what the client makes of it. -/
structure ShownLine (line : Bytes) : Prop where
  valid : Valid line
  noNewline : ch '\n' ∉ line
  stripped : strip (decodeIgnore line) = decodeIgnore line
  nonempty : line ≠ []

/-- A text is split in one way only at its first newline. -/
theorem line_inj {line rest line' rest' : Bytes} (hline : ch '\n' ∉ line)
    (hline' : ch '\n' ∉ line') (h : line ++ ch '\n' :: rest = line' ++ ch '\n' :: rest') :
    line = line' ∧ rest = rest' := by
  have hreverse := congrArg List.reverse h
  simp only [List.reverse_append, List.reverse_cons, List.append_assoc, List.singleton_append]
    at hreverse
  obtain ⟨hrest, hfirst⟩ := Text.append_cons_inj_of_not_mem_right
    (fun hin => hline (List.mem_reverse.mp hin)) (fun hin => hline' (List.mem_reverse.mp hin))
    hreverse
  exact ⟨List.reverse_injective hfirst, List.reverse_injective hrest⟩

theorem toNat_newline : (ch '\n').toNat = newline := by decide

theorem ShownLine.chars {line : Bytes} (h : ShownLine line) :
    newline ∉ decodeIgnore line ∧ strip (decodeIgnore line) = decodeIgnore line ∧
      decodeIgnore line ≠ [] := by
  refine ⟨fun hmem => h.noNewline ?_, h.stripped, decodeIgnore_ne_nil h.valid h.nonempty⟩
  rw [← toNat_newline] at hmem
  exact mem_of_mem_decodeIgnore (by decide) hmem

theorem valid_newline : Valid [ch '\n'] := by decide

theorem decodeIgnore_terminated {line : Bytes} (h : Valid line) :
    decodeIgnore (line ++ [ch '\n']) = decodeIgnore line ++ [newline] := by
  rw [decodeIgnore_append h, decodeIgnore_singleton (by decide), toNat_newline]

theorem valid_newlineTerminated {lines : List Bytes} (h : ∀ line ∈ lines, ShownLine line) :
    Valid (newlineTerminated lines).flatten := by
  induction lines with
  | nil => rfl
  | cons line lines ih =>
      have hline := (h line (by simp)).valid.append valid_newline
      exact hline.append (ih fun l hl => h l (by simp [hl]))

theorem decodeIgnore_newlineTerminated {lines : List Bytes}
    (h : ∀ line ∈ lines, ShownLine line) :
    decodeIgnore (newlineTerminated lines).flatten =
      ((lines.map decodeIgnore).map (· ++ [newline])).flatten := by
  have hvalid : ∀ part ∈ newlineTerminated lines, Valid part := by
    intro part hpart
    obtain ⟨line, hline, rfl⟩ := List.mem_map.mp hpart
    exact (h line hline).valid.append valid_newline
  rw [decodeIgnore_flatten hvalid, newlineTerminated, List.map_map, List.map_map]
  congr 1
  exact List.map_congr_left fun line hline => decodeIgnore_terminated (h line hline).valid

theorem takeLines_newlineTerminated {lines : List Bytes} (h : ∀ line ∈ lines, ShownLine line) :
    takeLines (decodeIgnore (newlineTerminated lines).flatten) = (lines.map decodeIgnore, []) := by
  rw [decodeIgnore_newlineTerminated h]
  apply takeLines_flatten
  intro chars hchars
  obtain ⟨line, hline, rfl⟩ := List.mem_map.mp hchars
  exact (h line hline).chars

/-- Every byte that starts a character is used: by a line, or by the newline after it. -/
theorem firsts_newlineTerminated {lines : List Bytes} (h : ∀ line ∈ lines, ShownLine line) :
    firsts (newlineTerminated lines).flatten =
      ((lines.map decodeIgnore).map fun line => line.length + 1).sum := by
  rw [← length_decodeIgnore_of_valid (valid_newlineTerminated h), decodeIgnore_newlineTerminated h,
    List.length_flatten, List.map_map]
  congr 1
  simp

/-- However the server's lines are cut into reads: the client yields them, one after the other, if
    and only if every read ends between two characters.  It has then kept nothing, and waits for
    the next line. -/
theorem json_stream_lines_iff (lines parts : List Bytes) (hlines : ∀ line ∈ lines, ShownLine line)
    (hparts : ∀ part ∈ parts, part ≠ [])
    (hcut : parts.flatten = (newlineTerminated lines).flatten) :
    ((receive_json_stream parts).yielded = lines.map decodeIgnore ↔ ∀ part ∈ parts, Valid part) ∧
      ((∀ part ∈ parts, Valid part) →
        (receive_json_stream parts).buffer = [] ∧ (receive_json_stream parts).ended = false) := by
  have hread : (∀ part ∈ parts, Valid part) →
      receive_json_stream parts = ⟨[], lines.map decodeIgnore, false⟩ := by
    intro hvalid
    rw [receive_json_stream_of_valid fun part hp => ⟨hvalid part hp, hparts part hp⟩, hcut,
      takeLines_newlineTerminated hlines]
  refine ⟨⟨fun hyielded => ?_, fun hvalid => by rw [hread hvalid]⟩, fun hvalid => by
    rw [hread hvalid]; exact ⟨rfl, rfl⟩⟩
  apply valid_of_length
  · rw [hcut]
    exact valid_newlineTerminated hlines
  · have hweight := JsonStream.weight_exec_le .new parts
    have hnew : JsonStream.new.weight = 0 := rfl
    have hused : ((lines.map decodeIgnore).map fun line => line.length + 1).sum ≤
        (receive_json_stream parts).weight := by
      rw [← hyielded]
      exact Nat.le_add_right _ _
    rw [hcut, firsts_newlineTerminated hlines]
    rw [hnew, Nat.zero_add] at hweight
    exact hused.trans hweight

/-- Two lines in three reads, the second of which ends inside a character: it decodes to nothing,
    and the generator ends there. -/
theorem json_stream_lines_iff_cut :
    ((receive_json_stream [[0x41, 0x0A], [0xC3], [0xA9, 0x0A]]).yielded = [[0x41], [0xE9]] ↔
        ∀ part ∈ [[0x41, 0x0A], [0xC3], [0xA9, 0x0A]], Valid part) ∧
      ((∀ part ∈ [[0x41, 0x0A], [0xC3], [0xA9, 0x0A]], Valid part) →
        (receive_json_stream [[0x41, 0x0A], [0xC3], [0xA9, 0x0A]]).buffer = [] ∧
          (receive_json_stream [[0x41, 0x0A], [0xC3], [0xA9, 0x0A]]).ended = false) :=
  json_stream_lines_iff [[0x41], [0xC3, 0xA9]] _
    (by
      intro line hline
      rcases List.mem_pair.mp hline with rfl | rfl <;> constructor <;> decide)
    (by decide) (by decide)

/-! ## The first response -/

/-- What `strip` leaves as it is begins and ends with a character that it keeps. -/
theorem strip_eq_self_iff {s : List Nat} (hne : s ≠ []) :
    strip s = s ↔ isspace (s.head hne) = false ∧ isspace (s.getLast hne) = false := by
  constructor
  · intro h
    have hright := (List.rdropWhile_prefix isspace (s.dropWhile isspace)).length_le
    have hleft := (List.dropWhile_suffix isspace (l := s)).length_le
    have hlength : (strip s).length = s.length := congrArg List.length h
    have hdrop : s.dropWhile isspace = s :=
      (List.dropWhile_suffix isspace).eq_of_length (by rw [strip] at hlength; omega)
    rw [strip, hdrop] at h
    refine ⟨?_, ?_⟩
    · have hfirst := List.dropWhile_eq_self_iff.mp hdrop (List.length_pos_of_ne_nil hne)
      rw [List.head_eq_getElem]
      exact Bool.eq_false_iff.mpr hfirst
    · exact Bool.eq_false_iff.mpr (List.rdropWhile_eq_self_iff.mp h hne)
  · rintro ⟨hfirst, hlast⟩
    have hdrop : s.dropWhile isspace = s := by
      rw [List.dropWhile_eq_self_iff]
      intro hpos
      rw [← List.head_eq_getElem hne]
      exact Bool.eq_false_iff.mp hfirst
    rw [strip, hdrop, List.rdropWhile_eq_self_iff]
    exact fun _ => Bool.eq_false_iff.mp hlast

/-- Of a line and what follows it, `strip` leaves the line if and only if the rest is blank. -/
theorem strip_append {s t : List Nat} (hne : s ≠ []) (h : strip s = s) :
    strip (s ++ t) = s ↔ ∀ c ∈ t, isspace c = true := by
  obtain ⟨hfirst, hlast⟩ := (strip_eq_self_iff hne).mp h
  have hdrop : (s ++ t).dropWhile isspace = s ++ t := by
    rw [List.dropWhile_eq_self_iff]
    intro hpos
    rw [← List.head_eq_getElem (by simp [hne]), List.head_append_of_ne_nil hne]
    exact Bool.eq_false_iff.mp hfirst
  rw [strip, hdrop]
  constructor
  · intro heq
    -- what is dropped is all of `t`
    have hcut := List.rdropWhile_append_rtakeWhile (p := isspace) (l := s ++ t)
    rw [heq, List.append_cancel_left_eq] at hcut
    intro c hc
    rw [← hcut] at hc
    exact List.mem_rtakeWhile_imp hc
  · intro hblank
    have hself : s.rdropWhile isspace = s :=
      List.rdropWhile_eq_self_iff.mpr fun _ => Bool.eq_false_iff.mp hlast
    rw [List.rdropWhile, List.reverse_append,
      List.dropWhile_append_of_pos fun c hc => hblank c (List.mem_reverse.mp hc)]
    exact hself

/-- The reads up to the one that brings a newline, all of them decoded. -/
theorem receiveFrom_eq_returned {response result : List Nat} {parts : List Bytes}
    (h : receiveFrom response parts = .returned result) :
    ∃ k, (∀ part ∈ parts.take k, Valid part) ∧
      newline ∈ response ++ decodeIgnore (parts.take k).flatten ∧
      result = strip (response ++ decodeIgnore (parts.take k).flatten) := by
  induction parts generalizing response with
  | nil => cases h
  | cons part parts ih =>
      unfold receiveFrom at h
      cases hdecode : decode part with
      | none =>
          rw [hdecode] at h
          cases h
      | some chars =>
          have hvalid : Valid part := (decode_isSome_iff part).mp (by rw [hdecode]; rfl)
          have hchars : chars = decodeIgnore part :=
            Option.some.inj (hdecode.symm.trans (decode_eq_decodeIgnore hvalid))
          rw [hdecode] at h
          dsimp only at h
          split at h
          · rename_i hmem
            refine ⟨1, by simpa using hvalid, ?_, ?_⟩
            · simpa [hchars] using hmem
            · simpa [hchars] using (Response.returned.inj h).symm
          · obtain ⟨k, hall, hmem, heq⟩ := ih h
            have hflat : response ++ decodeIgnore ((part :: parts).take (k + 1)).flatten =
                response ++ chars ++ decodeIgnore (parts.take k).flatten := by
              rw [List.take_succ_cons, List.flatten_cons, decodeIgnore_append hvalid, hchars,
                List.append_assoc]
            refine ⟨k + 1, ?_, hflat ▸ hmem, hflat ▸ heq⟩
            intro p hp
            rcases List.mem_cons.mp hp with rfl | hp
            · exact hvalid
            · exact hall p hp

/-- A read that ends with the first newline: the text up to it is returned. -/
theorem receiveFrom_of_line {response : List Nat} {line : Bytes} {parts : List Bytes} (k : Nat)
    (hresponse : newline ∉ response) (hline : ch '\n' ∉ line)
    (hvalid : ∀ part ∈ parts.take k, Valid part)
    (hcut : (parts.take k).flatten = line ++ [ch '\n']) :
    receiveFrom response parts =
      .returned (strip (response ++ decodeIgnore (line ++ [ch '\n']))) := by
  induction k generalizing response line parts with
  | zero => simp at hcut
  | succ k ih =>
      cases parts with
      | nil => simp at hcut
      | cons part parts =>
          rw [List.take_succ_cons] at hvalid hcut
          rw [List.flatten_cons] at hcut
          have hpart := hvalid part (by simp)
          unfold receiveFrom
          rw [decode_eq_decodeIgnore hpart]
          dsimp only
          by_cases hmem : ch '\n' ∈ part
          · -- nothing can stand behind the newline
            obtain ⟨s, t, rfl, hs⟩ := List.eq_append_cons_of_mem hmem
            rw [List.append_assoc, List.cons_append] at hcut
            obtain ⟨rfl, ht⟩ := line_inj hs hline hcut
            obtain ⟨rfl, -⟩ := List.append_eq_nil_iff.mp ht
            have hin : newline ∈ response ++ decodeIgnore (s ++ [ch '\n']) := by
              have hs' := (Valid.of_append_cons (by decide) hpart).1
              rw [decodeIgnore_terminated hs']
              simp
            rw [if_pos hin]
          · have hnot : newline ∉ response ++ decodeIgnore part := by
              intro hin
              rcases List.mem_append.mp hin with hin | hin
              · exact hresponse hin
              · rw [← toNat_newline] at hin
                exact hmem (mem_of_mem_decodeIgnore (by decide) hin)
            obtain ⟨line', rfl⟩ : ∃ line', line = part ++ line' := by
              rcases List.append_eq_append_iff.mp hcut with ⟨a, rfl, -⟩ | ⟨a, rfl, ha⟩
              · exact ⟨a, rfl⟩
              · cases a with
                | nil => exact ⟨[], by simp⟩
                | cons c a =>
                    rw [List.cons_append, List.cons.injEq] at ha
                    exact absurd (by simp [← ha.1]) hmem
            rw [List.append_assoc, List.append_cancel_left_eq] at hcut
            have hrest := ih hnot (fun hin => hline (by simp [hin]))
              (fun p hp => hvalid p (by simp [hp])) hcut
            rw [if_neg hnot, hrest, List.append_assoc, List.append_assoc,
              decodeIgnore_append hpart]

/-- Behind a line there is nothing that would be stripped: the next line begins with a character
    that is not. -/
theorem eq_nil_of_blank {lines : List Bytes} (hlines : ∀ l ∈ lines, ShownLine l) {s t : Bytes}
    (hflat : s ++ t = (newlineTerminated lines).flatten) (hvalid : Valid s)
    (hblank : ∀ c ∈ decodeIgnore s, isspace c = true) : s = [] := by
  cases s with
  | nil => rfl
  | cons b s =>
      exfalso
      cases lines with
      | nil => simp [newlineTerminated] at hflat
      | cons l lines =>
          obtain ⟨-, hstrip, hne⟩ := (hlines l (by simp)).chars
          obtain ⟨c, s', hc⟩ := List.exists_cons_of_ne_nil
            (decodeIgnore_ne_nil hvalid (List.cons_ne_nil b s))
          have hfirst : c = (decodeIgnore l).head hne := by
            have hdecode := congrArg decodeIgnore hflat
            rw [decodeIgnore_append hvalid, hc, newlineTerminated, List.map_cons,
              List.flatten_cons, List.append_assoc,
              decodeIgnore_append (hlines l (by simp)).valid] at hdecode
            have hhead := congrArg List.head? hdecode
            rw [List.head?_append, List.head?_append, List.head?_eq_some_head hne] at hhead
            simpa using hhead
          have hspace := hblank c (by simp [hc])
          rw [hfirst, ((strip_eq_self_iff hne).mp hstrip).1] at hspace
          cases hspace

/-- However the server's lines are cut into reads: the first of them is returned if and only if
    there is a read that ends with its newline, and every read up to it ends between two
    characters. -/
theorem first_response_iff (line : Bytes) (lines parts : List Bytes)
    (hlines : ∀ l ∈ line :: lines, ShownLine l)
    (hcut : parts.flatten = (newlineTerminated (line :: lines)).flatten) :
    receive_response parts = .returned (decodeIgnore line) ↔
      ∃ k, (parts.take k).flatten = line ++ [ch '\n'] ∧ ∀ part ∈ parts.take k, Valid part := by
  have hline := hlines line (by simp)
  obtain ⟨hnot, hstrip, hne⟩ := hline.chars
  constructor
  · intro h
    obtain ⟨k, hvalid, hmem, hresult⟩ := receiveFrom_eq_returned h
    refine ⟨k, ?_, hvalid⟩
    rw [List.nil_append, ← toNat_newline] at hmem
    rw [List.nil_append] at hresult
    -- the reads are the line, the newline and some more
    have hwhole : (parts.take k).flatten ++ (parts.drop k).flatten =
        line ++ ch '\n' :: (newlineTerminated lines).flatten := by
      rw [← List.flatten_append, List.take_append_drop, hcut, newlineTerminated, List.map_cons,
        List.flatten_cons, List.append_assoc]
      rfl
    have hread : Valid (parts.take k).flatten := valid_flatten hvalid
    obtain ⟨s, t, heq, hs⟩ := List.eq_append_cons_of_mem
      (mem_of_mem_decodeIgnore (by decide) hmem)
    rw [heq, List.append_assoc, List.cons_append] at hwhole
    obtain ⟨rfl, hmore⟩ := line_inj hs hline.noNewline hwhole
    rw [heq] at hread hresult ⊢
    have hmoreValid := (Valid.of_append_cons (by decide) hread).2
    -- and what is more is stripped
    have hchars : decodeIgnore (s ++ ch '\n' :: t) =
        decodeIgnore s ++ newline :: decodeIgnore t := by
      rw [← List.singleton_append, ← List.append_assoc,
        decodeIgnore_append (hline.valid.append valid_newline),
        decodeIgnore_terminated hline.valid, List.append_assoc, List.singleton_append]
    rw [hchars] at hresult
    have hblank := (strip_append hne hstrip).mp hresult.symm
    obtain rfl := eq_nil_of_blank (fun l hl => hlines l (by simp [hl])) hmore hmoreValid
      fun c hc => hblank c (by simp [hc])
    rfl
  · rintro ⟨k, hflat, hvalid⟩
    rw [receive_response,
      receiveFrom_of_line k List.not_mem_nil hline.noNewline hvalid hflat, List.nil_append,
      decodeIgnore_terminated hline.valid, (strip_append hne hstrip).mpr (by decide)]

/-- Two responses that arrive in one read are returned as one. -/
theorem first_response_iff_two :
    receive_response [[0x41], [0x0A, 0x42, 0x0A]] = .returned (decodeIgnore [0x41]) ↔
      ∃ k, (List.take k [[0x41], [0x0A, 0x42, 0x0A]]).flatten = [0x41] ++ [ch '\n'] ∧
        ∀ part ∈ List.take k [[0x41], [0x0A, 0x42, 0x0A]], Valid part :=
  first_response_iff [0x41] [[0x42]] _
    (by
      intro line hline
      rcases List.mem_pair.mp hline with rfl | rfl <;> constructor <;> decide)
    (by decide)

end DoubleTurnouts
