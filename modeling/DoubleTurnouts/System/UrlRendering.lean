/-
  DoubleTurnouts.System.UrlRendering

  The endpoint URLs are printed into a buffer of as many bytes as the format
  and the decimal port have together, and the port is scanned back out of them
  with a format that ends earlier.  The two characters of `%i` are not printed;
  one of them pays for the zero at the end.
-/
import Mathlib.Data.List.TakeWhile
import Mathlib.Tactic
import DoubleTurnouts.System.Splice
import DoubleTurnouts.UnitManager.PortRegistry

namespace DoubleTurnouts

open Text Decimal

/-- How `sys_allocate_unit` and `zmq_bus_com::work` render a format; `none` if the output and
    its zero do not fit the buffer. -/
def render_url (zmq_format : Bytes) (port : Int) : Option Bytes := do
  let ports := to_string port
  let buff := List.replicate (zmq_format.length + ports.length) 0
  let buff ← sprintfAt buff 0 (sprintf zmq_format port)
  return c_str buff

/-- `zmq_format` in `sys_allocate_unit`. -/
def unit_format (zmq_s_format unit suffix : Bytes) : Bytes :=
  if (find (str "sock") zmq_s_format).isSome then zmq_s_format ++ str "." ++ unit ++ suffix
  else zmq_s_format

/-- `_zmq_url` in `zmq_bus_com::work`. -/
def zmq_bus_com_url (zmq_url_format : Bytes) (port : Int) : Option Bytes :=
  render_url zmq_url_format port

/-- What is printed, when it fits, is what the buffer holds as a C string. -/
theorem render_url_of_lt {zmq_format : Bytes} {port : Int}
    (h : (sprintf zmq_format port).length < zmq_format.length + (to_string port).length) :
    render_url zmq_format port = some (sprintf zmq_format port) := by
  have hempty : Filled (List.replicate (zmq_format.length + (to_string port).length) 0)
      (zmq_format.length + (to_string port).length) 0 [] :=
    ⟨List.length_replicate, rfl, List.nil_prefix⟩
  have hfits : 0 + (sprintf zmq_format port ++ [0]).length
      ≤ zmq_format.length + (to_string port).length := by
    rw [List.length_append, List.length_singleton]
    omega
  obtain ⟨buff, hbuff, -, -, hpre⟩ := hempty.memcpy (sprintf zmq_format port ++ [0]) hfits
  have hstr : c_str buff = sprintf zmq_format port :=
    c_str_of_prefix hpre (zero_not_mem_sprintf zmq_format port)
  simp only [render_url, sprintfAt, hbuff, Option.bind_eq_bind, Option.bind_some, hstr]
  rfl

/-- A format with one conversion leaves room for the zero, whatever the port. -/
theorem render_url_eq {pre post : Bytes} (hzero : 0 ∉ pre ++ post) (hpercent : ch '%' ∉ pre ++ post)
    (port : Int) :
    sprintf (pre ++ ch '%' :: ch 'i' :: post) port = pre ++ (to_string port ++ post) ∧
      render_url (pre ++ ch '%' :: ch 'i' :: post) port
        = some (pre ++ (to_string port ++ post)) := by
  simp only [List.mem_append, not_or] at hzero hpercent
  have hpost : sprintf post port = post := by
    rw [sprintf_of_not_mem post port hpercent.2]
    apply List.takeWhile_eq_self_iff.mpr
    intro c hc
    exact decide_eq_true fun h => hzero.2 (h ▸ hc)
  have hprint : sprintf (pre ++ ch '%' :: ch 'i' :: post) port
      = pre ++ (to_string port ++ post) := by
    rw [sprintf_append_conversion _ _ _ hzero.1 hpercent.1, hpost]
  refine ⟨hprint, ?_⟩
  rw [← hprint]
  apply render_url_of_lt
  rw [hprint]
  simp only [List.length_append, List.length_cons]
  omega

/-! ## The shipped format -/

/-- The text of a unit's URL. -/
def unit_url_text (unit suffix : Bytes) (port : Int) : Bytes :=
  str "ipc:///tmp/llm/" ++ (to_string port ++ (str ".sock" ++ (str "." ++ (unit ++ suffix))))

/-- The text of a client's URL. -/
def client_url_text (port : Int) : Bytes :=
  str "ipc:///tmp/llm/" ++ (to_string port ++ str ".sock")

section Shipped

variable {unit suffix : Bytes}

theorem unit_format_zmqFormat (unit suffix : Bytes) :
    unit_format zmqFormat unit suffix = str "ipc:///tmp/llm/" ++
      ch '%' :: ch 'i' :: (str ".sock" ++ (str "." ++ (unit ++ suffix))) := by
  have hsock : (find (str "sock") zmqFormat).isSome = true := by decide +kernel
  rw [unit_format, if_pos hsock, List.append_assoc, List.append_assoc]
  rfl

/-- The format of a unit has no more conversions and no more zeros than its name. -/
theorem not_mem_unit_format {c : UInt8} (hc : c = 0 ∨ c = ch '%') (hunit : c ∉ unit)
    (hsuffix : suffix = str ".output_url" ∨ suffix = str ".inference_url") :
    c ∉ str "ipc:///tmp/llm/" ++ (str ".sock" ++ (str "." ++ (unit ++ suffix))) := by
  have hliterals : c ∉ str "ipc:///tmp/llm/" ∧ c ∉ str ".sock" ∧ c ∉ str "." ∧
      c ∉ str ".output_url" ∧ c ∉ str ".inference_url" := by
    rcases hc with rfl | rfl <;> decide
  obtain ⟨h1, h2, h3, h4, h5⟩ := hliterals
  simp only [List.mem_append, not_or]
  refine ⟨h1, h2, h3, hunit, ?_⟩
  rcases hsuffix with rfl | rfl
  · exact h4
  · exact h5

theorem render_unit_format (hpercent : ch '%' ∉ unit) (hzero : 0 ∉ unit)
    (hsuffix : suffix = str ".output_url" ∨ suffix = str ".inference_url") (port : Int) :
    sprintf (unit_format zmqFormat unit suffix) port = unit_url_text unit suffix port ∧
      render_url (unit_format zmqFormat unit suffix) port
        = some (unit_url_text unit suffix port) := by
  rw [unit_format_zmqFormat]
  exact render_url_eq (not_mem_unit_format (Or.inl rfl) hzero hsuffix)
    (not_mem_unit_format (Or.inr rfl) hpercent hsuffix) port

/-- The URL `sys_allocate_unit` stores is the one that has been rendered. -/
theorem unit_url_eq_text (hpercent : ch '%' ∉ unit) (hzero : 0 ∉ unit)
    (hsuffix : suffix = str ".output_url" ∨ suffix = str ".inference_url") (port : Int) :
    unit_url zmqFormat unit suffix port = unit_url_text unit suffix port := by
  rw [← (render_unit_format hpercent hzero hsuffix port).1, unit_url, unit_format,
    List.append_assoc, List.append_assoc]

end Shipped

/-- Rendering an endpoint URL can be undone.  With the shipped format, for every port and every
    unit name without a percent sign and without a zero: the buffer holds the output and its zero;
    the text is the format with the port in the place of `%i`, followed by the name and the suffix;
    and the bare format reads the port back.  So it is without a suffix.  The URLs that are stored
    with a unit are these, for the two ports that were claimed. -/
theorem url_rendering_undone :
    (∀ port unit suffix, IsInt32 port → ch '%' ∉ unit → 0 ∉ unit →
        suffix = str ".output_url" ∨ suffix = str ".inference_url" →
        render_url (unit_format zmqFormat unit suffix) port
            = some (unit_url_text unit suffix port) ∧
          sscanf (unit_url_text unit suffix port) zmqFormat = some port) ∧
      (∀ port, IsInt32 port →
        zmq_bus_com_url zmqFormat port = some (client_url_text port) ∧
          sscanf (client_url_text port) zmqFormat = some port) ∧
      ∀ indet m unit, m.zmq_s_format = zmqFormat → ch '%' ∉ unit → 0 ∉ unit →
        let out := claim_port m.port_list_start m.port_list indet.output_port
        let inf := claim_port m.port_list_start out.2 indet.inference_port
        (sys_allocate_unit indet m unit).1.output_url
            = unit_url_text unit (str ".output_url") out.1 ∧
          (sys_allocate_unit indet m unit).1.inference_url
            = unit_url_text unit (str ".inference_url") inf.1 := by
  refine ⟨?_, ?_, ?_⟩
  · intro port unit suffix hport hpercent hzero hsuffix
    refine ⟨(render_unit_format hpercent hzero hsuffix port).2, ?_⟩
    exact sscanf_zmqFormat hport _
  · intro port hport
    have hrender := @render_url_eq (str "ipc:///tmp/llm/") (str ".sock") (by decide)
      (by decide) port
    exact ⟨hrender.2, sscanf_zmqFormat hport _⟩
  · intro indet m unit hformat hpercent hzero out inf
    rw [← unit_url_eq_text hpercent hzero (Or.inl rfl), ← unit_url_eq_text hpercent hzero
      (Or.inr rfl), ← hformat]
    exact ⟨rfl, rfl⟩

/-- The least port, and a name with dots. -/
theorem url_rendering_undone_dotted :
    render_url (unit_format zmqFormat (str "a.sock.7") (str ".output_url")) (-2147483648)
        = some (str "ipc:///tmp/llm/-2147483648.sock.a.sock.7.output_url") ∧
      sscanf (str "ipc:///tmp/llm/0.sock") zmqFormat = some 0 := by
  obtain ⟨hunit, hclient, -⟩ := url_rendering_undone
  exact ⟨(hunit (-2147483648) (str "a.sock.7") (str ".output_url") (by decide) (by decide)
    (by decide) (Or.inl rfl)).1, (hclient 0 (by decide)).2⟩

end DoubleTurnouts
