/-
  DoubleTurnouts.System.Registration

  The reply to `register_unit`, from the manager's `set_param` to the node's
  four `get_param` calls.  The reply is a pair inside a pair.  The outer first
  component is a printed `int` and always fits its length byte; the inner one
  is the output URL, which carries the caller's unit name, and decides whether
  the node reads back what the manager stored.
-/
import Mathlib.Data.List.TakeWhile
import Mathlib.Tactic
import DoubleTurnouts.InfraController.StackFlow
import DoubleTurnouts.UnitManager.PortRegistry

namespace DoubleTurnouts

open Text Decimal

/-! ## Endpoint formats -/

/-- A `zmq_s_format` with one conversion, split there. -/
structure EndpointFormat where
  pre : Bytes
  post : Bytes
  null_not_mem : 0 ∉ pre
  percent_not_mem : ch '%' ∉ pre ++ post

namespace EndpointFormat

def text (f : EndpointFormat) : Bytes := f.pre ++ ch '%' :: ch 'i' :: f.post

/-- What follows the port in a URL: the unit name and the suffix are in `ipc` formats only,
    and `sprintf` ends at a null byte. -/
def tail (f : EndpointFormat) (unit suffix : Bytes) : Bytes :=
  (f.post ++
    if (find (str "sock") f.text).isSome then str "." ++ (unit ++ suffix) else []).takeWhile (· ≠ 0)

/-- The length of a rendered URL. -/
def urlLength (f : EndpointFormat) (unit suffix : Bytes) (port : Int) : Nat :=
  f.pre.length + (to_string port).length + (f.tail unit suffix).length

/-- The shipped format. -/
def shipped : EndpointFormat where
  pre := str "ipc:///tmp/llm/"
  post := str ".sock"
  null_not_mem := by decide
  percent_not_mem := by decide

theorem shipped_text : shipped.text = zmqFormat := rfl

theorem unit_url_text (f : EndpointFormat) {unit suffix : Bytes} (hunit : ch '%' ∉ unit)
    (hsuffix : ch '%' ∉ suffix) (port : Int) :
    unit_url f.text unit suffix port = f.pre ++ (to_string port ++ f.tail unit suffix) := by
  have hpercent := f.percent_not_mem
  simp only [List.mem_append, not_or] at hpercent
  have hname : ch '%' ∉ str "." ++ (unit ++ suffix) := by
    simp only [List.mem_append, not_or]
    exact ⟨by decide, hunit, hsuffix⟩
  unfold unit_url tail
  split
  -- behind the port no conversion follows, so the rest is copied up to a null byte
  · have hmem : ch '%' ∉ f.post ++ (str "." ++ (unit ++ suffix)) := by
      rw [List.mem_append, not_or]
      exact ⟨hpercent.2, hname⟩
    rw [← sprintf_of_not_mem _ port hmem, text, List.append_assoc]
    exact sprintf_append_conversion _ _ _ f.null_not_mem hpercent.1
  · rw [List.append_nil, ← sprintf_of_not_mem _ port hpercent.2]
    exact sprintf_append_conversion _ _ _ f.null_not_mem hpercent.1

theorem length_unit_url (f : EndpointFormat) {unit suffix : Bytes} (hunit : ch '%' ∉ unit)
    (hsuffix : ch '%' ∉ suffix) (port : Int) :
    (unit_url f.text unit suffix port).length = f.urlLength unit suffix port := by
  rw [unit_url_text f hunit hsuffix, List.length_append, List.length_append, urlLength]
  omega

/-- With the shipped format and no null byte, the name and the port make the length. -/
theorem urlLength_shipped {unit : Bytes} (hunit : 0 ∉ unit) (port : Int) :
    shipped.urlLength unit (str ".output_url") port
      = 32 + unit.length + (to_string port).length := by
  have htail : shipped.tail unit (str ".output_url")
      = str ".sock." ++ (unit ++ str ".output_url") := by
    have hsock : (find (str "sock") shipped.text).isSome = true := by decide +kernel
    rw [tail, if_pos hsock]
    apply List.takeWhile_eq_self_iff.mpr
    intro c hc
    have hc' : c ∈ str ".sock." ∨ c ∈ unit ∨ c ∈ str ".output_url" := by
      simpa [shipped, str, or_assoc] using hc
    -- neither part of the tail has a null byte
    rcases hc' with h | h | h
    · have : ∀ c ∈ str ".sock.", c ≠ 0 := by decide
      simpa using this c h
    · have : c ≠ 0 := fun he => hunit (he ▸ h)
      simpa using this
    · have : ∀ c ∈ str ".output_url", c ≠ 0 := by decide
      simpa using this c h
  have hpre : shipped.pre.length = 15 := by decide
  have hsock : (str ".sock.").length = 6 := by decide
  have hsuffix : (str ".output_url").length = 11 := by decide
  rw [urlLength, htail, List.length_append, List.length_append]
  omega

end EndpointFormat

/-! ## The reply -/

/-- The three strings `sys_register_unit` reads, before it converts the number. -/
def register_params (reply : Bytes) : Except Exn (Bytes × Bytes × Bytes) := do
  let str_port ← get_param reply 1 []
  let out_port ← get_param reply 0 str_port
  let inference_port ← get_param reply 1 str_port
  let str_port ← get_param reply 0 []
  return (str_port, out_port, inference_port)

theorem decode_register_eq (reply : Bytes) :
    StackFlow.decode_register reply = (do
      let (str_port, out_port, inference_port) ← register_params reply
      let work_id_number ← stoi str_port
      return (work_id_number, out_port, inference_port)) := by
  simp [StackFlow.decode_register, StackFlow.decode_registerWith, register_params]

/-- A pair in a pair comes back exactly if the inner first component is short. -/
theorem register_params_set_param_iff {number : Bytes} (h : number.length ≤ 127)
    (output_url inference_url : Bytes) :
    register_params (set_param number (set_param output_url inference_url))
      = .ok (number, output_url, inference_url) ↔ output_url.length ≤ 127 := by
  have hinner : set_param output_url inference_url ≠ [] := by simp [set_param]
  have hfirst := get_param_zero_set_param_iff output_url inference_url
  have hparams : register_params (set_param number (set_param output_url inference_url)) = do
      let out_port ← get_param (set_param output_url inference_url) 0 []
      let inference_port ← get_param (set_param output_url inference_url) 1 []
      return (number, out_port, inference_port) := by
    unfold register_params
    -- the outer pair always comes back: a printed int is short
    rw [get_param_one_set_param h, get_param_zero_set_param h]
    show (do
      let out_port ← get_param _ 0 (set_param output_url inference_url)
      let inference_port ← get_param _ 1 (set_param output_url inference_url)
      return (number, out_port, inference_port)) = _
    rw [get_param_idata _ 0 hinner, get_param_idata _ 1 hinner]
  rw [hparams]
  constructor
  · intro hok
    obtain ⟨out_port, hout, hok⟩ := exists_of_bind_eq_ok hok
    obtain ⟨inference_port, -, hok⟩ := exists_of_bind_eq_ok hok
    cases hok
    exact hfirst.mp hout
  · intro hlen
    rw [get_param_zero_set_param hlen, get_param_one_set_param hlen]
    rfl

/-! ## The manager's side -/

/-- A reply whose output URL is short gives the node its number and both URLs. -/
theorem decode_register_rpc_allocate_unit (indet : Indet) {m : Manager}
    (hcounter : IsInt32 m.work_id_number_counter) {unit : Bytes}
    (hlen : (sys_allocate_unit indet m unit).1.output_url.length ≤ 127) :
    StackFlow.decode_register (rpc_allocate_unit indet m unit).1
      = .ok (m.work_id_number_counter, (sys_allocate_unit indet m unit).1.output_url,
          (sys_allocate_unit indet m unit).1.inference_url) := by
  have hnumber : (to_string (sys_allocate_unit indet m unit).1.port_).length ≤ 127 :=
    (length_to_string_le hcounter).trans (by decide)
  have hparams := (register_params_set_param_iff hnumber _
    (sys_allocate_unit indet m unit).1.inference_url).mpr hlen
  have hstoi : stoi (to_string (sys_allocate_unit indet m unit).1.port_)
      = .ok m.work_id_number_counter := stoi_to_string hcounter
  rw [decode_register_eq, rpc_allocate_unit]
  simp only [hparams]
  show (stoi (to_string (sys_allocate_unit indet m unit).1.port_) >>= _) = _
  rw [hstoi]
  rfl

/-- The port the next registration prints into its output URL. -/
def Manager.firstFreePort (m : Manager) : Int :=
  m.port_list_start + m.port_list.findIdx (fun taken => !taken)

theorem claim_port_firstFree {m : Manager} (h : 1 ≤ m.port_list.count false) (uninit : Int) :
    (claim_port m.port_list_start m.port_list uninit).1 = m.firstFreePort := by
  have hmem : false ∈ m.port_list := List.count_pos_iff.mp h
  have hidx : m.port_list.findIdx? (fun taken => !taken)
      = some (m.port_list.findIdx (fun taken => !taken)) := by
    apply List.findIdx?_eq_some_of_exists
    exact ⟨false, hmem, rfl⟩
  simp only [claim_port, hidx, Manager.firstFreePort]

/-- The node reads from the reply what the manager has stored for the new unit. -/
def RegisterRoundTrip (indet : Indet) (m : Manager) (unit : Bytes) : Prop :=
  ∃ unit_p : UnitData,
    (rpc_allocate_unit indet m unit).2.key_sql.unitAt
      (sample_get_work_id m.work_id_number_counter unit) = some unit_p ∧
    register_params (rpc_allocate_unit indet m unit).1
      = .ok (to_string unit_p.port_, unit_p.output_url, unit_p.inference_url)

/-- In every state: the length of the URL that was stored decides. -/
theorem registerRoundTrip_iff_length (indet : Indet) {m : Manager}
    (hcounter : IsInt32 m.work_id_number_counter) (unit : Bytes) :
    RegisterRoundTrip indet m unit ↔
      (sys_allocate_unit indet m unit).1.output_url.length ≤ 127 := by
  have hnumber : (to_string (sys_allocate_unit indet m unit).1.port_).length ≤ 127 :=
    (length_to_string_le hcounter).trans (by decide)
  have hstored := unitAt_sys_allocate_unit indet m unit
  rw [← register_params_set_param_iff hnumber _
    (sys_allocate_unit indet m unit).1.inference_url]
  constructor
  · rintro ⟨unit_p, hunit, hread⟩
    -- what is stored is the record the reply was made from
    obtain rfl : (sys_allocate_unit indet m unit).1 = unit_p :=
      Option.some.inj (hstored.symm.trans hunit)
    exact hread
  · intro hread
    exact ⟨_, hstored, hread⟩

/-- For every state with two free ports and every name without a conversion, the node reads
    back the number and the two URLs exactly if the output URL, rendered with the first free
    port, is at most 127 bytes long. -/
theorem register_reply_round_trip_iff (indet : Indet) (m : Manager) (f : EndpointFormat)
    (hformat : m.zmq_s_format = f.text) (hcounter : IsInt32 m.work_id_number_counter)
    (hfree : 2 ≤ m.port_list.count false) (unit : Bytes) (hunit : ch '%' ∉ unit) :
    RegisterRoundTrip indet m unit ↔
      f.urlLength unit (str ".output_url") m.firstFreePort ≤ 127 := by
  have hport := claim_port_firstFree (m := m) (by omega) indet.output_port
  have hurl : (sys_allocate_unit indet m unit).1.output_url
      = unit_url f.text unit (str ".output_url") m.firstFreePort := by
    rw [← hport, ← hformat]
    rfl
  rw [registerRoundTrip_iff_length indet hcounter, hurl,
    EndpointFormat.length_unit_url f hunit (by decide)]

/-- The llm node's own registration at a manager that has just started. -/
theorem register_reply_round_trip_iff_llm :
    RegisterRoundTrip ⟨0, 0⟩ (Manager.initial 5010 5555) (str "llm") :=
  (register_reply_round_trip_iff ⟨0, 0⟩ (Manager.initial 5010 5555) EndpointFormat.shipped rfl
    (by decide) (by decide +kernel) (str "llm") (by decide)).mpr (by decide +kernel)

/-- A name of 92 bytes gives an output URL of 128. -/
theorem long_unit_name_misread :
    ch '%' ∉ List.replicate 92 (ch 'a') ∧
      2 ≤ (Manager.initial 5010 5555).port_list.count false ∧
      ¬ RegisterRoundTrip ⟨0, 0⟩ (Manager.initial 5010 5555) (List.replicate 92 (ch 'a')) := by
  refine ⟨by decide, by decide +kernel, ?_⟩
  rw [registerRoundTrip_iff_length _ (by decide)]
  decide +kernel

end DoubleTurnouts
