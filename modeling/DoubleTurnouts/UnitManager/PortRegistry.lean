/-
  DoubleTurnouts.UnitManager.PortRegistry

  The manager's port bitmap, unit records and key store stay in step over
  every run of RPC requests.

  A unit record holds no port number: release parses both ports back out of
  the rendered URLs, with a shorter format than they were printed with.
  `sscanf_unit_url` is that round trip.  On top of it the manager state is
  read as a `Lease.Book` (`book`): registering a unit takes two slots, releasing
  it gives them back, and the key-value requests leave the book alone.  The
  invariant `RegistryInv` is the book's consistency plus what each record looks
  like; it is kept by every admissible request (`serve_registryInv`) and the
  statement about whole runs follows.
-/
import Mathlib.Tactic
import DoubleTurnouts.Lib.Lease
import DoubleTurnouts.Lib.Run
import DoubleTurnouts.UnitManager.RemoteServer

namespace DoubleTurnouts

open Text Decimal Lease

/-- The shipped `config_zmq_s_format`. -/
def zmqFormat : Bytes := str "ipc:///tmp/llm/%i.sock"

/-! ## Endpoint URLs -/

/-- The URL of a client, or of a unit before its name is added. -/
theorem sprintf_zmqFormat (com_id : Int) :
    sprintf zmqFormat com_id = str "ipc:///tmp/llm/" ++ (to_string com_id ++ str ".sock") :=
  sprintf_append_conversion (str "ipc:///tmp/llm/") (str ".sock") com_id (by decide) (by decide)

theorem unit_url_zmqFormat (unit suffix : Bytes) (port : Int) :
    unit_url zmqFormat unit suffix port =
      str "ipc:///tmp/llm/" ++ (to_string port ++
        sprintf (str ".sock" ++ (str "." ++ (unit ++ suffix))) port) := by
  have hsock : (find (str "sock") zmqFormat).isSome = true := by decide +kernel
  have hfmt : zmqFormat ++ (str "." ++ (unit ++ suffix)) =
      str "ipc:///tmp/llm/" ++ ch '%' :: ch 'i' ::
        (str ".sock" ++ (str "." ++ (unit ++ suffix))) := rfl
  rw [unit_url, if_pos hsock, hfmt]
  exact sprintf_append_conversion _ _ _ (by decide) (by decide)

/-- The bare format reads a port back that a dot follows. -/
theorem sscanf_zmqFormat {port : Int} (h : IsInt32 port) (rest : Bytes) :
    sscanf (str "ipc:///tmp/llm/" ++ (to_string port ++ ch '.' :: rest)) zmqFormat
      = some port := by
  have hscan : sscanf (str "ipc:///tmp/llm/" ++ (to_string port ++ ch '.' :: rest))
      (str "ipc:///tmp/llm/" ++ ch '%' :: ch 'i' :: str ".sock")
      = scan_i (to_string port ++ ch '.' :: rest) :=
    sscanf_append_conversion _ _ _ (by decide)
  exact hscan.trans (scan_i_to_string h (by decide) (by decide) (by decide) rest)

/-- The port of a rendered URL is read back with the bare format. -/
theorem sscanf_unit_url {port : Int} (h : IsInt32 port) (unit suffix : Bytes) :
    sscanf (unit_url zmqFormat unit suffix port) zmqFormat = some port := by
  obtain ⟨rest, hrest⟩ :
      ∃ rest, sprintf (str ".sock" ++ (str "." ++ (unit ++ suffix))) port = ch '.' :: rest :=
    ⟨_, rfl⟩
  -- what follows the number in the URL begins with the dot of .sock, which ends the scan
  rw [unit_url_zmqFormat, hrest]
  exact sscanf_zmqFormat h rest

/-! ## Keys -/

/-- A work id is never the `.out_port` key of anything. -/
theorem out_port_key_ne_work_id (w : Bytes) (n : Int) (u : Bytes) :
    out_port_key w ≠ sample_get_work_id n u := by
  intro h
  have h' : w ++ ch '.' :: str "out_port" = u ++ ch '.' :: to_string n := h
  -- behind the last dot stands out_port in one of them and a number in the other
  obtain ⟨-, hn⟩ := append_cons_inj_of_not_mem_right (by decide) (dot_not_mem_to_string n) h'
  have hmem : ch 'o' ∈ to_string n := by rw [← hn]; decide
  exact not_mem_to_string n (by decide) (by decide) hmem

theorem out_port_key_injective {w w' : Bytes} (h : out_port_key w = out_port_key w') : w = w' :=
  List.append_cancel_right h

/-! ## The manager as a book of leases -/

def Manager.output_port (m : Manager) (u : UnitData) : Option Int :=
  sscanf u.output_url m.zmq_s_format

def Manager.inference_port (m : Manager) (u : UnitData) : Option Int :=
  sscanf u.inference_url m.zmq_s_format

/-- The pair of ports of the unit registered under `w`. -/
def Manager.ports (m : Manager) (w : Bytes) : Option (Int × Int) :=
  (m.key_sql.unitAt w).bind fun u =>
    (m.output_port u).bind fun p => (m.inference_port u).map fun q => (p, q)

/-- Ports marked in the bitmap, and the ports each registered unit holds. -/
def Manager.book (m : Manager) : Book Bytes Int where
  taken := {p | ∃ i : Nat, m.port_list[i]? = some true ∧ p = m.port_list_start + i}
  held := m.ports

/-- A unit record as `sys_allocate_unit` builds it, for ports inside the configured range. -/
structure UnitRecord (lo hi counter : Int) (w : Bytes) (u : UnitData) (unit : Bytes)
    (p q : Int) : Prop where
  key_eq : w = sample_get_work_id u.port_ unit
  work_id_eq : u.work_id = w
  number : 0 ≤ u.port_ ∧ u.port_ < counter
  output_url : u.output_url = unit_url zmqFormat unit (str ".output_url") p
  inference_url : u.inference_url = unit_url zmqFormat unit (str ".inference_url") q
  output_range : lo ≤ p ∧ p < hi
  inference_range : lo ≤ q ∧ q < hi

/-- The registry invariant, for the port range `[lo, hi)`. -/
structure RegistryInv (lo hi : Int) (m : Manager) : Prop where
  format : m.zmq_s_format = zmqFormat
  start : m.port_list_start = lo
  size : (m.port_list.length : Int) = hi - lo
  counter : 0 ≤ m.work_id_number_counter
  records : ∀ {w u}, m.key_sql.unitAt w = some u →
    ∃ unit p q, UnitRecord lo hi m.work_id_number_counter w u unit p q
  out_port : ∀ {w u}, m.key_sql.unitAt w = some u →
    m.key_sql.lookup (out_port_key w) = some (.string u.output_url)
  consistent : m.book.Consistent

section Invariant

variable {lo hi : Int} {m : Manager}

theorem UnitRecord.mono {c c' : Int} {w unit : Bytes} {u : UnitData} {p q : Int}
    (h : UnitRecord lo hi c w u unit p q) (hc : c ≤ c') : UnitRecord lo hi c' w u unit p q :=
  { h with number := ⟨h.number.1, by have := h.number.2; omega⟩ }

/-- No unit is registered under an `.out_port` key. -/
theorem RegistryInv.unitAt_out_port_key (h : RegistryInv lo hi m) (w : Bytes) :
    m.key_sql.unitAt (out_port_key w) = none := by
  by_contra hne
  obtain ⟨u, hu⟩ := Option.ne_none_iff_exists'.mp hne
  obtain ⟨unit, p, q, hrec⟩ := h.records hu
  exact out_port_key_ne_work_id _ _ _ hrec.key_eq

/-- The next work id is not in use: every live number is below the counter. -/
theorem RegistryInv.unitAt_fresh (h : RegistryInv lo hi m) (unit : Bytes) :
    m.key_sql.unitAt (sample_get_work_id m.work_id_number_counter unit) = none := by
  by_contra hne
  obtain ⟨u, hu⟩ := Option.ne_none_iff_exists'.mp hne
  obtain ⟨unit', p, q, hrec⟩ := h.records hu
  -- the same number would be below the counter and equal to it
  obtain ⟨-, hn⟩ := sample_get_work_id_inj hrec.key_eq
  have := hrec.number.2
  omega

/-- The ports of a record are the ones its URLs were rendered with. -/
theorem UnitRecord.ports_eq (hlo : IsInt32 lo) (hhi : IsInt32 hi) (hf : m.zmq_s_format = zmqFormat)
    {c : Int} {w unit : Bytes} {u : UnitData} {p q : Int}
    (h : UnitRecord lo hi c w u unit p q) :
    m.output_port u = some p ∧ m.inference_port u = some q := by
  have hp : IsInt32 p :=
    ⟨hlo.1.trans h.output_range.1, by have := hhi.2; have := h.output_range.2; omega⟩
  have hq : IsInt32 q :=
    ⟨hlo.1.trans h.inference_range.1, by have := hhi.2; have := h.inference_range.2; omega⟩
  simp only [Manager.output_port, Manager.inference_port, hf, h.output_url, h.inference_url]
  exact ⟨sscanf_unit_url hp _ _, sscanf_unit_url hq _ _⟩

/-! ## What one request does -/

/-- The first-fit loop with a free entry left. -/
theorem claim_port_of_free {port_list : List Bool} (h : 1 ≤ port_list.count false)
    (start uninit : Int) :
    ∃ i : Nat, port_list[i]? = some false ∧
      claim_port start port_list uninit = (start + i, port_list.set i true) := by
  cases hidx : port_list.findIdx? (fun taken => !taken) with
  | none =>
      have hall := List.findIdx?_eq_none_iff.mp hidx
      have hmem : false ∈ port_list := List.count_pos_iff.mp h
      exact absurd (hall false hmem) (by decide)
  | some i =>
      obtain ⟨hlt, htrue, -⟩ := List.findIdx?_eq_some_iff_getElem.mp hidx
      refine ⟨i, ?_, by simp [claim_port, hidx]⟩
      rw [List.getElem?_eq_getElem hlt]
      simpa using htrue

/-- Claiming an entry leaves one free entry less. -/
theorem count_false_set_true {port_list : List Bool} {i : Nat}
    (h : port_list[i]? = some false) :
    (port_list.set i true).count false = port_list.count false - 1 := by
  obtain ⟨hlt, hget⟩ := List.getElem?_eq_some_iff.mp h
  rw [List.count_set hlt]
  simp [hget]

/-- The state after unit `u` has been stored with the bitmap entries `i` and `j`. -/
def Manager.withUnit (m : Manager) (u : UnitData) (i j : Nat) : Manager :=
  { m with
    work_id_number_counter := wrap32 (m.work_id_number_counter + 1)
    port_list := (m.port_list.set i true).set j true
    key_sql := (m.key_sql.insert u.work_id (.unit u)).insert
      (out_port_key u.work_id) (.string u.output_url) }

/-- The state after the unit at `w` has been removed with the bitmap entries `i` and `j`. -/
def Manager.withoutUnit (m : Manager) (w : Bytes) (i j : Nat) : Manager :=
  { m with
    port_list := (m.port_list.set i false).set j false
    key_sql := (m.key_sql.erase w).erase (out_port_key w) }

/-- `sys_allocate_unit` with two free ports: two different free entries are claimed and the
    record is stored under the next work id. -/
theorem sys_allocate_unit_eq (indet : Indet) (unit : Bytes) (h : 2 ≤ m.port_list.count false) :
    ∃ (i j : Nat) (u : UnitData), m.port_list[i]? = some false ∧
      m.port_list[j]? = some false ∧ i ≠ j ∧
      u.port_ = m.work_id_number_counter ∧
      u.work_id = sample_get_work_id m.work_id_number_counter unit ∧
      u.output_url = unit_url m.zmq_s_format unit (str ".output_url") (m.port_list_start + i) ∧
      u.inference_url
        = unit_url m.zmq_s_format unit (str ".inference_url") (m.port_list_start + j) ∧
      sys_allocate_unit indet m unit = (u, m.withUnit u i j) := by
  obtain ⟨i, hgi, hclaim1⟩ := claim_port_of_free
    (show 1 ≤ m.port_list.count false by omega) m.port_list_start indet.output_port
  have hcount := count_false_set_true hgi
  obtain ⟨j, hgj, hclaim2⟩ := claim_port_of_free
    (show 1 ≤ (m.port_list.set i true).count false by omega) m.port_list_start
    indet.inference_port
  -- the first entry is marked when the second loop runs
  have hij : i ≠ j := by
    rintro rfl
    rw [List.getElem?_set_self (List.getElem?_eq_some_iff.mp hgi).1] at hgj
    simp at hgj
  rw [List.getElem?_set_ne hij] at hgj
  refine ⟨i, j, ⟨m.work_id_number_counter, sample_get_work_id m.work_id_number_counter unit,
    unit_url m.zmq_s_format unit (str ".output_url") (m.port_list_start + i),
    unit_url m.zmq_s_format unit (str ".inference_url") (m.port_list_start + j)⟩,
    hgi, hgj, hij, rfl, rfl, rfl, rfl, ?_⟩
  simp only [sys_allocate_unit, hclaim1, hclaim2, Manager.withUnit, sample_get_work_id]

/-- `sys_release_unit` of a live unit: the indices computed from its URLs are the bitmap
    entries of its two ports. -/
theorem sys_release_unit_eq (hlo : IsInt32 lo) (hhi : IsInt32 hi) (h : RegistryInv lo hi m)
    {w : Bytes} {u : UnitData} (hu : m.key_sql.unitAt w = some u) (uninit : Int) :
    ∃ i j : Nat, m.ports w = some (m.port_list_start + i, m.port_list_start + j) ∧
      i < m.port_list.length ∧ j < m.port_list.length ∧
      release_indices m u uninit = ((i : Int), (j : Int)) ∧
      sys_release_unit uninit m w = (0, m.withoutUnit w i j) := by
  obtain ⟨unit, p, q, hrec⟩ := h.records hu
  obtain ⟨hp, hq⟩ := hrec.ports_eq hlo hhi h.format
  have hsize := h.size
  have hpr := hrec.output_range
  have hqr := hrec.inference_range
  have hstart := h.start
  -- the ports are in range, so both differences are indices
  obtain ⟨i, hpi⟩ : ∃ i : Nat, p - lo = i := Int.eq_ofNat_of_zero_le (by omega)
  obtain ⟨j, hqj⟩ : ∃ j : Nat, q - lo = j := Int.eq_ofNat_of_zero_le (by omega)
  have hidx : release_indices m u uninit = ((i : Int), (j : Int)) := by
    simp only [Manager.output_port, Manager.inference_port] at hp hq
    simp [release_indices, hp, hq, hstart, hpi, hqj]
  refine ⟨i, j, ?_, by omega, by omega, hidx, ?_⟩
  · rw [Manager.ports, hu, hstart, ← hpi, ← hqj]
    simp [hp, hq]
  · simp [sys_release_unit, hu, hidx, free_port, Manager.withoutUnit]

/-! ## Registered units after one request -/

theorem unitAt_insert (key_sql : KeySql) (k w : Bytes) (v : Any) :
    KeySql.unitAt (key_sql.insert k v) w = if w = k then v.unit? else key_sql.unitAt w := by
  by_cases hw : w = k
  · subst hw
    simp [KeySql.unitAt]
  · simp [KeySql.unitAt, hw, AList.lookup_insert_ne hw]

theorem unitAt_erase (key_sql : KeySql) (k w : Bytes) :
    KeySql.unitAt (key_sql.erase k) w = if w = k then none else key_sql.unitAt w := by
  by_cases hw : w = k
  · subst hw
    simp [KeySql.unitAt]
  · simp [KeySql.unitAt, hw, AList.lookup_erase_ne hw]

/-- The record a registration builds is the one stored under the new work id. -/
theorem unitAt_sys_allocate_unit (indet : Indet) (m : Manager) (unit : Bytes) :
    (sys_allocate_unit indet m unit).2.key_sql.unitAt
      (sample_get_work_id m.work_id_number_counter unit)
        = some (sys_allocate_unit indet m unit).1 := by
  have hkey : sample_get_work_id m.work_id_number_counter unit
      ≠ out_port_key (unit ++ ch '.' :: to_string m.work_id_number_counter) :=
    (out_port_key_ne_work_id _ _ _).symm
  simp only [sys_allocate_unit]
  rw [unitAt_insert, if_neg hkey, unitAt_insert]
  exact if_pos rfl

theorem RegistryInv.unitAt_withUnit (h : RegistryInv lo hi m) {u : UnitData} {n : Int}
    {unit : Bytes} (hw : u.work_id = sample_get_work_id n unit) (i j : Nat) (w : Bytes) :
    (m.withUnit u i j).key_sql.unitAt w
      = if w = u.work_id then some u else m.key_sql.unitAt w := by
  have hkey : out_port_key u.work_id ≠ u.work_id := by
    rw [hw]
    exact out_port_key_ne_work_id _ _ _
  simp only [Manager.withUnit, unitAt_insert]
  by_cases hwo : w = out_port_key u.work_id
  · subst hwo
    simp [hkey, Any.unit?, h.unitAt_out_port_key]
  · simp [hwo, Any.unit?]

theorem RegistryInv.unitAt_withoutUnit (h : RegistryInv lo hi m) (w : Bytes) (i j : Nat)
    (w' : Bytes) :
    (m.withoutUnit w i j).key_sql.unitAt w'
      = if w' = w then none else m.key_sql.unitAt w' := by
  simp only [Manager.withoutUnit, unitAt_erase]
  by_cases hwo : w' = out_port_key w
  · subst hwo
    simp [h.unitAt_out_port_key]
  · simp [hwo]

/-! ## The book after one request -/

/-- Which ports a bitmap marks, after one entry has been set. -/
theorem mem_marked_set {port_list : List Bool} {i : Nat} {b : Bool} (start p : Int)
    (hlt : i < port_list.length) :
    (∃ k : Nat, (port_list.set i b)[k]? = some true ∧ p = start + k) ↔
      (b = true ∧ p = start + i) ∨
      (p ≠ start + i ∧ ∃ k : Nat, port_list[k]? = some true ∧ p = start + k) := by
  constructor
  · rintro ⟨k, hk, rfl⟩
    by_cases hik : i = k
    · subst hik
      rw [List.getElem?_set_self hlt] at hk
      exact Or.inl ⟨by simpa using hk, rfl⟩
    · rw [List.getElem?_set_ne hik] at hk
      exact Or.inr ⟨by omega, k, hk, rfl⟩
  · rintro (⟨rfl, rfl⟩ | ⟨hne, k, hk, rfl⟩)
    · exact ⟨i, List.getElem?_set_self hlt, rfl⟩
    · refine ⟨k, ?_, rfl⟩
      rw [List.getElem?_set_ne (by omega)]
      exact hk

theorem mem_taken {p : Int} :
    p ∈ m.book.taken ↔ ∃ i : Nat, m.port_list[i]? = some true ∧ p = m.port_list_start + i :=
  Iff.rfl

theorem RegistryInv.book_withUnit (h : RegistryInv lo hi m) {u : UnitData} {n : Int}
    {unit : Bytes} (hw : u.work_id = sample_get_work_id n unit) {i j : Nat}
    (hgi : i < m.port_list.length) (hgj : j < m.port_list.length)
    (hp : m.output_port u = some (m.port_list_start + i))
    (hq : m.inference_port u = some (m.port_list_start + j)) :
    (m.withUnit u i j).book
      = m.book.take u.work_id (m.port_list_start + i) (m.port_list_start + j) := by
  refine Book.ext ?_ ?_
  · ext p
    rw [mem_taken, Book.mem_taken_take]
    simp only [Manager.withUnit]
    rw [mem_marked_set _ _ (by simpa using hgj), mem_marked_set _ _ hgi, mem_taken]
    tauto
  · funext w
    simp only [Manager.book, Manager.ports, Book.take, h.unitAt_withUnit hw]
    by_cases hwu : w = u.work_id
    · subst hwu
      simp only [Manager.output_port, Manager.inference_port] at hp hq ⊢
      simp [Manager.withUnit, hp, hq]
    · simp only [if_neg hwu, Function.update_of_ne hwu]
      rfl

theorem RegistryInv.book_withoutUnit (h : RegistryInv lo hi m) {w : Bytes} {i j : Nat}
    (hgi : i < m.port_list.length) (hgj : j < m.port_list.length)
    (hports : m.ports w = some (m.port_list_start + i, m.port_list_start + j)) :
    (m.withoutUnit w i j).book = m.book.give w := by
  have hholds : ∀ p, m.book.Holds w p ↔ p = m.port_list_start + i ∨ p = m.port_list_start + j := by
    intro p
    simp [Book.Holds, Manager.book, hports]
  refine Book.ext ?_ ?_
  · ext p
    rw [mem_taken, Book.mem_taken_give, hholds]
    simp only [Manager.withoutUnit]
    rw [mem_marked_set _ _ (by simpa using hgj), mem_marked_set _ _ hgi, mem_taken]
    simp only [Bool.false_eq_true, false_and, false_or]
    tauto
  · funext w'
    simp only [Manager.book, Manager.ports, Book.give, h.unitAt_withoutUnit]
    by_cases hw : w' = w
    · subst hw
      simp
    · simp only [if_neg hw, Function.update_of_ne hw]
      rfl

/-! ## Admissible requests keep the invariant -/

/-- `key` is neither a live work id nor the `.out_port` key of one. -/
def Manager.Unreserved (m : Manager) (key : Bytes) : Prop :=
  ∀ e ∈ m.key_sql.entries, e.2.unit?.isSome = true → key ≠ e.1 ∧ key ≠ out_port_key e.1

instance (m : Manager) (key : Bytes) : Decidable (m.Unreserved key) :=
  inferInstanceAs (Decidable (∀ e ∈ m.key_sql.entries, _))

theorem Manager.Unreserved.ne {key : Bytes} (h : m.Unreserved key) {w : Bytes} {u : UnitData}
    (hu : m.key_sql.unitAt w = some u) : key ≠ w ∧ key ≠ out_port_key w := by
  obtain ⟨v, hv, hvu⟩ := Option.bind_eq_some_iff.mp hu
  exact h ⟨w, v⟩ (AList.mem_lookup_iff.mp hv) (by rw [hvu]; rfl)

/-- A register needs a unit name without `%` and two free ports; the key-value requests
    leave live units' keys alone; a release may name anything. -/
def Admissible (m : Manager) : SysRequest → Prop
  | .register_unit unit _ => ch '%' ∉ unit ∧ 2 ≤ m.port_list.count false
  | .release_unit _ _ => True
  | .sql_select _ => True
  | .sql_set raw => m.Unreserved (sample_json_str_get raw (str "key"))
  | .sql_unset key => m.Unreserved key

instance (m : Manager) (r : SysRequest) : Decidable (Admissible m r) :=
  match r with
  | .register_unit unit _ =>
      inferInstanceAs (Decidable (ch '%' ∉ unit ∧ 2 ≤ m.port_list.count false))
  | .release_unit _ _ => inferInstanceAs (Decidable True)
  | .sql_select _ => inferInstanceAs (Decidable True)
  | .sql_set raw => inferInstanceAs (Decidable (m.Unreserved (sample_json_str_get raw (str "key"))))
  | .sql_unset key => inferInstanceAs (Decidable (m.Unreserved key))

/-- A change of the key store that touches no live unit's keys keeps the invariant. -/
theorem RegistryInv.of_key_sql (h : RegistryInv lo hi m) {key_sql' : KeySql}
    (hunit : ∀ w, KeySql.unitAt key_sql' w = m.key_sql.unitAt w)
    (hout : ∀ {w u}, m.key_sql.unitAt w = some u →
      key_sql'.lookup (out_port_key w) = m.key_sql.lookup (out_port_key w)) :
    RegistryInv lo hi { m with key_sql := key_sql' } where
  format := h.format
  start := h.start
  size := h.size
  counter := h.counter
  records hu := h.records (by rw [← hunit]; exact hu)
  out_port hu := by
    rw [hunit] at hu
    rw [hout hu]
    exact h.out_port hu
  consistent := by
    have hbook : ({ m with key_sql := key_sql' } : Manager).book = m.book := by
      refine Book.ext rfl ?_
      funext w
      simp only [Manager.book, Manager.ports, hunit]
      rfl
    rw [hbook]
    exact h.consistent

theorem RegistryInv.withUnit (hlo : IsInt32 lo) (hhi : IsInt32 hi) (h : RegistryInv lo hi m)
    (hroom : m.work_id_number_counter < 2147483647) {i j : Nat} {u : UnitData} {unit : Bytes}
    (hgi : m.port_list[i]? = some false) (hgj : m.port_list[j]? = some false) (hij : i ≠ j)
    (hnum : u.port_ = m.work_id_number_counter)
    (hw : u.work_id = sample_get_work_id m.work_id_number_counter unit)
    (hout : u.output_url
      = unit_url m.zmq_s_format unit (str ".output_url") (m.port_list_start + i))
    (hinf : u.inference_url
      = unit_url m.zmq_s_format unit (str ".inference_url") (m.port_list_start + j)) :
    RegistryInv lo hi (m.withUnit u i j) := by
  have hcnt := h.counter
  have hsize := h.size
  have hlt_i := (List.getElem?_eq_some_iff.mp hgi).1
  have hlt_j := (List.getElem?_eq_some_iff.mp hgj).1
  have hnext : wrap32 (m.work_id_number_counter + 1) = m.work_id_number_counter + 1 :=
    wrap32_of_isInt32 ⟨by omega, by omega⟩
  have hrec : UnitRecord lo hi (m.work_id_number_counter + 1) u.work_id u unit
      (m.port_list_start + i) (m.port_list_start + j) :=
    { key_eq := by rw [hnum]; exact hw
      work_id_eq := rfl
      number := by rw [hnum]; omega
      output_url := by rw [← h.format]; exact hout
      inference_url := by rw [← h.format]; exact hinf
      output_range := by rw [h.start]; omega
      inference_range := by rw [h.start]; omega }
  obtain ⟨hp, hq⟩ := hrec.ports_eq hlo hhi h.format
  -- nothing is stored under the new id yet, so no lease is overwritten
  have hfresh := h.unitAt_fresh unit
  rw [← hw] at hfresh
  refine ⟨h.format, h.start, by simpa [Manager.withUnit] using hsize, ?_, ?_, ?_, ?_⟩
  · simp only [Manager.withUnit, hnext]
    omega
  · intro w v hv
    simp only [Manager.withUnit, hnext]
    rw [h.unitAt_withUnit hw] at hv
    split at hv
    · obtain rfl := Option.some.inj hv
      rename_i hwu
      subst hwu
      exact ⟨unit, _, _, hrec⟩
    · obtain ⟨unit', p, q, hold⟩ := h.records hv
      -- older records stay below the counter
      exact ⟨unit', p, q, hold.mono (by omega)⟩
  · intro w v hv
    rw [h.unitAt_withUnit hw] at hv
    simp only [Manager.withUnit]
    split at hv
    · obtain rfl := Option.some.inj hv
      rename_i hwu
      subst hwu
      rw [AList.lookup_insert]
    · rename_i hwu
      have hne : out_port_key w ≠ u.work_id := by rw [hw]; exact out_port_key_ne_work_id _ _ _
      -- the entry of another unit is under another key, and a work id is no such key
      rw [AList.lookup_insert_ne fun he => hwu (out_port_key_injective he),
        AList.lookup_insert_ne hne]
      exact h.out_port hv
  · rw [h.book_withUnit hw hlt_i hlt_j hp hq]
    -- a free entry is not marked, so its port is nobody's
    have hnot : ∀ {k : Nat}, m.port_list[k]? = some false →
        m.port_list_start + (k : Int) ∉ m.book.taken := by
      rintro k hk ⟨k', hk', he⟩
      obtain rfl : k = k' := by omega
      rw [hk] at hk'
      simp at hk'
    refine h.consistent.take ?_ (hnot hgi) (hnot hgj) (by omega)
    simp [Manager.book, Manager.ports, hfresh]

theorem RegistryInv.withoutUnit (h : RegistryInv lo hi m) {w : Bytes} {i j : Nat}
    (hgi : i < m.port_list.length) (hgj : j < m.port_list.length)
    (hports : m.ports w = some (m.port_list_start + i, m.port_list_start + j)) :
    RegistryInv lo hi (m.withoutUnit w i j) := by
  -- what is registered afterwards was registered before, under another key
  have hlive : ∀ {w' u}, (m.withoutUnit w i j).key_sql.unitAt w' = some u →
      w' ≠ w ∧ m.key_sql.unitAt w' = some u := by
    intro w' u hu
    rw [h.unitAt_withoutUnit] at hu
    split at hu
    · simp at hu
    · rename_i hne
      exact ⟨hne, hu⟩
  refine ⟨h.format, h.start, ?_, h.counter, fun hu => h.records (hlive hu).2, ?_, ?_⟩
  · have := h.size
    simpa [Manager.withoutUnit] using this
  · intro w' u hu
    obtain ⟨hne, hu'⟩ := hlive hu
    have hkey : out_port_key w' ≠ w := by
      rintro rfl
      simp [Manager.ports, h.unitAt_out_port_key] at hports
    simp only [Manager.withoutUnit]
    rw [AList.lookup_erase_ne fun he => hne (out_port_key_injective he),
      AList.lookup_erase_ne hkey]
    exact h.out_port hu'
  · rw [h.book_withoutUnit hgi hgj hports]
    exact h.consistent.give w

/-- Setting or erasing an unreserved key changes no unit and no `.out_port` entry. -/
theorem RegistryInv.sql_set (h : RegistryInv lo hi m) {key : Bytes} (hkey : m.Unreserved key)
    (val : Bytes) : RegistryInv lo hi (sys_sql_set m key val) := by
  refine h.of_key_sql ?_ ?_
  · intro w
    rw [unitAt_insert]
    split
    · rename_i hw
      subst hw
      cases hu : m.key_sql.unitAt w with
      | none => rfl
      | some u => exact absurd rfl (hkey.ne hu).1
    · rfl
  · intro w u hu
    rw [AList.lookup_insert_ne (Ne.symm (hkey.ne hu).2)]

theorem RegistryInv.sql_unset (h : RegistryInv lo hi m) {key : Bytes}
    (hkey : m.Unreserved key) : RegistryInv lo hi (sys_sql_unset m key) := by
  refine h.of_key_sql ?_ ?_
  · intro w
    rw [unitAt_erase]
    split
    · rename_i hw
      subst hw
      cases hu : m.key_sql.unitAt w with
      | none => rfl
      | some u => exact absurd rfl (hkey.ne hu).1
    · rfl
  · intro w u hu
    rw [AList.lookup_erase_ne (Ne.symm (hkey.ne hu).2)]

/-- The request registers a unit. -/
def SysRequest.isRegister : SysRequest → Bool
  | .register_unit _ _ => true
  | _ => false

/-- Admissible, and the counter can still be incremented. -/
def AdmissibleRoom (m : Manager) (r : SysRequest) : Prop :=
  Admissible m r ∧ (r.isRegister = true → m.work_id_number_counter < 2147483647)

theorem serve_registryInv (hlo : IsInt32 lo) (hhi : IsInt32 hi) {m : Manager} {r : SysRequest}
    (h : RegistryInv lo hi m) (hr : AdmissibleRoom m r) : RegistryInv lo hi (serveState m r) := by
  obtain ⟨hadm, hroom⟩ := hr
  cases r with
  | register_unit unit indet =>
      obtain ⟨i, j, u, hgi, hgj, hij, hnum, hw, hout, hinf, heq⟩ :=
        sys_allocate_unit_eq indet unit hadm.2
      have hstate : serveState m (.register_unit unit indet) = m.withUnit u i j := by
        simp [serveState, serve, rpc_allocate_unit, heq]
      rw [hstate]
      exact h.withUnit hlo hhi (hroom rfl) hgi hgj hij hnum hw hout hinf
  | release_unit w uninit =>
      cases hu : m.key_sql.unitAt w with
      | none =>
          have hstate : serveState m (.release_unit w uninit) = m := by
            simp [serveState, serve, rpc_release_unit, sys_release_unit, hu]
          rw [hstate]
          exact h
      | some u =>
          obtain ⟨i, j, hports, hgi, hgj, -, heq⟩ := sys_release_unit_eq hlo hhi h hu uninit
          have hstate : serveState m (.release_unit w uninit) = m.withoutUnit w i j := by
            simp [serveState, serve, rpc_release_unit, heq]
          rw [hstate]
          exact h.withoutUnit hgi hgj hports
  | sql_select key => exact h
  | sql_set raw =>
      simp only [serveState, serve, rpc_sql_set]
      split
      · exact h
      · exact h.sql_set hadm _
  | sql_unset key => exact h.sql_unset hadm

/-- The entries of a live unit other than the one being released. -/
def OthersUnchanged (m : Manager) (r : SysRequest) : Prop :=
  ∀ w u, m.key_sql.unitAt w = some u → (∀ uninit, r ≠ .release_unit w uninit) →
    (serveState m r).key_sql.lookup w = m.key_sql.lookup w ∧
      (serveState m r).key_sql.lookup (out_port_key w) = m.key_sql.lookup (out_port_key w) ∧
      (serveState m r).ports w = m.ports w

theorem serve_othersUnchanged (hlo : IsInt32 lo) (hhi : IsInt32 hi) {m : Manager}
    {r : SysRequest} (h : RegistryInv lo hi m) (hr : AdmissibleRoom m r) :
    OthersUnchanged m r := by
  intro w u hu hne
  -- the record and its `.out_port` entry decide the ports
  suffices hkeys : (serveState m r).key_sql.lookup w = m.key_sql.lookup w ∧
      (serveState m r).key_sql.lookup (out_port_key w) = m.key_sql.lookup (out_port_key w) by
    refine ⟨hkeys.1, hkeys.2, ?_⟩
    have hf : (serveState m r).zmq_s_format = m.zmq_s_format := by
      rw [(serve_registryInv hlo hhi h hr).format, h.format]
    simp only [Manager.ports, KeySql.unitAt, hkeys.1, Manager.output_port,
      Manager.inference_port, hf]
  obtain ⟨unit, p, q, hrec⟩ := h.records hu
  have hw_out : ∀ w', out_port_key w' ≠ w := by
    intro w'
    rw [hrec.key_eq]
    exact out_port_key_ne_work_id _ _ _
  obtain ⟨hadm, -⟩ := hr
  cases r with
  | register_unit unit' indet =>
      obtain ⟨i, j, v, -, -, -, -, hv, -, -, heq⟩ := sys_allocate_unit_eq indet unit' hadm.2
      have hfresh : w ≠ v.work_id := by
        rintro rfl
        rw [hv, h.unitAt_fresh] at hu
        simp at hu
      have hkey : out_port_key w ≠ v.work_id := by
        rw [hv]
        exact out_port_key_ne_work_id _ _ _
      simp only [serveState, serve, rpc_allocate_unit, heq, Manager.withUnit]
      rw [AList.lookup_insert_ne (Ne.symm (hw_out _)), AList.lookup_insert_ne hfresh,
        AList.lookup_insert_ne fun he => hfresh (out_port_key_injective he),
        AList.lookup_insert_ne hkey]
      exact ⟨rfl, rfl⟩
  | release_unit w' uninit =>
      have hww : w ≠ w' := fun he => hne uninit (by rw [he])
      cases hu' : m.key_sql.unitAt w' with
      | none =>
          simp only [serveState, serve, rpc_release_unit, sys_release_unit, hu']
          exact ⟨trivial, trivial⟩
      | some u' =>
          have hkey : out_port_key w ≠ w' := by
            rintro rfl
            rw [h.unitAt_out_port_key] at hu'
            simp at hu'
          simp only [serveState, serve, rpc_release_unit, sys_release_unit, hu']
          rw [AList.lookup_erase_ne (Ne.symm (hw_out _)), AList.lookup_erase_ne hww,
            AList.lookup_erase_ne fun he => hww (out_port_key_injective he),
            AList.lookup_erase_ne hkey]
          exact ⟨rfl, rfl⟩
  | sql_select key => exact ⟨rfl, rfl⟩
  | sql_set raw =>
      obtain ⟨h1, h2⟩ := Manager.Unreserved.ne hadm hu
      simp only [serveState, serve, rpc_sql_set]
      split
      · exact ⟨rfl, rfl⟩
      · simp only [sys_sql_set]
        rw [AList.lookup_insert_ne (Ne.symm h1), AList.lookup_insert_ne (Ne.symm h2)]
        exact ⟨rfl, rfl⟩
  | sql_unset key =>
      obtain ⟨h1, h2⟩ := Manager.Unreserved.ne hadm hu
      simp only [serveState, serve, rpc_sql_unset, sys_sql_unset]
      rw [AList.lookup_erase_ne (Ne.symm h1), AList.lookup_erase_ne (Ne.symm h2)]
      exact ⟨rfl, rfl⟩

end Invariant

/-! ## Whole runs -/

/-- Number of register requests of a run. -/
def registers (reqs : List SysRequest) : Nat := reqs.countP SysRequest.isRegister

/-- Only a register moves the counter. -/
theorem serve_counter (m : Manager) (r : SysRequest) :
    (serveState m r).work_id_number_counter =
      if r.isRegister then wrap32 (m.work_id_number_counter + 1)
      else m.work_id_number_counter := by
  cases r with
  | register_unit unit indet => rfl
  | release_unit w uninit =>
      simp only [serveState, serve, rpc_release_unit, sys_release_unit, SysRequest.isRegister]
      split <;> rfl
  | sql_select key => rfl
  | sql_set raw =>
      simp only [serveState, serve, rpc_sql_set, SysRequest.isRegister]
      split <;> rfl
  | sql_unset key => rfl

/-- With fewer registers than the counter has values left, it never wraps. -/
theorem allSteps_room {m : Manager} {reqs : List SysRequest} (hc : 0 ≤ m.work_id_number_counter)
    (hroom : m.work_id_number_counter + registers reqs ≤ 2147483647)
    (hadm : Run.AllSteps serveState Admissible m reqs) :
    Run.AllSteps serveState AdmissibleRoom m reqs := by
  induction reqs generalizing m with
  | nil => trivial
  | cons r reqs ih =>
      have hstep := serve_counter m r
      cases hr : r.isRegister with
      | true =>
          simp only [registers, List.countP_cons, hr, if_true] at hroom hstep
          push_cast at hroom
          rw [wrap32_of_isInt32 ⟨by omega, by omega⟩] at hstep
          refine ⟨⟨hadm.1, fun _ => by omega⟩, ih (by omega) ?_ hadm.2⟩
          simp only [registers]
          omega
      | false =>
          simp only [registers, List.countP_cons, hr] at hroom hstep
          refine ⟨⟨hadm.1, fun he => absurd (hr.symm.trans he) (by decide)⟩,
            ih ?_ ?_ hadm.2⟩
          · rw [hstep]
            exact hc
          · rw [hstep]
            simpa [registers] using hroom

/-- A unit's record as a client sees it: two different ports of the range, both printed in
    its URLs. -/
structure PortRegistry (lo hi : Int) (m : Manager) : Prop where
  bitmap : ∀ i : Nat, i < m.port_list.length →
    (m.port_list[i]? = some true ↔ ∃! w, ∃ u, m.key_sql.unitAt w = some u ∧
      (m.output_port u = some (m.port_list_start + i) ∨
        m.inference_port u = some (m.port_list_start + i)))
  ports : ∀ w u, m.key_sql.unitAt w = some u →
    ∃ unit p q, m.output_port u = some p ∧ m.inference_port u = some q ∧ p ≠ q ∧
      lo ≤ p ∧ p < hi ∧ lo ≤ q ∧ q < hi ∧
      u.output_url = unit_url m.zmq_s_format unit (str ".output_url") p ∧
      u.inference_url = unit_url m.zmq_s_format unit (str ".inference_url") q
  distinct : ∀ w u w' u' p, m.key_sql.unitAt w = some u → m.key_sql.unitAt w' = some u' →
    (m.output_port u = some p ∨ m.inference_port u = some p) →
    (m.output_port u' = some p ∨ m.inference_port u' = some p) → w = w'
  release_index : ∀ w u uninit, m.key_sql.unitAt w = some u →
    (0 ≤ (release_indices m u uninit).1 ∧
      (release_indices m u uninit).1 < m.port_list.length) ∧
    (0 ≤ (release_indices m u uninit).2 ∧
      (release_indices m u uninit).2 < m.port_list.length)

theorem RegistryInv.portRegistry {lo hi : Int} (hlo : IsInt32 lo) (hhi : IsInt32 hi)
    {m : Manager} (h : RegistryInv lo hi m) : PortRegistry lo hi m := by
  -- holding a port in the book is having it printed in one of the two URLs
  have hholds : ∀ w p, m.book.Holds w p ↔ ∃ u, m.key_sql.unitAt w = some u ∧
      (m.output_port u = some p ∨ m.inference_port u = some p) := by
    intro w p
    simp only [Book.Holds, Manager.book, Manager.ports]
    cases hu : m.key_sql.unitAt w with
    | none => simp
    | some u =>
        obtain ⟨unit, p', q', hrec⟩ := h.records hu
        obtain ⟨hp, hq⟩ := hrec.ports_eq hlo hhi h.format
        simp [hp, hq, eq_comm]
  refine ⟨?_, ?_, ?_, ?_⟩
  · intro i hlt
    -- the book's statement, read through the two URLs
    have htaken := h.consistent.taken_iff_existsUnique (m.port_list_start + i)
    simp only [hholds] at htaken
    rw [← htaken, mem_taken]
    constructor
    · intro hi
      exact ⟨i, hi, rfl⟩
    · rintro ⟨k, hk, he⟩
      obtain rfl : i = k := by omega
      exact hk
  · intro w u hu
    obtain ⟨unit, p, q, hrec⟩ := h.records hu
    obtain ⟨hp, hq⟩ := hrec.ports_eq hlo hhi h.format
    have hheld : m.book.held w = some (p, q) := by
      simp [Manager.book, Manager.ports, hu, hp, hq]
    refine ⟨unit, p, q, hp, hq, h.consistent.pair_ne hheld, hrec.output_range.1,
      hrec.output_range.2, hrec.inference_range.1, hrec.inference_range.2, ?_, ?_⟩
    · rw [h.format]
      exact hrec.output_url
    · rw [h.format]
      exact hrec.inference_url
  · intro w u w' u' p hu hu' hp hp'
    exact h.consistent.holder_unique ((hholds w p).mpr ⟨u, hu, hp⟩)
      ((hholds w' p).mpr ⟨u', hu', hp'⟩)
  · intro w u uninit hu
    obtain ⟨i, j, -, hgi, hgj, hidx, -⟩ := sys_release_unit_eq hlo hhi h hu uninit
    rw [hidx]
    simp only
    omega

theorem unitAt_load_default_config (lo hi : Int) (w : Bytes) :
    (load_default_config lo hi).unitAt w = none := by
  by_contra hne
  obtain ⟨u, hu⟩ := Option.ne_none_iff_exists'.mp hne
  obtain ⟨v, hv, hvu⟩ := Option.bind_eq_some_iff.mp hu
  rw [load_default_config, AList.lookup_to_alist] at hv
  have hmem := List.of_mem_dlookup hv
  simp only [List.mem_cons, Sigma.mk.injEq, heq_eq_eq, List.not_mem_nil, or_false] at hmem
  -- the five entries are numbers and strings
  rcases hmem with h | h | h | h | h <;> simp [h.2, Any.unit?] at hvu

/-- The configuration has no `config_work_id`, so numbering starts at zero. -/
theorem counter_initial (lo hi : Int) : (Manager.initial lo hi).work_id_number_counter = 0 := rfl

/-- The start-up state: no unit, an empty bitmap over the whole range. -/
theorem registryInv_initial {lo hi : Int} (hle : lo ≤ hi) :
    RegistryInv lo hi (Manager.initial lo hi) := by
  have hunit : ∀ w, (Manager.initial lo hi).key_sql.unitAt w = none :=
    unitAt_load_default_config lo hi
  have hlen : (Manager.initial lo hi).port_list.length = (hi - lo).toNat :=
    List.length_replicate
  have hmark : ∀ i : Nat, (Manager.initial lo hi).port_list[i]? ≠ some true := by
    intro i hi
    have := List.eq_of_mem_replicate (List.mem_of_getElem? hi)
    simp at this
  refine ⟨rfl, rfl, by rw [hlen]; omega, Int.le_of_eq (counter_initial lo hi).symm, ?_, ?_, ?_⟩
  · intro w u hu
    simp [hunit] at hu
  · intro w u hu
    simp [hunit] at hu
  · have hheld : ∀ w p, ¬ (Manager.initial lo hi).book.Holds w p := by
      rintro w p ⟨pq, hpq, -⟩
      simp [Manager.book, Manager.ports, hunit] at hpq
    refine ⟨?_, fun hk => absurd hk (hheld _ _), ?_⟩
    · intro p
      constructor
      · rintro ⟨i, hi, -⟩
        exact absurd hi (hmark i)
      · rintro ⟨w, hw⟩
        exact absurd hw (hheld w p)
    · intro w i j hij
      simp [Manager.book, Manager.ports, hunit] at hij

/-- From the start-up state with the shipped format, after every run of admissible requests
    with fewer than 2^31 registers: the bitmap marks exactly the ports of live units, each
    held by one of them; the ports lie in the configured range and are pairwise distinct;
    every index release computes is inside the bitmap; and no step changed the record, the
    `.out_port` entry or the ports of a live unit it does not release. -/
theorem port_registry_run (lo hi : Int) (reqs : List SysRequest) (hlo : IsInt32 lo)
    (hhi : IsInt32 hi) (hle : lo ≤ hi) (hcount : registers reqs < 2 ^ 31)
    (hadm : Run.AllSteps serveState Admissible (Manager.initial lo hi) reqs) :
    PortRegistry lo hi (Run.exec serveState (Manager.initial lo hi) reqs) ∧
      Run.AllSteps serveState OthersUnchanged (Manager.initial lo hi) reqs := by
  have hinit := registryInv_initial hle
  have hroom : Run.AllSteps serveState AdmissibleRoom (Manager.initial lo hi) reqs := by
    refine allSteps_room (Int.le_of_eq (counter_initial lo hi).symm) ?_ hadm
    rw [counter_initial]
    omega
  refine ⟨RegistryInv.portRegistry hlo hhi ?_, ?_⟩
  · exact Run.exec_invariant (fun m r h hr => serve_registryInv hlo hhi h hr) hinit hroom
  · exact Run.AllSteps.of_invariant (fun m r h hr => serve_registryInv hlo hhi h hr)
      (fun m r h hr => serve_othersUnchanged hlo hhi h hr) hinit hroom

/-- Registers, a key-value write, a release, a double release and a release of an unknown
    name, with the shipped port range. -/
theorem port_registry_run_shipped :
    let reqs : List SysRequest :=
      [.register_unit (str "llm") ⟨0, 0⟩, .register_unit (str "llm") ⟨0, 0⟩,
       .sql_unset (str "llm.7"), .release_unit (str "llm.0") 0, .release_unit (str "llm.0") 0,
       .release_unit (str "config_zmq_min_port") 0, .register_unit (str "vlm") ⟨0, 0⟩]
    PortRegistry 5010 5555 (Run.exec serveState (Manager.initial 5010 5555) reqs) ∧
      Run.AllSteps serveState OthersUnchanged (Manager.initial 5010 5555) reqs :=
  port_registry_run 5010 5555 _ (by decide) (by decide) (by decide) (by decide)
    (by decide +kernel)

end DoubleTurnouts
