/-
  DoubleTurnouts.System.WorkIds

  Work ids: `unit + "." + number`, built by the manager when it allocates a
  unit, by the node when it sets one up and again when it releases one, read
  back by `sample_get_work_id_num` and `sample_get_work_id_name`, and used by
  the manager as keys of `key_sql`.

  Reading goes by the first dot and is right for unit names without one.  The
  position of that dot is kept in an `int`: the codec ends where the name no
  longer fits (`Sized`).  The keys go by the last dot, and are distinct for all
  names.
-/
import Mathlib.Tactic
import DoubleTurnouts.Lib.Run
import DoubleTurnouts.InfraController.StackFlow
import DoubleTurnouts.UnitManager.PortRegistry

namespace DoubleTurnouts

open Text Decimal

/-! ## The readers with their positions as they are in the source -/

namespace Sized

/-- `sample_get_work_id_num`. -/
def sample_get_work_id_num (work_id : Bytes) : Except Exn Int :=
  sample_get_work_id_numIn wrap32 work_id

/-- `sample_get_work_id_name`. -/
def sample_get_work_id_name (work_id : Bytes) : Bytes := sample_get_work_id_nameIn wrap32 work_id

/-- In a shorter work id every position, and the one behind it, is an int. -/
theorem dot_position_eq {work_id : Bytes} (h : work_id.length < 2 ^ 31 - 1) :
    dot_position wrap32 work_id = dot_position id work_id ∧
      wrap32 (dot_position id work_id + 1) = dot_position id work_id + 1 := by
  cases hi : find [ch '.'] work_id with
  | none =>
      simp only [dot_position, hi]
      decide
  | some i =>
      obtain ⟨hle, -⟩ := find_eq_some_iff.mp hi
      simp only [dot_position, hi, id_eq]
      exact ⟨wrap32_of_isInt32 ⟨by omega, by omega⟩, wrap32_of_isInt32 ⟨by omega, by omega⟩⟩

/-- There these are the readers of the other modules. -/
theorem sample_get_work_id_num_eq {work_id : Bytes} (h : work_id.length < 2 ^ 31 - 1) :
    sample_get_work_id_num work_id = DoubleTurnouts.sample_get_work_id_num work_id := by
  obtain ⟨hpos, hnext⟩ := dot_position_eq h
  simp only [sample_get_work_id_num, DoubleTurnouts.sample_get_work_id_num,
    sample_get_work_id_numIn, hpos, hnext, id_eq]

theorem sample_get_work_id_name_eq {work_id : Bytes} (h : work_id.length < 2 ^ 31 - 1) :
    sample_get_work_id_name work_id = DoubleTurnouts.sample_get_work_id_name work_id := by
  simp only [sample_get_work_id_name, DoubleTurnouts.sample_get_work_id_name,
    sample_get_work_id_nameIn, (dot_position_eq h).1]

end Sized

/-! ## Reading a work id back -/

/-- Both parts of the work id of number `n` and unit `u` come back from it. -/
def ReadBack (n : Int) (u : Bytes) : Prop :=
  Sized.sample_get_work_id_num (sample_get_work_id n u) = .ok n ∧
    Sized.sample_get_work_id_name (sample_get_work_id n u) = u

section ReadBack

variable {n : Int} {u : Bytes}

theorem readBack_of_lt (hn : IsInt32 n) (hu : ch '.' ∉ u) (h : u.length < 2 ^ 31 - 1) :
    ReadBack n u := by
  have hpos : dot_position wrap32 (sample_get_work_id n u) = u.length := by
    rw [dot_position_work_id wrap32 hu]
    exact wrap32_of_isInt32 ⟨by omega, by omega⟩
  have hnext : wrap32 ((u.length : Int) + 1) = u.length + 1 :=
    wrap32_of_isInt32 ⟨by omega, by omega⟩
  constructor
  · exact sample_get_work_id_numIn_work_id hn hpos hnext
  · simp only [Sized.sample_get_work_id_name, sample_get_work_id_nameIn, hpos,
      Int.toNat_natCast]
    rw [if_neg (by omega), if_neg (by omega), sample_get_work_id, List.take_left]

/-- A name of 2^31 bytes or more is never what is read: a position in an `int` is in front of
    its end. -/
theorem sized_name_ne (hu : ch '.' ∉ u) (h : 2 ^ 31 ≤ u.length) :
    Sized.sample_get_work_id_name (sample_get_work_id n u) ≠ u := by
  intro hname
  have hlen := length_work_id n u
  have hread := congrArg List.length hname
  have hrange := isInt32_wrap32 u.length
  unfold IsInt32 at hrange
  simp only [Sized.sample_get_work_id_name, sample_get_work_id_nameIn,
    dot_position_work_id wrap32 hu] at hread
  split_ifs at hread
  · omega
  · omega
  · rw [List.length_take] at hread
    omega

/-- The codec is right as long as the position behind the name is an `int`. -/
theorem readBack_iff (hn : IsInt32 n) (hu : ch '.' ∉ u) :
    ReadBack n u ↔ u.length < 2 ^ 31 - 1 := by
  constructor
  · rintro ⟨hnum, hname⟩
    by_contra hge
    by_cases hlast : u.length = 2 ^ 31 - 1
    · -- the dot still has a position, the text behind it has none
      have hdot : dot_position wrap32 (sample_get_work_id n u) = 2147483647 := by
        rw [dot_position_work_id wrap32 hu, hlast]
        decide
      have hnext : wrap32 ((2147483647 : Int) + 1) = -2147483648 := by decide
      have hlen := length_work_id n u
      have hne : (to_string n).length ≠ 0 := by simpa using to_string_ne_nil n
      simp only [Sized.sample_get_work_id_num, sample_get_work_id_numIn, hdot, hnext] at hnum
      rw [if_neg (by omega), if_pos (Or.inl (by decide))] at hnum
      cases hnum
    · exact sized_name_ne hu (by omega) hname
  · exact readBack_of_lt hn hu

end ReadBack

/-! ## The keys of a unit -/

namespace Manager

/-- A unit has its two entries: the record under its work id, the URL under `.out_port`. -/
def Occupies (m : Manager) (w : Bytes) (unit_p : UnitData) : Prop :=
  m.key_sql.lookup w = some (.unit unit_p) ∧
    m.key_sql.lookup (out_port_key w) = some (.string unit_p.output_url)

instance (m : Manager) (w : Bytes) (unit_p : UnitData) : Decidable (m.Occupies w unit_p) :=
  inferInstanceAs (Decidable (_ ∧ _))

/-- The request is about another unit than number `n` of `u`: it registers one with another name
    or number, releases another work id, or sets or removes another key. -/
def Spares (n : Int) (u : Bytes) (m : Manager) : SysRequest → Prop
  | .register_unit unit _ => unit ≠ u ∨ m.work_id_number_counter ≠ n
  | .release_unit w _ => w ≠ sample_get_work_id n u
  | .sql_select _ => True
  | .sql_set raw =>
      sample_json_str_get raw (str "key") ≠ sample_get_work_id n u ∧
        sample_json_str_get raw (str "key") ≠ out_port_key (sample_get_work_id n u)
  | .sql_unset key =>
      key ≠ sample_get_work_id n u ∧ key ≠ out_port_key (sample_get_work_id n u)

instance (n : Int) (u : Bytes) (m : Manager) (r : SysRequest) : Decidable (Spares n u m r) := by
  cases r <;> unfold Spares <;> infer_instance

variable {m : Manager} {n : Int} {u : Bytes} {unit_p : UnitData}

/-- What a registration writes. -/
theorem key_sql_sys_allocate_unit (indet : Indet) (m : Manager) (unit : Bytes) :
    (sys_allocate_unit indet m unit).2.key_sql =
      (m.key_sql.insert (sample_get_work_id m.work_id_number_counter unit)
        (.unit (sys_allocate_unit indet m unit).1)).insert
          (out_port_key (sample_get_work_id m.work_id_number_counter unit))
          (.string (sys_allocate_unit indet m unit).1.output_url) := rfl

/-- A registration gives the new unit its entries. -/
theorem occupies_sys_allocate_unit (indet : Indet) (m : Manager) (unit : Bytes) :
    (sys_allocate_unit indet m unit).2.Occupies
      (sample_get_work_id m.work_id_number_counter unit) (sys_allocate_unit indet m unit).1 := by
  have hkey : sample_get_work_id m.work_id_number_counter unit
      ≠ out_port_key (sample_get_work_id m.work_id_number_counter unit) :=
    (out_port_key_ne_work_id _ _ _).symm
  rw [Occupies, key_sql_sys_allocate_unit]
  refine ⟨?_, AList.lookup_insert _⟩
  rw [AList.lookup_insert_ne hkey]
  exact AList.lookup_insert _

/-- A request about another unit leaves them alone. -/
theorem Occupies.serveState (h : m.Occupies (sample_get_work_id n u) unit_p) {r : SysRequest}
    (hr : Spares n u m r) :
    (serveState m r).Occupies (sample_get_work_id n u) unit_p := by
  obtain ⟨hunit, hurl⟩ := h
  have hout : ∀ w, sample_get_work_id n u ≠ out_port_key w :=
    fun w => (out_port_key_ne_work_id w n u).symm
  cases r with
  | register_unit unit indet =>
      -- the new keys end in another number, or follow another name
      have hne : sample_get_work_id n u ≠ sample_get_work_id m.work_id_number_counter unit := by
        intro heq
        obtain ⟨hname, hnumber⟩ := sample_get_work_id_inj heq
        rcases hr with hr | hr
        · exact hr hname.symm
        · exact hr hnumber.symm
      simp only [DoubleTurnouts.serveState, serve, rpc_allocate_unit, Occupies,
        key_sql_sys_allocate_unit]
      constructor
      · rw [AList.lookup_insert_ne (hout _), AList.lookup_insert_ne hne, hunit]
      · rw [AList.lookup_insert_ne fun he => hne (out_port_key_injective he),
          AList.lookup_insert_ne (out_port_key_ne_work_id _ _ _), hurl]
  | release_unit w uninit =>
      cases hw : m.key_sql.unitAt w with
      | none =>
          simp only [DoubleTurnouts.serveState, serve, rpc_release_unit, sys_release_unit, hw]
          exact ⟨hunit, hurl⟩
      | some unit_q =>
          -- an entry that holds a URL is no unit to release
          have hkey : out_port_key (sample_get_work_id n u) ≠ w := by
            rintro rfl
            rw [KeySql.unitAt, hurl] at hw
            cases hw
          have hne : sample_get_work_id n u ≠ w := fun he => hr he.symm
          simp only [DoubleTurnouts.serveState, serve, rpc_release_unit, sys_release_unit, hw,
            Occupies]
          constructor
          · rw [AList.lookup_erase_ne (hout _), AList.lookup_erase_ne hne, hunit]
          · rw [AList.lookup_erase_ne fun he => hne (out_port_key_injective he),
              AList.lookup_erase_ne hkey, hurl]
  | sql_select key => exact ⟨hunit, hurl⟩
  | sql_set raw =>
      simp only [DoubleTurnouts.serveState, serve, rpc_sql_set]
      split
      · exact ⟨hunit, hurl⟩
      · simp only [sys_sql_set, Occupies]
        rw [AList.lookup_insert_ne hr.1.symm, AList.lookup_insert_ne hr.2.symm]
        exact ⟨hunit, hurl⟩
  | sql_unset key =>
      simp only [DoubleTurnouts.serveState, serve, rpc_sql_unset, sys_sql_unset, Occupies]
      rw [AList.lookup_erase_ne hr.1.symm, AList.lookup_erase_ne hr.2.symm]
      exact ⟨hunit, hurl⟩

/-- So does every run of such requests. -/
theorem Occupies.exec (h : m.Occupies (sample_get_work_id n u) unit_p) {reqs : List SysRequest}
    (hreqs : Run.AllSteps DoubleTurnouts.serveState (Spares n u) m reqs) :
    (Run.exec DoubleTurnouts.serveState m reqs).Occupies (sample_get_work_id n u) unit_p :=
  Run.exec_invariant (I := fun m => m.Occupies (sample_get_work_id n u) unit_p)
    (fun _ _ hm hr => hm.serveState hr) h hreqs

end Manager

/-- A setup hands the unit the work id of its number, whatever unit it is. -/
theorem StackFlow.setup_bind_run {τ : Type} {reply : Bytes} {n : Int} {urls : Bytes × Bytes}
    (hreply : decode_register reply = .ok (n, urls)) (zmq_url raw : Bytes) (s : StackFlow τ) :
    ∃ s' k, ∀ vt : Handlers τ, (setup vt reply zmq_url raw).run s =
      (vt.setup (sample_get_work_id n s.unit_name_) (sample_json_str_get raw (str "object"))
        (sample_json_str_get raw (str "data")) >>= k).run s' := by
  refine ⟨s.opened n urls.1 urls.2 zmq_url raw,
    fun ret => if ret ≠ 0 then sys_release_unit n (sample_get_work_id n s.unit_name_)
      else pure (), ?_⟩
  intro vt
  rw [setup_opened_run vt hreply, EStateM.run_bind]
  dsimp only
  -- what the unit answers decides about the release
  generalize EStateM.run (vt.setup _ _ _) _ = result
  cases result with
  | error e s' => rfl
  | ok ret s' => by_cases hret : ret = 0 <;> simp [hret]

/-- The work id codec and the keys of `key_sql`.  A number and a unit name without a dot are read
    back from their work id exactly if the name is shorter than 2^31 - 1 bytes; the readers of
    such work ids are those that the node's model uses.  For all names and
    numbers the work id determines both; the manager, a setup and a release without a work id build
    the same one, and it is no `.out_port` key; and a unit that has been registered keeps its two
    entries through every run of requests about other units. -/
theorem work_id_codec_iff {τ : Type} :
    (∀ n u, IsInt32 n → ch '.' ∉ u → (ReadBack n u ↔ u.length < 2 ^ 31 - 1)) ∧
      (∀ n n' u u', sample_get_work_id n u = sample_get_work_id n' u' → u = u' ∧ n = n') ∧
      (∀ indet m u, (sys_allocate_unit indet m u).1.work_id
        = sample_get_work_id (sys_allocate_unit indet m u).1.port_ u) ∧
      (∀ (s : StackFlow τ) (reply zmq_url raw : Bytes) n urls,
        StackFlow.decode_register reply = .ok (n, urls) →
        ∃ s' k, ∀ vt, (StackFlow.setup vt reply zmq_url raw).run s =
          (vt.setup (sample_get_work_id n s.unit_name_) (sample_json_str_get raw (str "object"))
            (sample_json_str_get raw (str "data")) >>= k).run s') ∧
      (∀ (s : StackFlow τ) n, (StackFlow.sys_release_unit n []).run s
        = .ok () (s.released n (sample_get_work_id n s.unit_name_))) ∧
      (∀ n n' u u', sample_get_work_id n u ≠ out_port_key (sample_get_work_id n' u')) ∧
      (∀ indet m u reqs,
        let unit_p := (sys_allocate_unit indet m u).1
        let w := sample_get_work_id unit_p.port_ u
        Run.AllSteps serveState (Manager.Spares unit_p.port_ u)
          (sys_allocate_unit indet m u).2 reqs →
        (Run.exec serveState (sys_allocate_unit indet m u).2 reqs).Occupies w unit_p) ∧
      ∀ work_id : Bytes, work_id.length < 2 ^ 31 - 1 →
        Sized.sample_get_work_id_num work_id = sample_get_work_id_num work_id ∧
          Sized.sample_get_work_id_name work_id = sample_get_work_id_name work_id := by
  refine ⟨fun n u hn hu => readBack_iff hn hu, fun n n' u u' h => sample_get_work_id_inj h,
    fun indet m u => rfl, ?_, ?_, fun n n' u u' => (out_port_key_ne_work_id _ n u).symm, ?_,
    fun work_id h => ⟨Sized.sample_get_work_id_num_eq h, Sized.sample_get_work_id_name_eq h⟩⟩
  · intro s reply zmq_url raw n urls hreply
    exact StackFlow.setup_bind_run hreply zmq_url raw s
  · intro s n
    simp [StackFlow.sys_release_unit, StackFlow.released]
  · intro indet m u reqs unit_p w hreqs
    exact (Manager.occupies_sys_allocate_unit indet m u).exec hreqs

/-- A unit of the shipped manager, while another is registered and released. -/
def otherUnits : List SysRequest :=
  [.register_unit (str "llm") ⟨0, 0⟩, .register_unit (str "a.b") ⟨0, 0⟩,
   .release_unit (str "llm.1") 0, .sql_set (str "\x7b\"key\":\"llm\",\"val\":\"1\"\x7d")]

theorem work_id_codec_iff_llm :
    ReadBack (-7) (str "llm") ∧
      (Run.exec serveState (sys_allocate_unit ⟨0, 0⟩ (.initial 5000 5010) (str "llm")).2
        otherUnits).Occupies (str "llm.0")
          (sys_allocate_unit ⟨0, 0⟩ (.initial 5000 5010) (str "llm")).1 := by
  obtain ⟨hcodec, -, -, -, -, -, hruns, -⟩ := work_id_codec_iff (τ := Unit)
  refine ⟨(hcodec (-7) (str "llm") (by decide) (by decide)).mpr (by decide), ?_⟩
  exact hruns ⟨0, 0⟩ (.initial 5000 5010) (str "llm") otherUnits (by decide +kernel)

/-- A unit name of 2^31 bytes is not read back: the position of the dot is cast to an `int`. -/
theorem huge_unit_name_misread :
    IsInt32 0 ∧ ch '.' ∉ List.replicate (2 ^ 31) (ch 'a') ∧
      ¬ ReadBack 0 (List.replicate (2 ^ 31) (ch 'a')) := by
  have hdot : ch '.' ∉ List.replicate (2 ^ 31) (ch 'a') := by
    intro hmem
    exact absurd (List.eq_of_mem_replicate hmem) (by decide)
  refine ⟨by decide, hdot, ?_⟩
  rw [readBack_iff (by decide) hdot, List.length_replicate]
  omega

end DoubleTurnouts
