/-
  DoubleTurnouts.Network.Accepting

  `Acceptor::handleRead` at the limit of open descriptors.  The acceptor keeps
  a spare descriptor; when `accept` fails with `EMFILE` it closes the spare,
  accepts into the room it has made, closes that socket too and opens the
  spare again.

  The four calls are steps of their own, and other threads of the process open
  and close descriptors in between.  Whatever they do, every client is handed
  over or turned away once, in the order of arrival, and the acceptor closes
  nothing that is not its own (`Inv`).  A thread that takes the room may cost
  it the spare; then it takes nobody while the table is full.
-/
import Mathlib.Tactic
import DoubleTurnouts.Lib.FdTable
import DoubleTurnouts.Lib.Run

namespace DoubleTurnouts

/-- Whose a descriptor is: the acceptor's spare or a socket it is about to close, a connection's, or
    any other. -/
inductive FdOwner
  | acceptor
  | connection (client : Nat)
  | other
  deriving DecidableEq, Repr

/-- Where the acceptor is: in its constructor, failed there, waiting for the poller, or in
    `handleRead` before the call that the name tells. -/
inductive AcceptPoint
  | constructor
  | aborted
  | poll
  | closeIdle
  | accept
  | closeAccepted
  | openIdle
  deriving DecidableEq, Repr

/-- An acceptor in its process.  `backlog` are the clients that wait, `taken` those that do not wait
    any more, with the descriptor handed over, or `none` if they were turned away.  `strays` are the
    descriptors the acceptor closed that were not its own. -/
structure Accepting where
  fds : FdTable FdOwner
  idleFd_ : Option Nat
  newConnectionCallback_ : Bool
  point : AcceptPoint
  arrived : Nat
  backlog : List Nat
  taken : List (Nat × Option Nat)
  strays : List Nat

/-- A client connects; the acceptor takes its next step, `failed` telling that an `accept` fails for
    another reason than `EMFILE` or `EAGAIN`; another thread opens or closes a descriptor. -/
inductive AcceptEvent
  | connect
  | acceptor (failed : Bool)
  | open
  | close (fd : Nat)
  deriving DecidableEq, Repr

namespace Accepting

/-- A process with no descriptors, before the constructor has opened the spare. -/
def new (limit : Nat) (newConnectionCallback_ : Bool) : Accepting where
  fds := ⟨limit, fun _ => none⟩
  idleFd_ := none
  newConnectionCallback_ := newConnectionCallback_
  point := .constructor
  arrived := 0
  backlog := []
  taken := []
  strays := []

/-- `::close(idleFd_)`; of `-1` it does nothing. -/
def closeIdle (s : Accepting) : Accepting :=
  match s.idleFd_ with
  | none => s
  | some fd =>
      { s with
        fds := s.fds.close fd
        strays := if s.fds.owner fd = some .acceptor then s.strays else s.strays ++ [fd] }

/-- `idleFd_ = ::open("/dev/null", O_RDONLY | O_CLOEXEC)`. -/
def openIdle (s : Accepting) : Accepting :=
  match s.fds.lowest with
  | none => { s with idleFd_ := none }
  | some fd => { s with idleFd_ := some fd, fds := s.fds.give fd .acceptor }

/-- `idleFd_ = ::accept(acceptSocket_.fd(), NULL, NULL)`.  The descriptor is reserved before a
    client is looked for. -/
def acceptIdle (s : Accepting) (failed : Bool) : Accepting :=
  match s.fds.lowest, s.backlog with
  | some fd, client :: rest =>
      if failed then { s with idleFd_ := none }
      else
        { s with
          idleFd_ := some fd
          fds := s.fds.give fd .acceptor
          backlog := rest
          taken := s.taken ++ [(client, none)] }
  | _, _ => { s with idleFd_ := none }

/-- `handleRead` up to the test of `errno`. -/
def handleRead (s : Accepting) (failed : Bool) : Accepting :=
  match s.fds.lowest, s.backlog with
  | none, _ => { s with point := .closeIdle }
  | some _, [] => s
  | some fd, client :: rest =>
      if failed then s
      else if s.newConnectionCallback_ then
        { s with
          fds := s.fds.give fd (.connection client)
          backlog := rest
          taken := s.taken ++ [(client, some fd)] }
      -- nobody takes the connection, so it is closed
      else { s with backlog := rest, taken := s.taken ++ [(client, none)] }

/-- The acceptor's next step. -/
def acceptor (s : Accepting) (failed : Bool) : Accepting :=
  match s.point with
  | .constructor =>
      let s := s.openIdle
      -- `assert(idleFd_ >= 0)`
      { s with point := if s.idleFd_ = none then .aborted else .poll }
  | .aborted => s
  | .poll => s.handleRead failed
  | .closeIdle => { s.closeIdle with point := .accept }
  | .accept => { s.acceptIdle failed with point := .closeAccepted }
  | .closeAccepted => { s.closeIdle with point := .openIdle }
  | .openIdle => { s.openIdle with point := .poll }

def step (s : Accepting) : AcceptEvent → Accepting
  | .connect =>
      if s.point = .constructor ∨ s.point = .aborted then s
      else { s with arrived := s.arrived + 1, backlog := s.backlog ++ [s.arrived] }
  | .acceptor failed => s.acceptor failed
  | .open =>
      match s.fds.lowest with
      | none => s
      | some fd => { s with fds := s.fds.give fd .other }
  | .close fd =>
      -- the others close what is theirs
      match s.fds.owner fd with
      | none | some .acceptor => s
      | some _ => { s with fds := s.fds.close fd }

/-- The others open descriptors only while the acceptor is not in `handleRead`. -/
def Undisturbed (s : Accepting) : AcceptEvent → Prop
  | .open => s.point = .constructor ∨ s.point = .aborted ∨ s.point = .poll
  | _ => True

instance (s : Accepting) (e : AcceptEvent) : Decidable (s.Undisturbed e) := by
  cases e <;> unfold Undisturbed <;> infer_instance

/-! ## The invariant -/

/-- What the acceptor has at hand: its spare, or the socket it is about to close. -/
def held (s : Accepting) : Option Nat :=
  match s.point with
  | .poll | .closeIdle | .closeAccepted => s.idleFd_
  | _ => none

/-- The table as far as the acceptor and the connections go: of the acceptor's there is `held`
    alone. -/
structure Kept (fds : FdTable FdOwner) (held : Option Nat) (taken : List (Nat × Option Nat)) :
    Prop where
  bounded : fds.Bounded
  own : ∀ fd, fds.owner fd = some .acceptor ↔ held = some fd
  handed : ∀ fd k, fds.owner fd = some (.connection k) → (k, some fd) ∈ taken

structure Inv (s : Accepting) : Prop where
  kept : Kept s.fds s.held s.taken
  strays : s.strays = []
  order : s.taken.map Prod.fst ++ s.backlog = List.range s.arrived

theorem new_inv (limit : Nat) (cb : Bool) : (new limit cb).Inv where
  kept := ⟨fun fd h => absurd rfl h, by simp [new, held], by simp [new]⟩
  strays := rfl
  order := rfl

/-! ### The table -/

variable {fds : FdTable FdOwner} {held : Option Nat} {taken : List (Nat × Option Nat)} {fd : Nat}

/-- The acceptor, which has nothing at hand, gets a descriptor. -/
theorem Kept.give_acceptor (h : Kept fds none taken) (hfd : fds.lowest = some fd) :
    Kept (fds.give fd .acceptor) (some fd) taken := by
  obtain ⟨-, hlt⟩ := FdTable.lowest_some hfd
  refine ⟨h.bounded.give _ hlt, fun g => ?_, fun g k hg => ?_⟩
  · by_cases hgf : g = fd
    · simp [hgf]
    · rw [FdTable.give_ne _ hgf, h.own g]
      simp [Ne.symm hgf]
  · by_cases hgf : g = fd
    · simp [hgf] at hg
    · rw [FdTable.give_ne _ hgf] at hg
      exact h.handed g k hg

/-- Another thread gets one, or a connection for a client that is taken. -/
theorem Kept.give (h : Kept fds held taken) (hfd : fds.lowest = some fd) {a : FdOwner}
    (ha : a ≠ .acceptor) {taken' : List (Nat × Option Nat)} (htaken : taken ⊆ taken')
    (hk : ∀ k, a = .connection k → (k, some fd) ∈ taken') : Kept (fds.give fd a) held taken' := by
  obtain ⟨hfree, hlt⟩ := FdTable.lowest_some hfd
  refine ⟨h.bounded.give _ hlt, fun g => ?_, fun g k hg => ?_⟩
  · by_cases hgf : g = fd
    · rw [hgf, FdTable.give_self, ← h.own fd, hfree]
      simp [ha]
    · rw [FdTable.give_ne _ hgf, h.own g]
  · by_cases hgf : g = fd
    · rw [hgf, FdTable.give_self, Option.some.injEq] at hg
      exact hgf ▸ hk k hg
    · rw [FdTable.give_ne _ hgf] at hg
      exact htaken (h.handed g k hg)

/-- The acceptor closes what it has. -/
theorem Kept.close_own (h : Kept fds (some fd) taken) : Kept (fds.close fd) none taken := by
  refine ⟨h.bounded.close fd, fun g => ?_, fun g k hg => ?_⟩
  · by_cases hgf : g = fd
    · simp [hgf]
    · rw [FdTable.close_ne hgf, h.own g]
      simp [Ne.symm hgf]
  · by_cases hgf : g = fd
    · simp [hgf] at hg
    · rw [FdTable.close_ne hgf] at hg
      exact h.handed g k hg

/-- Another thread closes what is not the acceptor's. -/
theorem Kept.close (h : Kept fds held taken) (hfd : held ≠ some fd) :
    Kept (fds.close fd) held taken := by
  refine ⟨h.bounded.close fd, fun g => ?_, fun g k hg => ?_⟩
  · by_cases hgf : g = fd
    · simp [hgf, hfd]
    · rw [FdTable.close_ne hgf, h.own g]
  · by_cases hgf : g = fd
    · simp [hgf] at hg
    · rw [FdTable.close_ne hgf] at hg
      exact h.handed g k hg

theorem Kept.more (h : Kept fds held taken) {taken' : List (Nat × Option Nat)}
    (htaken : taken ⊆ taken') : Kept fds held taken' :=
  ⟨h.bounded, h.own, fun fd k hg => htaken (h.handed fd k hg)⟩

/-! ### The acceptor -/

variable {s : Accepting}

/-- The clients in their order, when the first of the backlog is taken. -/
theorem order_cons (h : s.taken.map Prod.fst ++ s.backlog = List.range s.arrived) {client : Nat}
    {rest : List Nat} (hbacklog : s.backlog = client :: rest) (fd : Option Nat) :
    (s.taken ++ [(client, fd)]).map Prod.fst ++ rest = List.range s.arrived := by
  rw [← h, hbacklog]
  simp

/-- The spare is closed before a call with which the acceptor has nothing at hand. -/
theorem closeIdle_inv (h : s.Inv) (hheld : s.held = s.idleFd_) {p : AcceptPoint}
    (hp : p = .accept ∨ p = .openIdle) : ({ s.closeIdle with point := p } : Accepting).Inv := by
  have hkept := h.kept
  rw [hheld] at hkept
  have hnone : ({ s.closeIdle with point := p } : Accepting).held = none := by
    rcases hp with rfl | rfl <;> rfl
  unfold closeIdle at hnone ⊢
  split
  · rename_i hidle
    rw [hidle] at hkept
    exact ⟨by rcases hp with rfl | rfl <;> exact hkept, h.strays, h.order⟩
  · rename_i fd hidle
    rw [hidle] at hkept
    refine ⟨by rcases hp with rfl | rfl <;> exact hkept.close_own, ?_, h.order⟩
    exact (if_pos ((hkept.own fd).mpr rfl)).trans h.strays

/-- The spare is opened, or is not there. -/
theorem openIdle_inv (h : s.Inv) (hheld : s.held = none) :
    ({ s.openIdle with point := .poll } : Accepting).Inv ∧
      (s.openIdle.idleFd_ = none → ({ s.openIdle with point := .aborted } : Accepting).Inv) := by
  have hkept := h.kept
  rw [hheld] at hkept
  unfold openIdle
  split
  · exact ⟨⟨hkept, h.strays, h.order⟩, fun _ => ⟨hkept, h.strays, h.order⟩⟩
  · rename_i fd hfd
    exact ⟨⟨hkept.give_acceptor hfd, h.strays, h.order⟩, fun hidle => by cases hidle⟩

theorem acceptIdle_inv (h : s.Inv) (hpoint : s.point = .accept) (failed : Bool) :
    ({ s.acceptIdle failed with point := .closeAccepted } : Accepting).Inv := by
  have hkept := h.kept
  simp only [Accepting.held, hpoint] at hkept
  unfold acceptIdle
  split
  · rename_i fd client rest hfd hbacklog
    split
    · exact ⟨hkept, h.strays, h.order⟩
    · exact ⟨(hkept.give_acceptor hfd).more (List.subset_append_left _ _), h.strays,
        order_cons h.order hbacklog none⟩
  · exact ⟨hkept, h.strays, h.order⟩

theorem handleRead_inv (h : s.Inv) (hpoint : s.point = .poll) (failed : Bool) :
    (s.handleRead failed).Inv := by
  have hkept := h.kept
  simp only [Accepting.held, hpoint] at hkept
  unfold handleRead
  split
  · exact ⟨hkept, h.strays, h.order⟩
  · exact h
  · rename_i fd client rest hfd hbacklog
    split
    · exact h
    · split
      · refine ⟨?_, h.strays, order_cons h.order hbacklog _⟩
        simp only [Accepting.held, hpoint]
        refine hkept.give hfd (by simp) (List.subset_append_left _ _) fun k hk => ?_
        cases hk
        simp
      · refine ⟨?_, h.strays, order_cons h.order hbacklog _⟩
        simp only [Accepting.held, hpoint]
        exact hkept.more (List.subset_append_left _ _)

/-- One step of the acceptor. -/
theorem acceptor_inv (h : s.Inv) (failed : Bool) : (s.acceptor failed).Inv := by
  unfold acceptor
  split
  · rename_i hpoint
    obtain ⟨hpoll, haborted⟩ := openIdle_inv h (by simp [Accepting.held, hpoint])
    dsimp only
    split
    · rename_i hidle
      exact haborted hidle
    · exact hpoll
  · exact h
  · rename_i hpoint
    exact handleRead_inv h hpoint failed
  · rename_i hpoint
    exact closeIdle_inv h (by simp [Accepting.held, hpoint]) (.inl rfl)
  · rename_i hpoint
    exact acceptIdle_inv h hpoint failed
  · rename_i hpoint
    exact closeIdle_inv h (by simp [Accepting.held, hpoint]) (.inr rfl)
  · rename_i hpoint
    exact (openIdle_inv h (by simp [Accepting.held, hpoint])).1

theorem step_inv (h : s.Inv) (e : AcceptEvent) : (s.step e).Inv := by
  cases e with
  | connect =>
      simp only [step]
      split
      · exact h
      · refine ⟨h.kept, h.strays, ?_⟩
        rw [List.range_succ, ← h.order, List.append_assoc]
  | acceptor failed => exact acceptor_inv h failed
  | «open» =>
      simp only [step]
      split
      · exact h
      · rename_i fd hfd
        exact ⟨h.kept.give hfd (by simp) (List.Subset.refl _) (by simp), h.strays, h.order⟩
  | close fd =>
      simp only [step]
      split
      · exact h
      · exact h
      · rename_i a hne hfd
        refine ⟨h.kept.close fun hheld => ?_, h.strays, h.order⟩
        exact hne (Option.some.inj (hfd.symm.trans ((h.kept.own fd).mpr hheld)))

theorem exec_inv (limit : Nat) (cb : Bool) (es : List AcceptEvent) :
    (Run.exec step (new limit cb) es).Inv :=
  Run.exec_of_forall (I := Inv) (fun _ e h => step_inv h e) (new_inv limit cb) es

/-! ## Reads without the others -/

/-- With a free descriptor `handleRead` hands the next client over. -/
theorem read_of_free (hpoint : s.point = .poll) {fd client : Nat} {rest : List Nat}
    (hfd : s.fds.lowest = some fd) (hbacklog : s.backlog = client :: rest) :
    let t := s.step (.acceptor false)
    t.point = .poll ∧ t.idleFd_ = s.idleFd_ ∧
      t.taken = s.taken ++ [(client, if s.newConnectionCallback_ then some fd else none)] := by
  cases hcb : s.newConnectionCallback_ <;>
    simp [step, acceptor, hpoint, handleRead, hfd, hbacklog, hcb]

/-- With a full table it turns the next client away, and has its spare again. -/
theorem read_of_spare (h : s.Inv) (hpoint : s.point = .poll) {spare client : Nat}
    {rest : List Nat} (hfull : s.fds.lowest = none) (hidle : s.idleFd_ = some spare)
    (hbacklog : s.backlog = client :: rest) :
    let t := Run.exec step s (List.replicate 5 (.acceptor false))
    t.point = .poll ∧ t.idleFd_ ≠ none ∧ t.taken = s.taken ++ [(client, none)] := by
  have hkept := h.kept
  simp only [Accepting.held, hpoint, hidle] at hkept
  have hspare : spare < s.fds.limit :=
    hkept.bounded spare (by rw [(hkept.own spare).mpr rfl]; simp)
  -- closing the spare makes room for the client, and closing the client's for the spare
  obtain ⟨fd, hfd⟩ := Option.ne_none_iff_exists'.mp (FdTable.lowest_close hspare)
  have hfd' : fd < s.fds.limit := (FdTable.lowest_some hfd).2
  obtain ⟨again, hagain⟩ := Option.ne_none_iff_exists'.mp
    (FdTable.lowest_close (t := (s.fds.close spare).give fd .acceptor) hfd')
  simp [step, acceptor, hpoint, handleRead, hfull, closeIdle, hidle, acceptIdle, hfd, hbacklog,
    openIdle, hagain]

/-- Without the spare it takes nobody. -/
theorem reads_of_none (hfull : s.fds.lowest = none) (hidle : s.idleFd_ = none)
    (hpoint : s.point ≠ .constructor) (n : Nat) :
    (Run.exec step s (List.replicate n (.acceptor false))).taken = s.taken := by
  induction n generalizing s with
  | zero => rfl
  | succ n ih =>
      rw [List.replicate_succ, Run.exec_cons]
      have hstep : (s.step (.acceptor false)).fds = s.fds ∧
          (s.step (.acceptor false)).idleFd_ = none ∧
          (s.step (.acceptor false)).point ≠ .constructor ∧
          (s.step (.acceptor false)).taken = s.taken := by
        cases hp : s.point <;>
          simp_all [step, acceptor, handleRead, closeIdle, acceptIdle, openIdle]
      obtain ⟨hfds, hidle', hpoint', htaken⟩ := hstep
      rw [ih (hfds ▸ hfull) hidle' hpoint', htaken]

/-! ## The spare -/

/-- There is a spare, or room for it. -/
def Spare (s : Accepting) : Prop :=
  match s.point with
  | .constructor | .aborted => True
  | .poll | .closeIdle => s.idleFd_ ≠ none
  | .accept | .openIdle => s.fds.lowest ≠ none
  | .closeAccepted => s.fds.lowest ≠ none ∨ s.idleFd_ ≠ none

/-- What the acceptor has at hand can be closed to make room. -/
theorem closeIdle_lowest (h : s.Inv) (hheld : s.held = s.idleFd_)
    (hs : s.fds.lowest ≠ none ∨ s.idleFd_ ≠ none) : s.closeIdle.fds.lowest ≠ none := by
  have hkept := h.kept
  rw [hheld] at hkept
  unfold closeIdle
  split
  · rename_i hidle
    exact hs.resolve_right (not_not.mpr hidle)
  · rename_i fd hidle
    rw [hidle] at hkept
    exact FdTable.lowest_close (hkept.bounded fd (by rw [(hkept.own fd).mpr rfl]; simp))

theorem acceptor_spare (h : s.Inv) (hs : s.Spare) (failed : Bool) : (s.acceptor failed).Spare := by
  cases hpoint : s.point with
  | constructor =>
      by_cases hidle : s.openIdle.idleFd_ = none
      · simp [acceptor, hpoint, Spare, hidle]
      · simp [acceptor, hpoint, Spare, hidle]
  | aborted => simp [acceptor, hpoint, Spare]
  | poll =>
      have hidle : s.idleFd_ ≠ none := by simpa [Spare, hpoint] using hs
      simp only [acceptor, hpoint, handleRead]
      split
      · exact hidle
      · exact hs
      · split
        · exact hs
        · split <;> simpa [Spare, hpoint] using hidle
  | closeIdle =>
      have hidle : s.idleFd_ ≠ none := by simpa [Spare, hpoint] using hs
      simp only [acceptor, hpoint, Spare]
      exact closeIdle_lowest h (by simp [Accepting.held, hpoint]) (.inr hidle)
  | accept =>
      have hroom : s.fds.lowest ≠ none := by simpa [Spare, hpoint] using hs
      simp only [acceptor, hpoint, Spare, acceptIdle]
      split
      · split
        · exact .inl hroom
        · exact .inr (by simp)
      · exact .inl hroom
  | closeAccepted =>
      have hroom : s.fds.lowest ≠ none ∨ s.idleFd_ ≠ none := by
        simpa only [Spare, hpoint] using hs
      simp only [acceptor, hpoint, Spare]
      exact closeIdle_lowest h (by simp [Accepting.held, hpoint]) hroom
  | openIdle =>
      obtain ⟨fd, hfd⟩ := Option.ne_none_iff_exists'.mp
        (show s.fds.lowest ≠ none by simpa [Spare, hpoint] using hs)
      simp [acceptor, hpoint, Spare, openIdle, hfd]

theorem step_spare (h : s.Inv) (hs : s.Spare) {e : AcceptEvent} (he : s.Undisturbed e) :
    (s.step e).Spare := by
  cases e with
  | connect =>
      simp only [step]
      split <;> exact hs
  | acceptor failed => exact acceptor_spare h hs failed
  | «open» =>
      simp only [step]
      split
      · exact hs
      · rcases he with hp | hp | hp
        · simp [Spare, hp]
        · simp [Spare, hp]
        · simpa [Spare, hp] using hs
  | close fd =>
      simp only [step]
      split
      · exact hs
      · exact hs
      · have hroom := fun hroom => FdTable.lowest_close_ne_none (t := s.fds) hroom fd
        cases hp : s.point <;> simp only [Spare, hp] at hs ⊢
        · exact hs
        · exact hs
        · exact hroom hs
        · exact hs.imp_left hroom
        · exact hroom hs

end Accepting

/-- Clients at the limit of descriptors.  Whatever the other threads open and close between the
    calls of `handleRead`: the acceptor closes nothing that is not its own; the clients are taken in
    the order of their arrival, each once, and the descriptor of a connection belongs to the client
    it was handed over for.  If a descriptor is free or the spare is there, `handleRead` takes the
    next client, handing it over with the lowest free descriptor if there is one and turning it away
    otherwise, and has its spare afterwards if it had it before.  If neither is the case no number
    of calls takes anybody.  The spare is never lost while the others open descriptors only between
    two calls of `handleRead`. -/
theorem clients_taken_at_limit (limit : Nat) (newConnectionCallback_ : Bool)
    (es : List AcceptEvent) :
    let s := Run.exec Accepting.step (.new limit newConnectionCallback_) es
    (s.strays = [] ∧ s.taken.map Prod.fst ++ s.backlog = List.range s.arrived ∧
        ∀ fd client, s.fds.owner fd = some (.connection client) → (client, some fd) ∈ s.taken) ∧
      (s.point = .poll → s.backlog ≠ [] → s.fds.lowest ≠ none ∨ s.idleFd_ ≠ none →
        ∃ n client, s.backlog.head? = some client ∧
          let t := Run.exec Accepting.step s (List.replicate n (.acceptor false))
          t.point = .poll ∧ (s.idleFd_ ≠ none → t.idleFd_ ≠ none) ∧
            t.taken = s.taken ++
              [(client, if s.newConnectionCallback_ then s.fds.lowest else none)]) ∧
      (s.point = .poll → s.fds.lowest = none → s.idleFd_ = none →
        ∀ n, (Run.exec Accepting.step s (List.replicate n (.acceptor false))).taken = s.taken) ∧
      (Run.AllSteps Accepting.step Accepting.Undisturbed (.new limit newConnectionCallback_) es →
        s.point = .poll → s.idleFd_ ≠ none) := by
  intro s
  have h : s.Inv := Accepting.exec_inv limit newConnectionCallback_ es
  refine ⟨⟨h.strays, h.order, h.kept.handed⟩, fun hpoint hne hroom => ?_,
    fun hpoint hfull hidle => Accepting.reads_of_none hfull hidle (by simp [hpoint]),
    fun hes hpoint => ?_⟩
  · obtain ⟨client, rest, hbacklog⟩ := List.exists_cons_of_ne_nil hne
    cases hfd : s.fds.lowest with
    | some fd =>
        obtain ⟨hpoint', hidle', htaken⟩ := Accepting.read_of_free hpoint hfd hbacklog
        exact ⟨1, client, by simp [hbacklog], hpoint', fun hidle => hidle' ▸ hidle, htaken⟩
    | none =>
        obtain ⟨spare, hspare⟩ :=
          Option.ne_none_iff_exists'.mp (hroom.resolve_left (not_not.mpr hfd))
        obtain ⟨hpoint', hidle', htaken⟩ := Accepting.read_of_spare h hpoint hfd hspare hbacklog
        exact ⟨5, client, by simp [hbacklog], hpoint', fun _ => hidle', by simpa using htaken⟩
  · have hspare : s.Inv ∧ s.Spare :=
      Run.exec_invariant (I := fun t : Accepting => t.Inv ∧ t.Spare)
        (fun t e ht he => ⟨Accepting.step_inv ht.1 e, Accepting.step_spare ht.1 ht.2 he⟩)
        ⟨Accepting.new_inv limit newConnectionCallback_, trivial⟩ hes
    simpa [Accepting.Spare, hpoint] using hspare.2

/-- Two descriptors: one is the spare, the first client gets the other, the second is turned away.
    Then somebody takes the room the acceptor makes for the third. -/
def crowded : List AcceptEvent :=
  [.acceptor false, .connect, .connect, .connect, .acceptor false, .acceptor false,
   .acceptor false, .acceptor false, .acceptor false, .acceptor false, .acceptor false,
   .acceptor false, .open, .acceptor false, .acceptor false, .acceptor false]

theorem clients_taken_at_limit_crowded :
    let s := Run.exec Accepting.step (.new 2 true) crowded
    s.taken = [(0, some 1), (1, none)] ∧ s.backlog = [2] ∧
      ∀ n, (Run.exec Accepting.step s (List.replicate n (.acceptor false))).taken = s.taken := by
  intro s
  exact ⟨by decide, by decide,
    (clients_taken_at_limit 2 true crowded).2.2.1 (by decide) (by decide) (by decide)⟩

end DoubleTurnouts
