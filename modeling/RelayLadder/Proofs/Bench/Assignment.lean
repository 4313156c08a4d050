import RelayLadder.Proofs.Bench.Run
import RelayLadder.Proofs.Traversal

/-!
What a bench makes of a case. A run starts with every cell off, so that of all the values in
a case only those count that turn a cell on and are not taken back by a later one. A case
that names a cell which is not there is refused at the first such cell, before anything runs.
-/

namespace RelayLadder

namespace Case

variable {case : Case} {address cells : Nat}

/-- The last value that the case gives to the cell is on. -/
def Raises (case : Case) (address : Nat) : Prop :=
  ∃ before after, case = before ++ (address, true) :: after ∧
    ∀ entry ∈ after, entry.1 ≠ address

theorem last_eq_true_iff : case.last address = true ↔ case.Raises address := by
  have found : case.last address = true ↔ case.reverse.lookup address = some true := by
    cases entry : case.reverse.lookup address <;> simp [last, entry]
  rw [found, List.lookup_eq_some_iff]
  constructor
  · rintro ⟨after, before, reversed, others⟩
    refine ⟨before.reverse, after.reverse, ?_, ?_⟩
    · simpa using congrArg List.reverse reversed
    · intro entry member same
      have different := others entry (List.mem_reverse.mp member)
      simp [same] at different
  · rintro ⟨before, after, rfl, others⟩
    refine ⟨after.reverse, before.reverse, by simp, ?_⟩
    intro entry member
    have different := others entry (List.mem_reverse.mp member)
    simpa using different.symm

/-- Cases that leave the same cells on give every cell the same value in the end. -/
theorem last_eq_of_raises {first second : Case}
    (same : ∀ address, first.Raises address ↔ second.Raises address) :
    first.last = second.last := by
  funext address
  apply Bool.eq_iff_iff.mpr
  rw [last_eq_true_iff, last_eq_true_iff]
  exact same address

/-- A case that is not inside has a first entry that is not. -/
theorem exists_first_outside (outside : ¬ case.Inside cells) :
    ∃ (before : Case) (address : Nat) (value : Bool) (after : Case),
      case = before ++ (address, value) :: after ∧ before.Inside cells ∧ cells ≤ address := by
  induction case with
  | nil => exact absurd (fun entry member => absurd member List.not_mem_nil) outside
  | cons entry case inductionHypothesis =>
    by_cases here : entry.1 < cells
    · have later : ¬ Inside case cells := by
        intro others
        exact outside (List.forall_mem_cons.mpr ⟨here, others⟩)
      obtain ⟨before, address, value, after, rfl, inside, beyond⟩ := inductionHypothesis later
      exact ⟨entry :: before, address, value, after, rfl,
        List.forall_mem_cons.mpr ⟨here, inside⟩, beyond⟩
    · exact ⟨[], entry.1, entry.2, case, rfl, by simp [Inside], Nat.le_of_not_lt here⟩

end Case

/-- Blank memory keeps nothing of a case but the last value of each cell. -/
theorem Memory.force_blank_eq {size : Nat} {bounds : Bounds} {first second : Case}
    (firstInside : first.Inside (bounds.cells size))
    (secondInside : second.Inside (bounds.cells size)) (same : first.last = second.last) :
    (blank size bounds).force first = (blank size bounds).force second := by
  obtain ⟨firstLive, firstPending⟩ := cells_force_blank firstInside
  obtain ⟨secondLive, secondPending⟩ := cells_force_blank secondInside
  apply eq_of_cells
  · simp
  · simp
  · rw [firstLive, secondLive, same]
  · rw [firstPending, secondPending, same]

theorem Engine.force_start_eq (program : Program) {config : Config} {first second : Case}
    (firstInside : first.Inside (config.bounds.cells config.bankSize))
    (secondInside : second.Inside (config.bounds.cells config.bankSize))
    (same : first.last = second.last) :
    (start program config).force first = (start program config).force second := by
  have memories : (start program config).memory.force first =
      (start program config).memory.force second :=
    Memory.force_blank_eq firstInside secondInside same
  rw [force_of_inside firstInside, force_of_inside secondInside, memories]

/-- The first cell that is not there ends the forcing, whatever comes after it. -/
theorem Engine.force_of_first_outside {engine : Engine} {before after : Case} {address : Nat}
    (inside : before.Inside engine.memory.cells) (outside : engine.memory.cells ≤ address)
    (value : Bool) :
    engine.force (before ++ (address, value) :: after) =
      .error (.outOfBounds (engine.memory.outOfBounds address)) := by
  have extent := engine.memory.extent_force before
  have cells : (engine.memory.force before).cells = engine.memory.cells :=
    congrArg Extent.cells extent
  have refused : ¬ address < (engine.memory.force before).cells := by omega
  have parts : engine.force (before ++ (address, value) :: after) =
      engine.force before >>= fun next => next.force ((address, value) :: after) :=
    List.foldlM_append
  rw [parts, force_of_inside inside]
  simp only [bind, Except.bind, force_cons, setInput, Memory.setInput, if_neg refused,
    Memory.outOfBounds_congr extent]

theorem Engine.extent_scanMany {engine final : Engine} {count : Nat}
    (ran : engine.scanMany count = .ok final) : final.memory.extent = engine.memory.extent := by
  induction count generalizing engine with
  | zero =>
    cases ran
    rfl
  | succ count inductionHypothesis =>
    have kept := (Invariant.extent engine.memory.extent).serve rfl .scan
    rcases scanned : engine.scan with ⟨result, next⟩
    rw [serve, scanned] at kept
    rw [scanMany, scanned] at ran
    cases result with
    | ok steps => exact (inductionHypothesis ran).trans kept
    | error failure => contradiction

theorem Engine.inside_of_read {engine : Engine} {address : Nat} {value : Bool}
    (shown : engine.read address = .ok value) : address < engine.memory.cells := by
  by_contra outside
  rw [read, Memory.read_eq, if_neg outside] at shown
  contradiction

namespace Bench

variable {bench : Bench}

/-- What a case fails with, if a cell of it is not there: this cell, once there are banks. -/
theorem run_of_first_outside {before after : Case} {address : Nat}
    (inside : before.Inside (bench.config.bounds.cells bench.config.bankSize))
    (outside : bench.config.bounds.cells bench.config.bankSize ≤ address) (value : Bool) :
    bench.run (before ++ (address, value) :: after) =
      .error (if bench.config.bounds.cells bench.config.bankSize ≤ Memory.longestBank then
        .outOfBounds ⟨address, bench.config.bankSize, bench.config.bounds⟩
      else .unallocatable) := by
  by_cases fits : bench.config.bounds.cells bench.config.bankSize ≤ Memory.longestBank
  · have refused : (Engine.start bench.program bench.config).force
        (before ++ (address, value) :: after) =
          .error (.outOfBounds ⟨address, bench.config.bankSize, bench.config.bounds⟩) :=
      Engine.force_of_first_outside inside outside value
    rw [run_of_fits fits, if_pos fits, refused]
    rfl
  · rw [run_of_unallocatable fits, if_neg fits]

/-- A run that ends has made its banks, and finds in them the cells that it forces and those
that it reads, of which each gives a value. -/
theorem inside_of_run {case : Case} {values : List Bool} (ran : bench.run case = .ok values) :
    let cells := bench.config.bounds.cells bench.config.bankSize
    cells ≤ Memory.longestBank ∧ case.Inside cells ∧
      (∀ address ∈ bench.outputs, address < cells) ∧ values.length = bench.outputs.length := by
  intro cells
  have fits : cells ≤ Memory.longestBank := by
    by_contra tooLong
    rw [run_of_unallocatable tooLong] at ran
    contradiction
  have inside : case.Inside cells := by
    by_contra outside
    obtain ⟨before, address, value, after, rfl, earlier, beyond⟩ :=
      Case.exists_first_outside outside
    rw [run_of_first_outside earlier beyond value] at ran
    contradiction
  have forced : (Engine.start bench.program bench.config).force case = .ok _ :=
    Engine.force_of_inside inside
  rw [run_of_fits fits, forced] at ran
  simp only [bind, Except.bind] at ran
  split at ran
  · contradiction
  · rename_i final scanned
    have extent : final.memory.cells = cells :=
      congrArg Extent.cells ((Engine.extent_scanMany scanned).trans (Memory.extent_force _ case))
    have shown := Traversal.mapM_eq_ok_iff.mp ran
    have found := shown.imp fun address value read =>
      (⟨extent ▸ Engine.inside_of_read read, read⟩ :
        address < cells ∧ final.read address = .ok value)
    exact ⟨fits, inside, ((List.forall₂_and_left _ _).mp found).1, shown.length_eq.symm⟩

/-- The cells that a case leaves on decide its run, however it names them and how often. A
case that names a missing cell is refused for the first one, whatever the program, the
outputs and the number of scans, provided that the banks can be made at all. -/
theorem run_decided_by_raised (bench : Bench) :
    let cells := bench.config.bounds.cells bench.config.bankSize
    (∀ first second : Case, first.Inside cells → second.Inside cells →
      (∀ address, first.Raises address ↔ second.Raises address) →
      bench.run first = bench.run second) ∧
    ∀ case : Case, ¬ case.Inside cells →
      ∃ (before : Case) (address : Nat) (value : Bool) (after : Case),
        case = before ++ (address, value) :: after ∧ before.Inside cells ∧ cells ≤ address ∧
        (cells ≤ Memory.longestBank → bench.run case =
          .error (.outOfBounds ⟨address, bench.config.bankSize, bench.config.bounds⟩)) ∧
        (Memory.longestBank < cells → bench.run case = .error .unallocatable) := by
  intro cells
  constructor
  · intro first second firstInside secondInside same
    by_cases fits : cells ≤ Memory.longestBank
    · have forced := Engine.force_start_eq bench.program firstInside secondInside
        (Case.last_eq_of_raises same)
      rw [run_of_fits fits, run_of_fits fits, forced]
    · rw [run_of_unallocatable fits, run_of_unallocatable fits]
  · intro case outside
    obtain ⟨before, address, value, after, rfl, inside, beyond⟩ :=
      Case.exists_first_outside outside
    refine ⟨before, address, value, after, rfl, inside, beyond, ?_, ?_⟩
    · intro fits
      rw [run_of_first_outside inside beyond value, if_pos fits]
    · intro tooLong
      exact run_of_unallocatable (Nat.not_le.mpr tooLong) _

/-- Two spellings of one assignment, and a case that is refused in its middle. -/
theorem run_decided_by_raised_of_conjunction :
    let program : Program :=
      ⟨#[⟨1, ⟨.load false, some 0⟩⟩, ⟨2, ⟨.combine .and false, some 1⟩⟩, ⟨3, ⟨.out, some 2⟩⟩],
        by decide⟩
    let bench : Bench := ⟨program, { bankSize := 2, toggle := .perScan }, 2, [2, 0]⟩
    bench.run [(0, true), (1, true), (0, false), (2, true), (2, false), (0, true)] =
        bench.run [(1, false), (0, true), (1, true)] ∧
      bench.run [(2, true), (4, false), (3, true)] =
        .error (.outOfBounds ⟨4, 2, .inclusive⟩) := by
  intro program bench
  obtain ⟨same, refused⟩ := run_decided_by_raised bench
  constructor
  · apply same _ _ (by decide) (by decide)
    intro address
    rw [← Case.last_eq_true_iff, ← Case.last_eq_true_iff]
    rcases address with _ | _ | _ | address <;> simp [Case.last, List.lookup_cons]
  · obtain ⟨before, address, value, after, split, inside, beyond, fails, _⟩ :=
      refused [(2, true), (4, false), (3, true)] (by decide)
    have first : address = 4 := by
      rcases before with _ | ⟨entry, _ | ⟨other, before⟩⟩
      · cases split
        exact absurd beyond (by decide)
      · cases split
        rfl
      · simp only [List.cons_append, List.cons.injEq] at split
        obtain ⟨_, rfl, _⟩ := split
        exact absurd (inside (4, false) (by simp)) (by decide)
    rw [fails (by decide), first]

/-- Banks that are too long cannot be made, and then no cell is looked for. -/
theorem missing_cell_not_refused_without_banks :
    let config : Config := { bankSize := 0x8000000000000000, bounds := .strict }
    let bench : Bench := ⟨⟨#[⟨1, ⟨.finish, none⟩⟩], by decide⟩, config, 1, []⟩
    let case : Case := [(0x8000000000000000, true)]
    ¬ case.Inside (config.bounds.cells config.bankSize) ∧
      bench.run case = .error .unallocatable ∧
      bench.run case ≠
        .error (.outOfBounds ⟨0x8000000000000000, 0x8000000000000000, .strict⟩) := by
  intro config bench case
  have failed : bench.run case = .error .unallocatable := run_of_unallocatable (by decide) case
  refine ⟨by decide, failed, ?_⟩
  rw [failed]
  decide

end Bench

end RelayLadder
