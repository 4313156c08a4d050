import RelayLadder.Proofs.Engine.Rollback

/-!
What a read shows under the per-scan policy while a scan is under way. It stays as it was
until the scan completes, unless the host sets it. A reset in the middle of a scan keeps it
too, if an even number of scans has been completed before; after an odd number the banks
change roles, and the stores of the unfinished scan show.
-/

namespace RelayLadder

namespace Engine

/-- The next step completes a scan. -/
def CompletesScan (engine : Engine) : Prop := engine.step.1 = .ok () ∧ engine.step.2.pc = 0

/-- One of the steps that a request takes completes a scan. -/
def CompletesDuring (engine : Engine) : Request → Prop
  | .step => engine.CompletesScan
  | .stepMany count => ∃ earlier < count, ∃ during,
      engine.stepMany earlier = (.ok (), during) ∧ during.CompletesScan
  | .scan => ∃ count, engine.scan.1 = .ok count
  | .scanWithin limit => ∃ count, (engine.scanWithin limit).1 = .ok count
  | .read _ | .setInput _ _ | .clearMemory | .reset => False

/-- A reset would show another value of the cell. -/
def Exposes (engine : Engine) (address : Nat) : Prop :=
  Odd engine.scans ∧ engine.memory.pendingAt address ≠ engine.memory.liveAt address

variable {engine next : Engine}

/-- What a read answers tells the cell. -/
theorem read_eq_read_iff (extent : next.memory.extent = engine.memory.extent) {address : Nat} :
    next.read address = engine.read address ↔
      next.memory.liveAt address = engine.memory.liveAt address := by
  have cells : next.memory.cells = engine.memory.cells := congrArg Extent.cells extent
  constructor
  · intro same
    by_cases inside : address < next.memory.cells
    · rw [read, read, Memory.read_eq_ok inside, Memory.read_eq_ok (cells ▸ inside)] at same
      exact Except.ok.inj same
    · have outside := Nat.le_of_not_lt inside
      rw [Memory.liveAt_of_outside outside, Memory.liveAt_of_outside (cells ▸ outside)]
  · intro same
    rw [read, read, Memory.read_congr extent same]

theorem step_of_unfinished (policy : engine.toggle = .perScan)
    (unfinished : ¬ engine.CompletesScan) :
    engine.step.2.toggle = .perScan ∧ engine.step.2.memory.liveAt = engine.memory.liveAt := by
  apply keeps_step fun next => next.toggle = .perScan ∧ next.memory.liveAt = engine.memory.liveAt
  · exact ⟨policy, rfl⟩
  · intro running accepted
    have index : engine.stepped.pc ≠ 0 := by
      intro completed
      apply unfinished
      rw [CompletesScan, step_of_accepted running accepted]
      exact ⟨rfl, completed⟩
    refine ⟨policy, ?_⟩
    rw [liveAt_stepped_of_perScan policy accepted, if_neg index]
  · intro kind _ _
    exact ⟨policy, rfl⟩

theorem liveAt_stepMany_of_unfinished (policy : engine.toggle = .perScan) {count : Nat}
    (unfinished : ¬ engine.CompletesDuring (.stepMany count)) :
    (engine.stepMany count).2.memory.liveAt = engine.memory.liveAt := by
  induction count generalizing engine with
  | zero => rfl
  | succ count inductionHypothesis =>
    have pending : ¬ engine.CompletesScan := by
      intro completes
      exact unfinished ⟨0, Nat.succ_pos count, engine, rfl, completes⟩
    obtain ⟨stillPerScan, same⟩ := step_of_unfinished policy pending
    rcases step : engine.step with ⟨result, following⟩
    rw [step] at stillPerScan same
    cases result with
    | error failure =>
      rw [stepMany_of_step_error step]
      exact same
    | ok _ =>
      rw [stepMany_of_step_ok step, ← same]
      apply inductionHypothesis stillPerScan
      rintro ⟨earlier, bound, during, run, completes⟩
      apply unfinished
      refine ⟨earlier + 1, Nat.succ_lt_succ bound, during, ?_, completes⟩
      rw [stepMany_of_step_ok step, run]

theorem liveAt_scanOn_of_unfinished (policy : engine.toggle = .perScan)
    {limit remaining taken : Nat}
    (unfinished : ¬ ∃ count, (engine.scanOn limit remaining taken).1 = .ok count) :
    (engine.scanOn limit remaining taken).2.memory.liveAt = engine.memory.liveAt := by
  induction remaining generalizing engine taken with
  | zero => rfl
  | succ remaining inductionHypothesis =>
    rcases step : engine.step with ⟨result, following⟩
    have pending : ¬ engine.CompletesScan := by
      rintro ⟨succeeded, completed⟩
      rw [step] at succeeded completed
      subst succeeded
      apply unfinished
      rw [scanOn_of_step_ok step, if_pos completed]
      exact ⟨taken + 1, rfl⟩
    obtain ⟨stillPerScan, same⟩ := step_of_unfinished policy pending
    rw [step] at stillPerScan same
    cases result with
    | error failure =>
      rw [scanOn_of_step_error step]
      exact same
    | ok _ =>
      have index : following.pc ≠ 0 := by
        intro completed
        apply pending
        rw [CompletesScan, step]
        exact ⟨rfl, completed⟩
      rw [scanOn_of_step_ok step, if_neg index] at unfinished ⊢
      rw [← same]
      exact inductionHypothesis stillPerScan unfinished

/-- A cell of the live bank changes by nothing but these. -/
theorem liveAt_serve (policy : engine.toggle = .perScan) {request : Request} {address : Nat}
    (unforced : ∀ value, request ≠ .setInput address value) (kept : request ≠ .clearMemory)
    (continues : request ≠ .reset) (unfinished : ¬ engine.CompletesDuring request) :
    (engine.serve request).2.memory.liveAt address = engine.memory.liveAt address := by
  cases request with
  | step => exact congrFun (step_of_unfinished policy unfinished).2 address
  | stepMany count => exact congrFun (liveAt_stepMany_of_unfinished policy unfinished) address
  | scan => exact congrFun (liveAt_scanOn_of_unfinished policy unfinished) address
  | scanWithin limit => exact congrFun (liveAt_scanOn_of_unfinished policy unfinished) address
  | read other => rfl
  | setInput other value =>
    rw [serve_setInput]
    split
    next inside =>
      have different : address ≠ other := by
        rintro rfl
        exact unforced value rfl
      change (engine.memory.setBoth other value).liveAt address = _
      rw [Memory.liveAt_setBoth value inside, Function.update_of_ne different]
    next => rfl
  | clearMemory => contradiction
  | reset => contradiction

/-- A reset shows nothing new but what the running scan, and no other, has stored. -/
theorem Tidy.exposes (tidy : engine.Tidy) {address : Nat} (exposes : engine.Exposes address) :
    engine.fault = none ∧ engine.pc ≠ 0 ∧
      Statement.StoresTo (engine.program.body.take engine.pc) address := by
  obtain ⟨⟨half, odd⟩, different⟩ := exposes
  have scanned : engine.scans ≠ 0 := by omega
  have running : engine.fault = none := by
    by_contra latched
    apply different
    rw [tidy.banks_of_fault latched scanned]
  have stored : Statement.StoresTo (engine.program.body.take engine.pc) address := by
    rw [← ran_of_running running]
    by_contra unstored
    exact different (tidy.current scanned address unstored).symm
  refine ⟨running, ?_, stored⟩
  intro start
  obtain ⟨statement, membership, _⟩ := stored
  rw [start, List.take_zero] at membership
  cases membership

/-- Under the per-scan policy only these change what a read of a cell shows: the host sets
or clears the cell, a step completes a scan, or a reset exposes the cell. A reset exposes a
cell exactly when the number of completed scans is odd and the banks differ in it. Then a
scan is under way and has stored to the cell. What a reset leaves pending is never shown. -/
theorem unfinished_scan_hidden (program : Program) {config : Config}
    (policy : config.toggle = .perScan) (requests : List Request) (address : Nat) :
    let engine := (start program config).serveAll requests
    (∀ request, (engine.serve request).2.read address ≠ engine.read address →
      (∃ value, request = .setInput address value) ∨ request = .clearMemory ∨
        engine.CompletesDuring request ∨ request = .reset ∧ engine.Exposes address) ∧
      (engine.reset.read address ≠ engine.read address ↔ engine.Exposes address) ∧
      (engine.Exposes address → engine.fault = none ∧ engine.pc ≠ 0 ∧
        Statement.StoresTo (program.body.take engine.pc) address) ∧
      ∀ later request, ((engine.reset.serveAll later).serve request).1 =
        ((engine.reset.rollback.serveAll later).serve request).1 := by
  intro engine
  have tidy : engine.Tidy := .of_history program policy requests
  have coherent : Coherent program config engine := .of_history program config requests
  have reads (request : Request) : (engine.serve request).2.read address = engine.read address ↔
      (engine.serve request).2.memory.liveAt address = engine.memory.liveAt address := by
    have after := (Coherent.invariant program config).serve coherent request
    exact read_eq_read_iff (after.extent_eq.trans coherent.extent_eq.symm)
  have reset : engine.reset.read address ≠ engine.read address ↔ engine.Exposes address := by
    have same : engine.reset.read address = engine.read address ↔
        engine.reset.memory.liveAt address = engine.memory.liveAt address := reads .reset
    have shown := engine.memory.liveAt_resetMode_eq
    rw [Exposes, ← coherent.mode_of_perScan policy, ne_eq, same]
    change ¬ engine.memory.resetMode.liveAt address = engine.memory.liveAt address ↔ _
    rw [shown]
    cases engine.memory.mode <;> simp
  refine ⟨?only, reset, ?exposed, ?pending⟩
  case only =>
    intro request changed
    by_contra others
    rw [not_or, not_or, not_or] at others
    obtain ⟨unforced, kept, unfinished, unexposed⟩ := others
    have continues : request ≠ .reset := by
      rintro rfl
      exact unexposed ⟨rfl, reset.mp changed⟩
    apply changed
    rw [reads]
    exact liveAt_serve tidy.policy (not_exists.mp unforced) kept continues unfinished
  case exposed =>
    intro exposes
    have stored := tidy.exposes exposes
    rwa [coherent.program_eq] at stored
  case pending =>
    intro later request
    have shadows : Shadows engine.reset engine.reset.rollback := by
      apply tidy.reset.shadows_rollback
      · exact unrun_of_running rfl
      · intro mode
        cases engine.memory.mode_resetMode.symm.trans mode
    exact (Shadows.bisimulation.serveAll shadows later).answer request

/-- After two scans a reset in the middle of a third keeps a cell that the third has
stored to, and the engine goes on as if it had not. -/
theorem unfinished_scan_hidden_after_two :
    let program : Program :=
      ⟨#[⟨1, ⟨.load true, some 0⟩⟩, ⟨2, ⟨.out, some 0⟩⟩, ⟨3, ⟨.finish, none⟩⟩], by decide⟩
    let config : Config := { bankSize := 0, toggle := .perScan }
    let engine := (start program config).serveAll [.scan, .scan, .step, .step]
    engine.memory.pendingAt 0 ≠ engine.memory.liveAt 0 ∧
      engine.reset.read 0 = engine.read 0 ∧
      ((engine.reset.serveAll [.scan]).serve (.read 0)).1 =
        ((engine.reset.rollback.serveAll [.scan]).serve (.read 0)).1 := by
  intro program config engine
  have policy : config.toggle = .perScan := rfl
  obtain ⟨_, reset, _, pending⟩ :=
    unfinished_scan_hidden program policy [.scan, .scan, .step, .step] 0
  refine ⟨by decide, ?_, pending [.scan] (.read 0)⟩
  by_contra changed
  have odd := (reset.mp changed).1
  have even : engine.scans = 2 := by decide
  rw [even] at odd
  exact absurd odd (by decide)

/-- After one scan a reset in the middle of the second shows what the second has stored. -/
theorem reset_exposes_unfinished_scan :
    let program : Program :=
      ⟨#[⟨1, ⟨.load true, some 0⟩⟩, ⟨2, ⟨.out, some 0⟩⟩, ⟨3, ⟨.finish, none⟩⟩], by decide⟩
    let config : Config := { bankSize := 0, toggle := .perScan }
    let engine := (start program config).serveAll [.scan, .step, .step]
    engine.fault = none ∧ engine.pc = 2 ∧
      engine.read 0 = .ok true ∧ engine.reset.read 0 = .ok false := by
  decide

end Engine

end RelayLadder
