import RelayLadder.Proofs.Engine.Progress

/-!
The two banks of a per-scan engine after any history of requests. They differ only in
cells that the program stores to, and after a completed scan only in cells that the
current one has stored to.
-/

namespace RelayLadder

namespace Engine

variable {engine : Engine}

theorem mode_stepped_of_perScan (policy : engine.toggle = .perScan) :
    engine.stepped.memory.mode =
      if engine.stepped.pc = 0 then !engine.memory.mode else engine.memory.mode := by
  have put : (engine.memory.put engine.store?).mode = engine.memory.mode := by
    cases engine.store? <;> rfl
  rw [memory_stepped, policy, ← put]
  by_cases completed : engine.stepped.pc = 0 <;>
    simp [completed, TogglePolicy.settle, Memory.commit]

/-- A per-scan engine whose banks differ in nothing but stores. After a completed scan
these are stores of the current scan. -/
structure Tidy (engine : Engine) : Prop where
  policy : engine.toggle = .perScan
  paced : engine.control.Paced
  current : engine.scans ≠ 0 → ∀ address, ¬ Statement.StoresTo engine.control.ran address →
    engine.memory.liveAt address = engine.memory.pendingAt address
  always : ∀ address, ¬ Statement.StoresTo engine.program.body address →
    engine.memory.liveAt address = engine.memory.pendingAt address

namespace Tidy

theorem ofStart (program : Program) {config : Config} (policy : config.toggle = .perScan) :
    (start program config).Tidy where
  policy := policy
  paced := Control.Paced.of_history program config []
  current := by
    intro scanned
    exact absurd rfl scanned
  always := by
    intro address _
    simp [start, ofMemory]

theorem stepped (tidy : engine.Tidy) (running : engine.fault = none)
    (accepted : engine.objection? = none) : engine.stepped.Tidy := by
  obtain ⟨statement, rest, ahead⟩ := ahead_of_inside (tidy.paced.inside running)
  obtain ⟨fetched, index⟩ := pc_stepped_of_body ahead
  have live := liveAt_stepped_of_perScan tidy.policy accepted
  have pending := pendingAt_stepped_of_perScan tidy.policy accepted
  have ran := ran_stepped running ahead
  have paced := tidy.paced.stepped running accepted
  by_cases last : rest = []
  · rw [if_pos last] at index
    rw [if_pos index, ← pending] at live
    refine ⟨tidy.policy, paced, ?_, ?_⟩
    · intro _ address _
      rw [live]
    · intro address _
      rw [live]
  · rw [if_neg last] at index ran
    have unfinished : engine.stepped.pc ≠ 0 := by omega
    rw [if_neg unfinished] at live
    have kept {address : Nat} (other : statement.instruction ≠ ⟨.out, some address⟩) :
        engine.stepped.memory.pendingAt address = engine.memory.pendingAt address := by
      rw [pending, store?, fetched]
      exact Instruction.afterStores_store?_of_ne other _ _
    refine ⟨tidy.policy, paced, ?_, ?_⟩
    · intro scanned address unstored
      rw [scans_stepped, if_neg unfinished] at scanned
      rw [ran] at unstored
      rw [live, kept, tidy.current scanned]
      · intro stores
        exact unstored (stores.mono (List.subset_append_left _ _))
      · intro store
        exact unstored ⟨statement, by simp, store⟩
    · intro address unstored
      rw [live, kept, tidy.always address unstored]
      intro store
      have membership := List.mem_of_getElem? (Program.getElem?_body ahead)
      exact unstored ⟨statement, membership, store⟩

theorem latched (tidy : engine.Tidy) (running : engine.fault = none) {kind : FaultKind}
    (refused : engine.objection? = some kind) : (engine.latch (engine.blame kind)).Tidy where
  policy := tidy.policy
  paced := tidy.paced.latched running refused
  current := by
    rw [ran_latch running]
    exact tidy.current
  always := tidy.always

theorem reset (tidy : engine.Tidy) : engine.reset.Tidy where
  policy := tidy.policy
  paced := Control.Paced.invariant.reset tidy.paced
  current := by
    intro scanned
    exact absurd rfl scanned
  always := by
    intro address unstored
    have same := tidy.always address unstored
    change engine.memory.resetMode.liveAt address = engine.memory.resetMode.pendingAt address
    rw [Memory.liveAt_resetMode_eq, Memory.pendingAt_resetMode_eq]
    split
    · exact same.symm
    · exact same

theorem force (tidy : engine.Tidy) {address : Nat} (inside : address < engine.memory.cells)
    (value : Bool) :
    Tidy { engine with memory := engine.memory.setBoth address value } := by
  have forced {other : Nat}
      (same : engine.memory.liveAt other = engine.memory.pendingAt other) :
      (engine.memory.setBoth address value).liveAt other =
        (engine.memory.setBoth address value).pendingAt other := by
    rw [Memory.liveAt_setBoth value inside, Memory.pendingAt_setBoth value inside]
    by_cases target : other = address
    · subst target
      simp
    · simpa [target] using same
  refine ⟨tidy.policy, tidy.paced, ?_, ?_⟩
  · intro scanned other unstored
    exact forced (tidy.current scanned other unstored)
  · intro other unstored
    exact forced (tidy.always other unstored)

theorem clearMemory (tidy : engine.Tidy) : engine.clearMemory.Tidy where
  policy := tidy.policy
  paced := tidy.paced
  current := by simp [Engine.clearMemory]
  always := by simp [Engine.clearMemory]

theorem invariant : Invariant Tidy where
  step := by
    intro engine tidy
    apply keeps_step Tidy tidy
    · exact tidy.stepped
    · intro kind running refused
      exact tidy.latched running refused
  force := by
    intro engine address value inside tidy
    exact tidy.force inside value
  clearMemory := clearMemory
  reset := reset

theorem of_history (program : Program) {config : Config} (policy : config.toggle = .perScan)
    (requests : List Request) : ((start program config).serveAll requests).Tidy :=
  invariant.serveAll (ofStart program policy) requests

/-- A scan that faults after a completed one has stored nothing. -/
theorem banks_of_fault (tidy : engine.Tidy) (latched : engine.fault ≠ none)
    (scanned : engine.scans ≠ 0) : engine.memory.liveAt = engine.memory.pendingAt := by
  funext address
  apply tidy.current scanned
  rintro ⟨statement, membership, store⟩
  apply tidy.paced.halted latched scanned statement membership
  rw [store]

end Tidy

end Engine

end RelayLadder
