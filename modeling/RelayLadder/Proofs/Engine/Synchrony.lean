import Mathlib.Control.Monad.Basic
import RelayLadder.Proofs.Engine.Reference

/-!
The per-scan policy is a synchronous update of one memory: the loads of a scan see
the cells as they were when it began, and the cells change together at its end.
-/

namespace RelayLadder

namespace Engine

/-- What the next steps store, in order. -/
def stores : Nat → Engine → List (Nat × Bool)
  | 0, _ => []
  | count + 1, engine => engine.store?.toList ++ stores count engine.step.2

/-- A scan, under the engine's own limit or another, that runs to its end. -/
def Completes (engine : Engine) (count : Nat) (next : Engine) : Prop :=
  engine.scan = (.ok count, next) ∨ ∃ limit, engine.scanWithin limit = (.ok count, next)

/-- The engines found between scans, when the host makes its calls there. A scan
may be one call or several, down to single steps. -/
inductive Reached (program : Program) (config : Config) : Engine → Prop where
  | start : Reached program config (.start program config)
  | scan {count engine next} :
      Reached program config engine → engine.Completes count next → Reached program config next
  | steps {count engine next} :
      Reached program config engine → engine.stepMany count = (.ok (), next) → next.pc = 0 →
      Reached program config next
  | setInput {address value engine next} :
      Reached program config engine → engine.setInput address value = .ok next →
      Reached program config next
  | clearMemory {engine} : Reached program config engine → Reached program config engine.clearMemory
  | reset {engine} : Reached program config engine → Reached program config engine.reset

end Engine

namespace Reference.Mirrors

variable {reference : Reference} {stores : List (Nat × Bool)} {engine next : Engine}

/-- Up to its end, a scan leaves the one memory alone; then it makes its stores. -/
theorem completes (mirrors : Mirrors reference stores engine) {limit remaining taken count : Nat}
    (completed : engine.scanOn limit remaining taken = (.ok count, next)) :
    ∃ steps, count = taken + steps ∧
      (∀ before < steps, ∃ during,
        engine.stepMany before = (.ok (), during) ∧ during.objection? = none ∧
          during.memory.extent = reference.extent ∧
          during.memory.liveAt = reference.cells) ∧
      next.BetweenScans ∧
      Mirrors
        { reference with
          cells := Memory.afterStores reference.cells (stores ++ engine.stores steps) }
        [] next := by
  induction remaining generalizing engine stores taken with
  | zero => simp [Engine.scanOn] at completed
  | succ remaining inductionHypothesis =>
    rcases step : engine.step with ⟨result, following⟩
    cases result with
    | error failure =>
      rw [Engine.scanOn_of_step_error step] at completed
      simp at completed
    | ok _ =>
      obtain ⟨running, accepted, rfl⟩ := Engine.step_eq_ok_iff.mp step
      rw [Engine.scanOn_of_step_ok step] at completed
      by_cases finished : engine.stepped.pc = 0
      · rw [if_pos finished] at completed
        obtain ⟨counted, rfl⟩ := Prod.mk.inj completed
        refine ⟨1, (Except.ok.inj counted).symm, ?_, ⟨finished, running⟩, ?_⟩
        · intro before early
          obtain rfl : before = 0 := by omega
          exact ⟨engine, rfl, accepted, mirrors.extent, mirrors.live⟩
        · have only : engine.stores 1 = engine.store?.toList := by simp [Engine.stores]
          rw [only]
          exact mirrors.lastStep accepted finished reference.stack
      · rw [if_neg finished] at completed
        obtain ⟨steps, counted, loads, boundary, final⟩ :=
          inductionHypothesis (mirrors.step accepted finished) completed
        refine ⟨steps + 1, by omega, ?_, boundary, ?_⟩
        · intro before early
          cases before with
          | zero => exact ⟨engine, rfl, accepted, mirrors.extent, mirrors.live⟩
          | succ before =>
            rw [Engine.stepMany_of_step_ok step]
            exact loads before (by omega)
        · have listed : engine.stores (steps + 1) =
              engine.store?.toList ++ engine.stepped.stores steps := by
            simp [Engine.stores, step]
          rw [listed, ← List.append_assoc]
          exact final

end Reference.Mirrors

namespace Engine

/-- The interpreter in the state of an engine between two scans. -/
def snapshot (engine : Engine) : Reference where
  program := engine.program
  extent := engine.memory.extent
  stepLimit := engine.stepLimit
  cells := engine.memory.liveAt
  stack := engine.stack

/-- A per-scan engine between two scans, with equal banks. -/
structure Settled (engine : Engine) : Prop where
  policy : engine.toggle = .perScan
  boundary : engine.BetweenScans
  banks : engine.memory.liveAt = engine.memory.pendingAt

namespace Settled

variable {engine next : Engine}

theorem mirrors (settled : engine.Settled) : engine.snapshot.Mirrors [] engine :=
  ⟨settled.policy, rfl, rfl, rfl, rfl, settled.banks.symm⟩

/-- A completed scan, from what the loads see to what the cells hold afterwards. -/
theorem completes (settled : engine.Settled) {count : Nat}
    (completed : engine.Completes count next) :
    (∀ before < count, ∃ during,
      engine.stepMany before = (.ok (), during) ∧ during.objection? = none ∧
        during.memory.extent = engine.memory.extent ∧
        during.memory.liveAt = engine.memory.liveAt) ∧
      next.memory.extent = engine.memory.extent ∧
      next.memory.liveAt = Memory.afterStores engine.memory.liveAt (engine.stores count) ∧
      next.Settled := by
  obtain ⟨limit, run⟩ : ∃ limit, engine.scanWithin limit = (.ok count, next) := by
    rcases completed with own | limited
    · exact ⟨_, own⟩
    · exact limited
  obtain ⟨steps, counted, loads, boundary, final⟩ := settled.mirrors.completes run
  obtain rfl : count = steps := by omega
  exact ⟨loads, final.extent, final.live, final.policy, boundary,
    final.live.trans final.pending.symm⟩

/-- However a scan is cut into steps, the banks are equal when it is over. -/
theorem of_stepMany {count : Nat} (policy : engine.toggle = .perScan)
    (running : engine.fault = none)
    (banks : engine.pc = 0 → engine.memory.liveAt = engine.memory.pendingAt)
    (run : engine.stepMany count = (.ok (), next)) (start : next.pc = 0) : next.Settled := by
  induction count generalizing engine with
  | zero =>
    obtain ⟨_, rfl⟩ := Prod.mk.inj run
    exact ⟨policy, ⟨start, running⟩, banks start⟩
  | succ count inductionHypothesis =>
    rcases step : engine.step with ⟨result, following⟩
    cases result with
    | error failure =>
      rw [stepMany_of_step_error step] at run
      simp at run
    | ok _ =>
      obtain ⟨_, accepted, rfl⟩ := step_eq_ok_iff.mp step
      rw [stepMany_of_step_ok step] at run
      have nextPolicy : engine.stepped.toggle = .perScan := policy
      have nextBanks : engine.stepped.pc = 0 →
          engine.stepped.memory.liveAt = engine.stepped.memory.pendingAt := by
        intro finished
        rw [liveAt_stepped_of_perScan policy accepted, if_pos finished,
          pendingAt_stepped_of_perScan policy accepted]
      exact inductionHypothesis nextPolicy running nextBanks run

end Settled

theorem Reached.settled {program : Program} {config : Config} (policy : config.toggle = .perScan)
    {engine : Engine} (reached : Reached program config engine) : engine.Settled := by
  induction reached with
  | start => exact ⟨policy, ⟨rfl, rfl⟩, by simp [Engine.start, ofMemory]⟩
  | scan _ completed settled => exact (settled.completes completed).2.2.2
  | steps _ run start settled =>
    exact .of_stepMany settled.policy settled.boundary.2 (fun _ => settled.banks) run start
  | setInput _ forced settled =>
    obtain ⟨inside, rfl⟩ := setInput_eq_ok_iff.mp forced
    refine ⟨settled.policy, settled.boundary, ?_⟩
    rw [Memory.liveAt_setBoth _ inside, Memory.pendingAt_setBoth _ inside, settled.banks]
  | clearMemory _ settled =>
    exact ⟨settled.policy, settled.boundary, by simp [Engine.clearMemory]⟩
  | reset _ settled =>
    obtain ⟨live, pending⟩ := Memory.liveAt_resetMode settled.banks
    exact ⟨settled.policy, ⟨rfl, rfl⟩, live.trans (settled.banks.trans pending.symm)⟩

/-- The per-scan policy is a synchronous update of one memory. From any engine
found between scans, the loads of a completed scan see the cells as they were, each
cell then has the value that was stored in it last, or the one it had, and the
banks are equal. So a history of calls between scans has the answers, the stack
and the cells of the interpreter with one memory and a list of stores. -/
theorem perScan_synchronous (program : Program) (config : Config)
    (policy : config.toggle = .perScan) :
    (∀ engine count next, Reached program config engine → engine.Completes count next →
      (∀ before < count, ∃ during,
        engine.stepMany before = (.ok (), during) ∧
          ∀ address, during.statement.instruction.source? = some address →
            ∃ value, engine.read address = .ok value ∧
              during.statement.instruction.cell during.memory = .ok value) ∧
      (∀ address < engine.memory.cells, ∃ value,
        engine.read address = .ok value ∧
          next.read address = .ok (((engine.stores count).reverse.lookup address).getD value)) ∧
      next.memory.live = next.memory.pending) ∧
    ∀ calls, (Engine.start program config).CalledBetweenScans calls →
      let actual := (Engine.start program config).answerAll calls
      let expected := (Reference.start program config).answerAll calls
      actual.1 = expected.1 ∧
        (actual.2.BetweenScans →
          actual.2.stack = expected.2.stack ∧
            ∀ address, actual.2.read address = expected.2.read address) := by
  constructor
  · intro engine count next reached completed
    have settled := reached.settled policy
    obtain ⟨loads, extent, live, final⟩ := settled.completes completed
    have value (address : Nat) (inside : address < engine.memory.cells) :
        engine.read address = .ok (engine.memory.liveAt address) := by
      rw [Engine.read, Memory.read_eq_ok inside]
      rfl
    refine ⟨?_, ?_, (Memory.live_eq_pending_iff _).mpr final.banks⟩
    · intro before early
      obtain ⟨during, run, accepted, sameExtent, sameCells⟩ := loads before early
      refine ⟨during, run, ?_⟩
      intro address looked
      obtain ⟨inside, seen⟩ := Instruction.cell_of_accepted accepted looked
      rw [← Memory.cells_extent, sameExtent] at inside
      exact ⟨_, value address inside, by rw [seen, sameCells]⟩
    · intro address inside
      refine ⟨_, value address inside, ?_⟩
      have nextInside : address < next.memory.cells := by
        rw [← Memory.cells_extent, extent]
        exact inside
      rw [Engine.read, Memory.read_eq_ok nextInside, live, Memory.afterStores_apply]
      rfl
  · intro calls called
    have agrees : (Reference.start program config).Agrees (Engine.start program config) :=
      ⟨⟨rfl, rfl⟩, rfl, policy, rfl, rfl, rfl, by simp [Engine.start, ofMemory, Reference.start],
        by simp [Engine.start, ofMemory, Reference.start]⟩
    obtain ⟨answers, boundary⟩ := agrees.answerAll called
    exact ⟨answers, fun between => ⟨(boundary between).stack, (boundary between).read⟩⟩

/-- A cell that is complemented in every scan, and a copy of it that is a scan behind. -/
theorem answers_eq_of_delayed_copy :
    let program : Program :=
      ⟨#[⟨1, ⟨.load true, some 0⟩⟩, ⟨2, ⟨.out, some 0⟩⟩, ⟨3, ⟨.load false, some 0⟩⟩,
        ⟨4, ⟨.out, some 1⟩⟩], by decide⟩
    let config : Config := { bankSize := 2, bounds := .strict, toggle := .perScan }
    let calls : List ScanCall := [.scan, .read 0, .read 1, .scan, .read 0, .read 1]
    let first := (Engine.start program config).scan.2
    let answers := ((Engine.start program config).answerAll calls).1
    first.memory.live = first.memory.pending ∧
      answers = ((Reference.start program config).answerAll calls).1 ∧
      answers = [.ok (.count 4), .ok (.value true), .ok (.value false),
        .ok (.count 4), .ok (.value false), .ok (.value true)] := by
  intro program config calls first answers
  have synchronous := perScan_synchronous program config rfl
  have completed : (Engine.start program config).Completes 4 first := .inl (by decide)
  have called : (Engine.start program config).CalledBetweenScans calls := by decide
  refine ⟨?_, (synchronous.2 calls called).1, by decide⟩
  exact (synchronous.1 _ _ _ .start completed).2.2

end Engine

end RelayLadder
