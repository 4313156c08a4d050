import RelayLadder.Proofs.Engine.Termination

/-!
Scans under limits. A limit stops a scan after so many steps and changes nothing else, so
a scan that is taken up again and again goes the way of one that is never stopped.
-/

namespace RelayLadder

namespace Engine

variable {engine next final : Engine} {count taken limit : Nat} {result : Except Failure Unit}

theorem stepMany_add (first : engine.stepMany taken = (.ok (), next)) (more : Nat) :
    engine.stepMany (taken + more) = next.stepMany more := by
  induction taken generalizing engine with
  | zero =>
    cases first
    simp
  | succ taken inductionHypothesis =>
    obtain ⟨running, accepted, rest⟩ := stepMany_succ_eq_ok_iff.mp first
    have step := step_of_accepted running accepted
    simp only [Nat.succ_add, stepMany_of_step_ok step]
    exact inductionHypothesis rest

/-- An engine that a number of steps lead to, none of which failed. -/
structure Reaches (engine : Engine) (taken : Nat) (next : Engine) : Prop where
  steps : engine.stepMany taken = (.ok (), next)
  running : next.fault = none

namespace Reaches

theorem refl (running : engine.fault = none) : engine.Reaches 0 engine := ⟨rfl, running⟩

theorem trans {more : Nat} (first : engine.Reaches taken next) (second : next.Reaches more final) :
    engine.Reaches (taken + more) final :=
  ⟨(stepMany_add first.steps more).trans second.steps, second.running⟩

end Reaches

namespace Course

variable {outcome : Except Failure Unit × Engine}

/-- A limit below the length of a course stops the scan on the way, and what is left is the
rest of the course. -/
theorem scanOn_of_short (course : engine.Course count outcome) (running : engine.fault = none)
    {remaining : Nat} (short : remaining < count) (limit already : Nat) :
    ∃ next, engine.scanOn limit remaining already = (.error (.stepLimit limit), next) ∧
      engine.Reaches remaining next ∧ next.Course (count - remaining) outcome := by
  induction remaining generalizing engine count already with
  | zero => exact ⟨engine, rfl, .refl running, course⟩
  | succ remaining inductionHypothesis =>
    cases course with
    | fails step => omega
    | completes step returned => omega
    | @continues _ after count _ step unfinished rest =>
      obtain ⟨-, accepted, rfl⟩ := step_eq_ok_iff.mp step
      have stillRunning : engine.stepped.fault = none := running
      obtain ⟨next, stopped, reached, left⟩ :=
        inductionHypothesis rest stillRunning (Nat.lt_of_succ_lt_succ short) (already + 1)
      refine ⟨next, ?_, ⟨?_, reached.running⟩, ?_⟩
      · simpa [scanOn_of_step_ok step, unfinished] using stopped
      · exact (stepMany_of_step_ok step remaining).trans reached.steps
      · simpa using left

theorem scanWithin_of_short (course : engine.Course count outcome)
    (running : engine.fault = none) (short : limit < count) :
    ∃ next, engine.scanWithin limit = (.error (.stepLimit limit), next) ∧
      engine.Reaches limit next ∧ next.Course (count - limit) outcome :=
  course.scanOn_of_short running short limit 0

/-- Limits that do not add up to the length of a course take the engine as many steps along
it as they allow together. -/
theorem serveAll_of_short (course : engine.Course count outcome) (running : engine.fault = none)
    {limits : List Nat} (short : limits.sum < count) :
    engine.Reaches limits.sum (engine.serveAll (limits.map .scanWithin)) ∧
      (engine.serveAll (limits.map .scanWithin)).Course (count - limits.sum) outcome := by
  induction limits generalizing engine count with
  | nil => exact ⟨.refl running, course⟩
  | cons limit limits inductionHypothesis =>
    rw [List.sum_cons] at short ⊢
    obtain ⟨next, stopped, reached, left⟩ :=
      course.scanWithin_of_short running (Nat.lt_of_le_of_lt (Nat.le_add_right _ _) short)
    have served : (engine.serve (.scanWithin limit)).2 = next := by simp [serve, stopped]
    have further : engine.serveAll ((limit :: limits).map .scanWithin) =
        next.serveAll (limits.map .scanWithin) := by
      simp [serveAll, served]
    obtain ⟨onwards, rest⟩ := inductionHypothesis left reached.running (by omega)
    rw [further, ← Nat.sub_sub]
    exact ⟨reached.trans onwards, rest⟩

/-- The next call stops on the way again, or it gets to the end of the course. -/
theorem scanWithin_after (course : engine.Course count (result, final))
    (running : engine.fault = none) {limits : List Nat} (short : limits.sum < count)
    (limit : Nat) :
    let before := engine.serveAll (limits.map .scanWithin)
    (limits.sum + limit < count →
      ∃ next, before.scanWithin limit = (.error (.stepLimit limit), next) ∧
        engine.Reaches (limits.sum + limit) next) ∧
    (count ≤ limits.sum + limit →
      before.scanWithin limit = (result.map fun _ => count - limits.sum, final)) := by
  intro before
  obtain ⟨reached, left⟩ := course.serveAll_of_short running short
  constructor
  · intro stillShort
    obtain ⟨next, stopped, further, -⟩ :=
      left.scanWithin_of_short reached.running (Nat.lt_sub_iff_add_lt'.mpr stillShort)
    exact ⟨next, stopped, reached.trans further⟩
  · intro enough
    exact left.scanWithin_eq (Nat.sub_le_iff_le_add'.mpr enough)

end Course

/-- A scan in pieces. While the limits do not add up to the steps that the scan takes when
nothing stops it, each call exceeds its limit and leaves the engine that so many single
steps lead to. The first call that gets to the end answers as that scan does, with the
count of the steps that were left, and leaves the same engine. If the scan faults, there
is one instruction more to try than there are steps. -/
theorem limits_cut_scan {program : Program} {config : Config} {requests : List Request}
    (running : ((start program config).serveAll requests).fault = none)
    (limits : List Nat) (limit : Nat) :
    let engine := (start program config).serveAll requests
    let before := engine.serveAll (limits.map .scanWithin)
    let total := limits.sum + limit
    (∃ count result final, engine.Course count (result, final) ∧
      (result = .ok () ∨ ∃ fault, result = .error (.fault fault))) ∧
    (∀ count result final, engine.Course count (result, final) → config.stepLimit = none →
      engine.scan = (result.map fun _ => count, final)) ∧
    (∀ count final, engine.Course count (.ok (), final) → limits.sum < count →
      (total < count → ∃ next, before.scanWithin limit = (.error (.stepLimit limit), next) ∧
        engine.Reaches total next) ∧
      (count ≤ total → before.scanWithin limit = (.ok (count - limits.sum), final))) ∧
    ∀ steps fault final, engine.Course (steps + 1) (.error (.fault fault), final) →
      limits.sum ≤ steps →
      (total ≤ steps → ∃ next, before.scanWithin limit = (.error (.stepLimit limit), next) ∧
        engine.Reaches total next) ∧
      (steps < total → before.scanWithin limit = (.error (.fault fault), final)) := by
  intro engine before total
  have coherent : Coherent program config engine := .of_history program config requests
  have inside := coherent.inside running
  refine ⟨?ends, ?unlimited, ?completes, ?faults⟩
  case ends =>
    obtain ⟨count, ⟨result, final⟩, course⟩ := Course.exists_of_inside running inside
    refine ⟨count, result, final, course, ?_⟩
    rcases course.counters running inside with ⟨completed, -⟩ | ⟨fault, failed, -⟩
    · exact .inl completed
    · exact .inr ⟨fault, failed⟩
  case unlimited =>
    intro count result final course unlimited
    apply course.scan_eq running inside
    exact (stepLimit_serveAll _ requests).trans unlimited
  case completes =>
    intro count final course short
    exact course.scanWithin_after running short limit
  case faults =>
    intro steps fault final course short
    obtain ⟨stops, ends⟩ := course.scanWithin_after running (Nat.lt_succ_of_le short) limit
    refine ⟨?_, ends⟩
    intro within
    exact stops (Nat.lt_succ_of_le within)

/-- Two steps succeed and the third statement faults: a limit that ends right before it
does not report the fault, and one that is larger does. -/
theorem limits_cut_scan_before_fault :
    let program : Program :=
      ⟨#[⟨1, ⟨.load false, some 0⟩⟩, ⟨3, ⟨.load true, some 0⟩⟩, ⟨4, ⟨.out, some 0⟩⟩], by decide⟩
    let engine := (start program { bankSize := 0 }).serveAll [.setInput 0 true]
    let fault : Fault := ⟨2, 4, ⟨.out, some 0⟩, .stack ⟨.exactly 1, 2⟩⟩
    let before := engine.serveAll ([1, 0].map .scanWithin)
    ∃ final, engine.Course 3 (.error (.fault fault), final) ∧
      before.scanWithin 2 = (.error (.fault fault), final) ∧
      ∃ next, before.scanWithin 1 = (.error (.stepLimit 1), next) ∧ engine.Reaches 2 next := by
  intro program engine fault before
  have running : engine.fault = none := by decide
  have first : engine.step = (.ok (), engine.stepped) := by decide
  have second : engine.stepped.step = (.ok (), engine.stepped.stepped) := by decide
  have third : engine.stepped.stepped.step =
      (.error (.fault fault), (engine.stepMany 3).2) := by decide
  have course : engine.Course 3 (.error (.fault fault), (engine.stepMany 3).2) :=
    .continues first (by decide) (.continues second (by decide) (.fails third))
  obtain ⟨-, -, -, larger⟩ := limits_cut_scan running [1, 0] 2
  obtain ⟨-, -, -, equal⟩ := limits_cut_scan running [1, 0] 1
  refine ⟨_, course, ?_, ?_⟩
  · exact (larger 2 fault _ course (by decide)).2 (by decide)
  · exact (equal 2 fault _ course (by decide)).1 (by decide)

end Engine

end RelayLadder
