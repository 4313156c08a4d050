import RelayLadder.Command.Session

/-!
Runs that are limited to a number of rounds, side by side. What a run prints and whether it
fails is decided round by round, so a longer run does first what a shorter one does, and a
run that has failed is the same with any larger limit.
-/

namespace RelayLadder

namespace Session

variable {session next : Session} {failure : Failure}

/-- A round that succeeds: the stimulus, if there is one, is applied, and a scan completed. -/
inductive Follows : Session → Session → Prop where
  | undisturbed {engine scanned : Engine} {taken : Nat} :
      engine.scan = (.ok taken, scanned) → Follows ⟨engine, none⟩ ⟨scanned, none⟩
  | disturbed {engine flipped scanned : Engine} {stimulus drawn : Stimulus} {taken : Nat}
      {addresses : List Nat} :
      stimulus.apply engine = (.ok addresses, drawn, flipped) →
      flipped.scan = (.ok taken, scanned) → Follows ⟨engine, some stimulus⟩ ⟨scanned, some drawn⟩

/-- A round that fails, in its stimulus or in its scan. -/
inductive Breaks : Session → Failure → Prop where
  | undisturbed {engine scanned : Engine} {failure : Failure} :
      engine.scan = (.error failure, scanned) → Breaks ⟨engine, none⟩ failure
  | stimulus {engine flipped : Engine} {stimulus drawn : Stimulus} {failure : Failure} :
      stimulus.apply engine = (.error failure, drawn, flipped) →
      Breaks ⟨engine, some stimulus⟩ failure
  | disturbed {engine flipped scanned : Engine} {stimulus drawn : Stimulus} {failure : Failure}
      {addresses : List Nat} :
      stimulus.apply engine = (.ok addresses, drawn, flipped) →
      flipped.scan = (.error failure, scanned) → Breaks ⟨engine, some stimulus⟩ failure

theorem Follows.round_eq (follows : session.Follows next) : session.round = .ok next := by
  cases follows with
  | undisturbed scanned => simp [round, disturb, scan, scanned, bind, Except.bind]
  | disturbed applied scanned => simp [round, disturb, scan, applied, scanned, bind, Except.bind]

theorem Breaks.round_eq (breaks : session.Breaks failure) : session.round = .error failure := by
  cases breaks with
  | undisturbed scanned => simp [round, disturb, scan, scanned, bind, Except.bind]
  | stimulus applied => simp [round, disturb, applied, bind, Except.bind]
  | disturbed applied scanned => simp [round, disturb, scan, applied, scanned, bind, Except.bind]

/-- Every round succeeds or fails. -/
theorem follows_or_breaks (session : Session) :
    (∃ next, session.Follows next) ∨ ∃ failure, session.Breaks failure := by
  rcases session with ⟨engine, _ | stimulus⟩
  · rcases scanned : engine.scan with ⟨failure | taken, after⟩
    · exact .inr ⟨failure, .undisturbed scanned⟩
    · exact .inl ⟨_, .undisturbed scanned⟩
  · rcases applied : stimulus.apply engine with ⟨failure | addresses, drawn, flipped⟩
    · exact .inr ⟨failure, .stimulus applied⟩
    · rcases scanned : flipped.scan with ⟨failure | taken, after⟩
      · exact .inr ⟨failure, .disturbed applied scanned⟩
      · exact .inl ⟨_, .disturbed applied scanned⟩

theorem Follows.play_succ (follows : session.Follows next) (rounds : Nat) :
    session.play (rounds + 1) = (next.block :: (next.play rounds).1, (next.play rounds).2) := by
  rw [play, follows.round_eq]

theorem Breaks.play_succ (breaks : session.Breaks failure) (rounds : Nat) :
    session.play (rounds + 1) = ([], some failure) := by
  rw [play, breaks.round_eq]

end Session

namespace RunPlan

variable {plan : RunPlan} {program : Program} {session next : Session} {failure : Failure}

/-- The session that a run starts with: a new engine with the inputs forced, and a stimulus
if any cells are listed for it. -/
inductive Begins (plan : RunPlan) (program : Program) : Session → Prop where
  | of {engine forced : Engine} {stimulus : Option Stimulus} :
      Engine.start? program plan.config = .ok engine →
      engine.force plan.inputs = .ok forced →
      (plan.stimulus = [] → stimulus = none) →
      (plan.stimulus ≠ [] → stimulus = some (.ofSeed plan.stimulus plan.rate plan.seed)) →
      Begins plan program ⟨forced, stimulus⟩

/-- A run that fails before its first round: there is no engine, or an input is out of
bounds. -/
inductive Refuses (plan : RunPlan) (program : Program) : Failure → Prop where
  | engine {failure : Failure} :
      Engine.start? program plan.config = .error failure → Refuses plan program failure
  | inputs {engine : Engine} {failure : Failure} :
      Engine.start? program plan.config = .ok engine →
      engine.force plan.inputs = .error failure → Refuses plan program failure

/-- The sessions after a number of rounds, none of which fails. -/
inductive Reaches (plan : RunPlan) (program : Program) : Nat → Session → Prop where
  | start {session : Session} : plan.Begins program session → Reaches plan program 0 session
  | round {completed : Nat} {session next : Session} :
      Reaches plan program completed session → session.Follows next →
      Reaches plan program (completed + 1) next

/-- The round after a number of others fails. -/
def FailsAfter (plan : RunPlan) (program : Program) (completed : Nat) (failure : Failure) : Prop :=
  ∃ session, plan.Reaches program completed session ∧ session.Breaks failure

/-- A text of one block for each of a number of rounds: the dump of the memory as the round
leaves it, and a line of thirty dashes. -/
def Prints (plan : RunPlan) (program : Program) (rounds : Nat) (text : String) : Prop :=
  ∃ blocks : List String, text = String.join blocks ∧ blocks.length = rounds ∧
    ∀ index < rounds, ∃ session, plan.Reaches program (index + 1) session ∧
      blocks[index]? =
        some (session.engine.memory.dump ++ String.ofList (List.replicate 30 '-') ++ "\n")

theorem Begins.ofPlan_eq (begins : plan.Begins program session) :
    Session.ofPlan plan program = .ok session := by
  obtain ⟨started, forced, absent, present⟩ := begins
  simp only [Session.ofPlan, started, forced, bind, Except.bind, pure, Except.pure]
  by_cases unlisted : plan.stimulus = []
  · rw [if_pos unlisted, absent unlisted]
  · rw [if_neg unlisted, present unlisted]

theorem Refuses.ofPlan_eq (refuses : plan.Refuses program failure) :
    Session.ofPlan plan program = .error failure := by
  cases refuses with
  | engine started => simp [Session.ofPlan, started, bind, Except.bind]
  | inputs started forced => simp [Session.ofPlan, started, forced, bind, Except.bind]

theorem begins_or_refuses (plan : RunPlan) (program : Program) :
    (∃ session, plan.Begins program session) ∨ ∃ failure, plan.Refuses program failure := by
  cases started : Engine.start? program plan.config with
  | error failure => exact .inr ⟨failure, .engine started⟩
  | ok engine =>
    cases forced : engine.force plan.inputs with
    | error failure => exact .inr ⟨failure, .inputs started forced⟩
    | ok ready =>
      left
      by_cases unlisted : plan.stimulus = []
      · exact ⟨_, .of started forced (fun _ => rfl) (fun listed => absurd unlisted listed)⟩
      · exact ⟨_, .of started forced (fun empty => absurd empty unlisted) (fun _ => rfl)⟩

/-- A number of rounds is reached, or the run fails on the way. -/
theorem reaches_or_fails (plan : RunPlan) (program : Program) (rounds : Nat) :
    (∃ session, plan.Reaches program rounds session) ∨
    ∃ failure, plan.Refuses program failure ∨
      ∃ completed < rounds, plan.FailsAfter program completed failure := by
  induction rounds with
  | zero =>
    rcases plan.begins_or_refuses program with ⟨session, begins⟩ | ⟨failure, refuses⟩
    · exact .inl ⟨session, .start begins⟩
    · exact .inr ⟨failure, .inl refuses⟩
  | succ rounds inductionHypothesis =>
    rcases inductionHypothesis with
      ⟨session, reached⟩ | ⟨failure, refuses | ⟨completed, before, fails⟩⟩
    · rcases session.follows_or_breaks with ⟨next, follows⟩ | ⟨failure, breaks⟩
      · exact .inl ⟨next, .round reached follows⟩
      · exact .inr ⟨failure, .inr ⟨rounds, Nat.lt_succ_self rounds, session, reached, breaks⟩⟩
    · exact .inr ⟨failure, .inl refuses⟩
    · exact .inr ⟨failure, .inr ⟨completed, Nat.lt_succ_of_lt before, fails⟩⟩

theorem Prints.zero (plan : RunPlan) (program : Program) : plan.Prints program 0 "" :=
  ⟨[], rfl, rfl, by simp⟩

theorem Prints.succ {completed : Nat} {text : String} (printed : plan.Prints program completed text)
    (reached : plan.Reaches program (completed + 1) next) :
    plan.Prints program (completed + 1) (text ++ next.block) := by
  obtain ⟨blocks, rfl, length, block⟩ := printed
  refine ⟨blocks ++ [next.block], ?_, ?_, ?_⟩
  · simp
  · simp [length]
  · intro index bound
    rcases Nat.lt_succ_iff_lt_or_eq.mp bound with earlier | rfl
    · obtain ⟨session, before, found⟩ := block index earlier
      refine ⟨session, before, ?_⟩
      rwa [List.getElem?_append_left (by omega)]
    · refine ⟨next, reached, ?_⟩
      rw [← length, List.getElem?_concat_length]
      rfl

/-- From a session that a run reaches, it goes on as the session does, below what it has
printed so far. -/
theorem Reaches.transcript_add {completed : Nat}
    (reached : plan.Reaches program completed session) :
    ∃ text, plan.Prints program completed text ∧ ∀ rounds,
      plan.transcript program (completed + rounds) =
        (text ++ String.join (session.play rounds).1, (session.play rounds).2) := by
  induction reached with
  | start begins =>
    refine ⟨"", .zero plan program, ?_⟩
    intro rounds
    simp [transcript, begins.ofPlan_eq]
  | round reached follows inductionHypothesis =>
    obtain ⟨text, printed, later⟩ := inductionHypothesis
    refine ⟨_, printed.succ (.round reached follows), ?_⟩
    intro rounds
    rw [Nat.add_right_comm, Nat.add_assoc, later, follows.play_succ, String.join_cons,
      String.append_assoc]

theorem Refuses.transcript_eq (refuses : plan.Refuses program failure) (rounds : Nat) :
    plan.transcript program rounds = ("", some failure) := by
  rw [transcript, refuses.ofPlan_eq]

/-- A failure leaves the blocks of the rounds before it, whatever the limit is. -/
theorem FailsAfter.transcript_eq {completed : Nat}
    (fails : plan.FailsAfter program completed failure) :
    ∃ text, plan.Prints program completed text ∧ ∀ rounds, completed < rounds →
      plan.transcript program rounds = (text, some failure) := by
  obtain ⟨session, reached, breaks⟩ := fails
  obtain ⟨text, printed, later⟩ := reached.transcript_add
  refine ⟨text, printed, ?_⟩
  intro rounds above
  obtain ⟨more, rfl⟩ := Nat.exists_eq_add_of_lt above
  rw [Nat.add_assoc, later, breaks.play_succ, String.join_nil, String.append_empty]

theorem Reaches.transcript_eq {rounds : Nat} (reached : plan.Reaches program rounds session) :
    ∃ text, plan.Prints program rounds text ∧ plan.transcript program rounds = (text, none) ∧
      ∀ larger, rounds ≤ larger → ∃ rest, (plan.transcript program larger).1 = text ++ rest := by
  obtain ⟨text, printed, later⟩ := reached.transcript_add
  refine ⟨text, printed, ?_, ?_⟩
  · have now := later 0
    rwa [Session.play, String.join_nil, String.append_empty] at now
  · intro larger bound
    obtain ⟨more, rfl⟩ := Nat.exists_eq_add_of_le bound
    rw [later]
    exact ⟨_, rfl⟩

theorem transcript_failed_iff {rounds : Nat} :
    (plan.transcript program rounds).2 = some failure ↔
      plan.Refuses program failure ∨
        ∃ completed < rounds, plan.FailsAfter program completed failure := by
  constructor
  · intro failed
    rcases plan.reaches_or_fails program rounds with
      ⟨session, reached⟩ | ⟨other, refuses | ⟨completed, before, fails⟩⟩
    · obtain ⟨text, -, result, -⟩ := reached.transcript_eq
      rw [result] at failed
      contradiction
    · rw [refuses.transcript_eq] at failed
      cases failed
      exact .inl refuses
    · obtain ⟨text, -, result⟩ := fails.transcript_eq
      rw [result rounds before] at failed
      cases failed
      exact .inr ⟨completed, before, fails⟩
  · rintro (refuses | ⟨completed, before, fails⟩)
    · rw [refuses.transcript_eq]
    · obtain ⟨text, -, result⟩ := fails.transcript_eq
      rw [result rounds before]

theorem reaches_of_succeeded {rounds : Nat}
    (succeeded : (plan.transcript program rounds).2 = none) :
    ∃ session, plan.Reaches program rounds session := by
  rcases plan.reaches_or_fails program rounds with reached | ⟨failure, cause⟩
  · exact reached
  · have failed := transcript_failed_iff.mpr cause
    rw [succeeded] at failed
    contradiction

/-- The output of a run is stable in its limit. A run that fails is the same with any larger
limit. One that succeeds prints a block for each of its rounds, and a longer run prints
this first. A run fails exactly if its engine or an input is refused, with nothing printed,
or one of its rounds fails, with the blocks of the rounds before it. -/
theorem transcript_prefix_stable (plan : RunPlan) (program : Program) {fewer more : Nat}
    (bound : fewer ≤ more) :
    let shorter := plan.transcript program fewer
    let longer := plan.transcript program more
    (∀ failure, shorter.2 = some failure → longer = shorter) ∧
    (shorter.2 = none →
      plan.Prints program fewer shorter.1 ∧ ∃ rest, longer.1 = shorter.1 ++ rest) ∧
    (∀ failure, longer.2 = some failure ↔
      plan.Refuses program failure ∨
        ∃ completed < more, plan.FailsAfter program completed failure) ∧
    (∀ failure, plan.Refuses program failure → longer.1 = "") ∧
    ∀ completed < more, ∀ failure, plan.FailsAfter program completed failure →
      plan.Prints program completed longer.1 := by
  intro shorter longer
  refine ⟨?fails, ?succeeds, fun _ => transcript_failed_iff, ?refuses, ?round⟩
  case fails =>
    intro failure failed
    rcases transcript_failed_iff.mp failed with refuses | ⟨completed, before, fails⟩
    · exact (refuses.transcript_eq more).trans (refuses.transcript_eq fewer).symm
    · obtain ⟨text, -, result⟩ := fails.transcript_eq
      exact (result more (Nat.lt_of_lt_of_le before bound)).trans (result fewer before).symm
  case succeeds =>
    intro succeeded
    obtain ⟨session, reached⟩ := reaches_of_succeeded succeeded
    obtain ⟨text, printed, result, later⟩ := reached.transcript_eq
    have output : shorter.1 = text := congrArg Prod.fst result
    rw [output]
    exact ⟨printed, later more bound⟩
  case refuses =>
    intro failure refuses
    exact congrArg Prod.fst (refuses.transcript_eq more)
  case round =>
    intro completed before failure fails
    obtain ⟨text, printed, result⟩ := fails.transcript_eq
    have output : longer.1 = text := congrArg Prod.fst (result more before)
    rw [output]
    exact printed

/-- A run whose second round meets the value that the first one has left on the stack. -/
theorem transcript_prefix_stable_of_leftover :
    let program : Program := ⟨#[⟨1, ⟨.load false, some 0⟩⟩, ⟨2, ⟨.out, some 1⟩⟩,
      ⟨3, ⟨.load false, some 1⟩⟩], by decide⟩
    let plan : RunPlan :=
      { origin := .demo .selfToggle, config := { bankSize := 2 }, scans := some 5, intervalMs := 0,
        inputs := [(1, false)], stimulus := [0], rate := .finite 1, seed := 9 }
    let fault : Fault := ⟨1, 2, ⟨.out, some 1⟩, .stack ⟨.exactly 1, 2⟩⟩
    plan.transcript program 1 = ("00-0F: 10\n------------------------------\n", none) ∧
      plan.Prints program 1 (plan.transcript program 1).1 ∧
      (plan.transcript program 2).2 = some (.fault fault) ∧
      (∃ rest, (plan.transcript program 2).1 = (plan.transcript program 1).1 ++ rest) ∧
      plan.transcript program 5 = plan.transcript program 2 := by
  intro program plan fault
  have first : plan.transcript program 1 =
      ("00-0F: 10\n------------------------------\n", none) := by decide +kernel
  have second : (plan.transcript program 2).2 = some (.fault fault) := by decide +kernel
  have extended : 1 ≤ 2 := by decide
  have further : 2 ≤ 5 := by decide
  obtain ⟨-, succeeds, -⟩ := plan.transcript_prefix_stable program extended
  obtain ⟨printed, rest⟩ := succeeds (congrArg Prod.snd first)
  obtain ⟨fails, -⟩ := plan.transcript_prefix_stable program further
  exact ⟨first, printed, second, rest, fails _ second⟩

end RunPlan

end RelayLadder
