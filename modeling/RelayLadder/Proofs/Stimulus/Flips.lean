import Mathlib.Algebra.Group.Nat.Even
import Mathlib.Algebra.Order.Monoid.Unbundled.WithTop
import Mathlib.Tactic.NormNum
import RelayLadder.Proofs.Engine.Forced
import RelayLadder.Stimulus.Basic

/-!
What a stimulus does to an engine. Each listed address takes one draw, and the addresses
drawn below the rate are flipped in order. A flip reads the live bank and forces both, so a
cell ends up turned as often as it was flipped, with one value in both banks. A flip out
of bounds ends the pass where it stands.
-/

namespace RelayLadder

namespace DrawSource

variable {Source : Type} [DrawSource Source]

/-- The source after a number of draws. -/
def advance : Nat → Source → Source
  | 0, source => source
  | count + 1, source => advance count (draw source).2

theorem advance_succ (count : Nat) (source : Source) :
    advance (count + 1) source = advance count (draw source).2 := rfl

/-- The first draws of the source. -/
def draws (count : Nat) (source : Source) : List Nat :=
  (List.range count).map fun index => (draw (advance index source)).1

theorem draws_succ (count : Nat) (source : Source) :
    draws (count + 1) source = (draw source).1 :: draws count (draw source).2 := by
  rw [draws, List.range_succ_eq_map, List.map_cons, List.map_map]
  rfl

end DrawSource

namespace Rate

/-- The value of a rate on the line of the rationals with both its ends. -/
def level : Rate → Option (WithBot (WithTop ℚ))
  | finite value => some (value : WithTop ℚ)
  | unbounded true => some ⊥
  | unbounded false => some ⊤
  | undefined => none

/-- The rate is at most zero. -/
def AtMostZero (rate : Rate) : Prop := ∃ level ∈ rate.level, level ≤ 0

/-- A draw, as a fraction of all draws, lies below the rate. -/
def Admits (rate : Rate) (draw : Nat) : Prop :=
  ∃ level ∈ rate.level, ((draw / 2 ^ 53 : ℚ) : WithTop ℚ) < level

/-- Every number lies below the top end of the line. -/
theorem coe_lt_top (value : ℚ) : ((value : WithTop ℚ) : WithBot (WithTop ℚ)) < ⊤ :=
  WithBot.coe_lt_coe.mpr (WithTop.coe_lt_top value)

theorem isSilent_iff (rate : Rate) : rate.isSilent = true ↔ rate.AtMostZero := by
  cases rate with
  | finite value => simp [isSilent, AtMostZero, level]
  | unbounded negative =>
    cases negative with
    | true => simp [isSilent, AtMostZero, level]
    | false => simpa [isSilent, AtMostZero, level] using (coe_lt_top 0).ne
  | undefined => simp [isSilent, AtMostZero, level]

theorem exceeds_iff (rate : Rate) (draw : Nat) : rate.exceeds draw = true ↔ rate.Admits draw := by
  cases rate with
  | finite value =>
    have limit : (drawLimit : ℚ) = 2 ^ 53 := by norm_num [drawLimit]
    simp [exceeds, Admits, level, Rat.mkRat_eq_div, limit]
  | unbounded negative =>
    cases negative with
    | true => simp [exceeds, Admits, level]
    | false => simpa [exceeds, Admits, level] using coe_lt_top (draw / 2 ^ 53)
  | undefined => simp [exceeds, Admits, level]

instance (rate : Rate) (draw : Nat) : Decidable (rate.Admits draw) :=
  decidable_of_iff _ (rate.exceeds_iff draw)

/-- The addresses whose draws lie below the rate. -/
def drawn (rate : Rate) (addresses draws : List Nat) : List Nat :=
  ((addresses.zip draws).filter fun entry => rate.Admits entry.2).map Prod.fst

open DrawSource

variable {Source : Type} [DrawSource Source] {rate : Rate} {source : Source}

theorem drawn_of_admits (admitted : rate.Admits (draw source).1) (address count : Nat)
    (addresses : List Nat) :
    rate.drawn (address :: addresses) (draws (count + 1) source) =
      address :: rate.drawn addresses (draws count (draw source).2) := by
  rw [draws_succ]
  simp [drawn, admitted]

theorem drawn_of_not_admits (refused : ¬ rate.Admits (draw source).1) (address count : Nat)
    (addresses : List Nat) :
    rate.drawn (address :: addresses) (draws (count + 1) source) =
      rate.drawn addresses (draws count (draw source).2) := by
  rw [draws_succ]
  simp [drawn, refused]

end Rate

/-- A value turned around a number of times. -/
def turned (times : Nat) (value : Bool) : Bool := if Odd times then !value else value

theorem turned_succ (times : Nat) (value : Bool) :
    turned (times + 1) value = turned times (!value) := by
  by_cases odd : Odd times <;> simp [turned, Nat.odd_add_one, odd]

/-- The memory with a live cell complemented in both banks. -/
def Memory.flip (memory : Memory) (address : Nat) : Memory :=
  memory.setBoth address (!memory.liveAt address)

theorem Memory.bank_flip_of_ne (memory : Memory) {address other : Nat}
    (different : address ≠ other) :
    (memory.flip address).live[other]? = memory.live[other]? ∧
      (memory.flip address).pending[other]? = memory.pending[other]? := by
  constructor <;> simp [flip, setBoth, different]

namespace Engine

variable {engine after : Engine} {address : Nat} {flipped : List Nat}

theorem flip_of_inside (inside : address < engine.memory.cells) :
    engine.flip address = .ok { engine with memory := engine.memory.flip address } := by
  rw [flip, read_eq_ok inside]
  exact setInput_eq_ok_iff.mpr ⟨inside, rfl⟩

theorem flip_of_outside (outside : engine.memory.cells ≤ address) :
    engine.flip address = .error (.outOfBounds (engine.memory.outOfBounds address)) := by
  rw [flip, read, Memory.read_eq, if_neg (Nat.not_lt.mpr outside)]
  rfl

/-- The second engine is the first one with the cells of the list flipped: each cell is
turned as often as it is listed and then has one value in both banks, a cell that is not
listed keeps what it has in each of them, and so does everything but the cells. -/
structure Flips (engine after : Engine) (flipped : List Nat) : Prop where
  inside : ∀ address ∈ flipped, address < engine.memory.cells
  cells : ∀ address < engine.memory.cells, ∃ value,
    engine.read address = .ok value ∧
    after.read address = .ok (turned (flipped.count address) value) ∧
    (0 < flipped.count address →
      after.memory.HoldsAt address (turned (flipped.count address) value)) ∧
    (flipped.count address = 0 →
      after.memory.live[address]? = engine.memory.live[address]? ∧
      after.memory.pending[address]? = engine.memory.pending[address]?)
  extent : after.memory.extent = engine.memory.extent
  mode : after.memory.mode = engine.memory.mode
  rest : after = { engine with memory := after.memory }

theorem Flips.nil (engine : Engine) : engine.Flips engine [] where
  inside := by simp
  cells address inside := ⟨_, read_eq_ok inside, read_eq_ok inside, by simp, by simp⟩
  extent := rfl
  mode := rfl
  rest := rfl

/-- One more flip before the others. -/
theorem Flips.cons (inside : address < engine.memory.cells)
    (others : Flips { engine with memory := engine.memory.flip address } after flipped) :
    engine.Flips after (address :: flipped) where
  inside := List.forall_mem_cons.mpr ⟨inside, others.inside⟩
  cells other present := by
    obtain ⟨value, before, result, held, kept⟩ := others.cells other present
    have stays : other < (engine.memory.flip address).cells := present
    rw [read, Memory.read_eq_ok stays] at before
    have live := Except.ok.inj before
    rw [Memory.flip, Memory.liveAt_setBoth _ inside] at live
    refine ⟨_, read_eq_ok present, ?_⟩
    by_cases same : other = address
    · subst same
      rw [Function.update_self] at live
      subst live
      rw [List.count_cons_self, turned_succ]
      refine ⟨result, ?_, by simp⟩
      intro _
      rcases Nat.eq_zero_or_pos (flipped.count other) with unlisted | listed
      · -- No later flip comes to the cell, so it is as this one leaves it.
        obtain ⟨live, pending⟩ := kept unlisted
        have stored : (engine.memory.flip other).HoldsAt other (!engine.memory.liveAt other) :=
          .setBoth inside
        rw [unlisted]
        exact ⟨live.trans stored.live, pending.trans stored.pending⟩
      · exact held listed
    · rw [Function.update_of_ne same] at live
      subst live
      rw [List.count_cons_of_ne (Ne.symm same)]
      refine ⟨result, held, ?_⟩
      intro unlisted
      obtain ⟨live, pending⟩ := engine.memory.bank_flip_of_ne (Ne.symm same)
      obtain ⟨liveKept, pendingKept⟩ := kept unlisted
      exact ⟨liveKept.trans live, pendingKept.trans pending⟩
  extent := others.extent
  mode := others.mode
  rest := others.rest

end Engine

namespace Stimulus

open DrawSource

variable {Source : Type} [DrawSource Source] {rate : Rate} {addresses : List Nat}
variable {source : Source} {engine : Engine}

/-- How a pass over the addresses can end: with all of them drawn, or at the first one
that is drawn below the rate and out of bounds. -/
inductive Passes (rate : Rate) (addresses : List Nat) (source : Source) (engine : Engine) :
    Except Failure (List Nat) × Source × Engine → Prop where
  | through {after : Engine} {flipped : List Nat} :
      flipped = rate.drawn addresses (draws addresses.length source) →
      engine.Flips after flipped →
      Passes rate addresses source engine
        (.ok flipped, advance addresses.length source, after)
  | stopped {after : Engine} {before later : List Nat} {address : Nat} :
      addresses = before ++ address :: later →
      engine.Flips after (rate.drawn before (draws before.length source)) →
      rate.Admits (draw (advance before.length source)).1 →
      engine.memory.cells ≤ address →
      Passes rate addresses source engine
        (.error (.outOfBounds (engine.memory.outOfBounds address)),
          advance (before.length + 1) source, after)

namespace Passes

variable {address : Nat}

theorem skip (refused : ¬ rate.Admits (draw source).1)
    {outcome : Except Failure (List Nat) × Source × Engine}
    (passes : Passes rate addresses (draw source).2 engine outcome) :
    Passes rate (address :: addresses) source engine outcome := by
  cases passes with
  | through drawn flips =>
    rw [← advance_succ]
    exact .through (drawn.trans (Rate.drawn_of_not_admits refused _ _ _).symm) flips
  | @stopped after before later missing split flips admitted outside =>
    have split : address :: addresses = (address :: before) ++ missing :: later :=
      congrArg (List.cons address) split
    rw [← advance_succ] at admitted ⊢
    rw [← Rate.drawn_of_not_admits refused address] at flips
    exact .stopped split flips admitted outside

theorem flip (admitted : rate.Admits (draw source).1) (inside : address < engine.memory.cells)
    {result : Except Failure (List Nat)} {next : Source} {after : Engine}
    (passes : Passes rate addresses (draw source).2
      { engine with memory := engine.memory.flip address } (result, next, after)) :
    Passes rate (address :: addresses) source engine
      (result.map (address :: ·), next, after) := by
  cases passes with
  | through drawn flips =>
    subst drawn
    rw [← advance_succ]
    exact .through (Rate.drawn_of_admits admitted _ _ _).symm (flips.cons inside)
  | @stopped _ before later missing split flips missed outside =>
    have split : address :: addresses = (address :: before) ++ missing :: later :=
      congrArg (List.cons address) split
    have flips := flips.cons inside
    rw [← advance_succ] at missed ⊢
    rw [← Rate.drawn_of_admits admitted] at flips
    exact .stopped split flips missed outside

end Passes

theorem passes_disturb (rate : Rate) (addresses : List Nat) (source : Source)
    (engine : Engine) :
    Passes rate addresses source engine (From.disturb rate addresses source engine) := by
  induction addresses generalizing source engine with
  | nil => exact .through rfl (.nil engine)
  | cons address addresses inductionHypothesis =>
    by_cases admitted : rate.Admits (draw source).1
    · have below := (rate.exceeds_iff _).mpr admitted
      by_cases inside : address < engine.memory.cells
      · simp only [From.disturb, below, if_true, Engine.flip_of_inside inside]
        exact (inductionHypothesis _ _).flip admitted inside
      · have outside := Nat.le_of_not_lt inside
        simp only [From.disturb, below, if_true, Engine.flip_of_outside outside]
        have split : address :: addresses = [] ++ address :: addresses := rfl
        exact .stopped split (.nil engine) admitted outside
    · have above := (rate.exceeds_iff _).not.mpr admitted
      simp only [From.disturb, above]
      exact (inductionHypothesis _ _).skip admitted

/-- A stimulus flips the cells that it draws and changes nothing else, whatever its source. At
a rate of zero or less it draws nothing. Otherwise a pass that succeeds draws once for each
address, and one that fails does so at the first address that is drawn and is not there, with
the draws and flips made up to it. -/
theorem apply_flips_drawn (stimulus : From Source) (engine : Engine) :
    (stimulus.rate.AtMostZero → stimulus.apply engine = (.ok [], stimulus, engine)) ∧
    (¬ stimulus.rate.AtMostZero → ∀ result next after,
      stimulus.apply engine = (result, next, after) →
      (∀ flipped, result = .ok flipped →
        let count := stimulus.addresses.length
        next = { stimulus with source := advance count stimulus.source } ∧
        flipped = stimulus.rate.drawn stimulus.addresses (draws count stimulus.source) ∧
        engine.Flips after flipped) ∧
      ∀ failure, result = .error failure →
        ∃ before address later, stimulus.addresses = before ++ address :: later ∧
          let flipped := stimulus.rate.drawn before (draws before.length stimulus.source)
          (∀ other ∈ flipped, other < engine.memory.cells) ∧
          stimulus.rate.Admits (draw (advance before.length stimulus.source)).1 ∧
          engine.memory.cells ≤ address ∧
          failure = .outOfBounds ⟨address, engine.memory.size, engine.memory.bounds⟩ ∧
          next = { stimulus with source := advance (before.length + 1) stimulus.source } ∧
          engine.Flips after flipped) := by
  constructor
  · intro silent
    rw [From.apply, if_pos ((stimulus.rate.isSilent_iff).mpr silent)]
  · intro active result next after applied
    have passes := passes_disturb stimulus.rate stimulus.addresses stimulus.source engine
    rw [From.apply, if_neg ((stimulus.rate.isSilent_iff).not.mpr active)] at applied
    generalize From.disturb stimulus.rate stimulus.addresses stimulus.source engine = outcome
      at passes applied
    cases passes with
    | through drawn flips =>
      cases applied
      refine ⟨?_, by simp⟩
      rintro _ ⟨⟩
      exact ⟨rfl, drawn, flips⟩
    | stopped split flips admitted outside =>
      cases applied
      refine ⟨by simp, ?_⟩
      rintro _ ⟨⟩
      exact ⟨_, _, _, split, flips.inside, admitted, outside, rfl, rfl, flips⟩

/-- A halted engine whose banks differ: a cell that is not there does no harm unless it is
drawn, and then the flips before it stay. -/
theorem apply_flips_drawn_of_halted_engine :
    let program : Program := ⟨#[⟨1, ⟨.load false, none⟩⟩], by decide⟩
    let memory : Memory := ⟨1, .inclusive, #[false, true], #[true, true], true, rfl, rfl⟩
    let fault : Fault := ⟨0, 1, ⟨.load false, none⟩, .missingArgument⟩
    let engine := (Engine.ofMemory program {} memory).latch fault
    let spared : Stimulus := ofSeed [0, 9, 0, 1, 0] (.finite (1 / 2)) 9
    let refused : Stimulus := ofSeed [0, 9, 9, 1] (.finite (1 / 2)) 9
    (∃ next after, spared.apply engine = (.ok [0, 0, 1, 0], next, after) ∧
      next.source = advance 5 spared.source ∧
      after.memory.HoldsAt 0 true ∧ after.memory.HoldsAt 1 false ∧ after.fault = some fault) ∧
    ∃ next after, refused.apply engine =
        (.error (.outOfBounds ⟨9, 1, .inclusive⟩), next, after) ∧
      ∃ before later, [0, 9, 9, 1] = before ++ 9 :: later ∧
        next.source = advance (before.length + 1) refused.source ∧
        engine.Flips after
          (refused.rate.drawn before (draws before.length refused.source)) := by
  intro program memory fault engine spared refused
  have active : ¬ (Rate.finite (1 / 2)).AtMostZero :=
    (Rate.isSilent_iff _).not.mp (by decide +kernel)
  constructor
  · have result : (spared.apply engine).1 = .ok [0, 0, 1, 0] := by decide +kernel
    rcases applied : spared.apply engine with ⟨_, next, after⟩
    rw [applied] at result
    subst result
    obtain ⟨through, _⟩ := (apply_flips_drawn spared engine).2 active _ _ _ applied
    obtain ⟨drawn, _, flips⟩ := through _ rfl
    obtain ⟨_, first, _, firstHeld, _⟩ := flips.cells 0 (by decide)
    obtain ⟨_, second, _, secondHeld, _⟩ := flips.cells 1 (by decide)
    cases first
    cases second
    refine ⟨next, after, rfl, congrArg From.source drawn,
      firstHeld (by decide), secondHeld (by decide), ?_⟩
    rw [flips.rest]
    rfl
  · have result : (refused.apply engine).1 = .error (.outOfBounds ⟨9, 1, .inclusive⟩) := by
      decide +kernel
    rcases applied : refused.apply engine with ⟨_, next, after⟩
    rw [applied] at result
    subst result
    obtain ⟨_, stopped⟩ := (apply_flips_drawn refused engine).2 active _ _ _ applied
    obtain ⟨before, address, later, split, _, _, _, failure, drawn, flips⟩ := stopped _ rfl
    cases failure
    exact ⟨next, after, rfl, before, later, split, congrArg From.source drawn, flips⟩

end Stimulus

end RelayLadder
