import Mathlib.Algebra.Order.Field.Basic
import RelayLadder.Proofs.Engine.History
import RelayLadder.Proofs.Stimulus.Flips

/-!
Stimuli of one seed side by side. While the addresses are in bounds, a pass takes one draw
for each of them, whatever the rate, the engine and the outcome of earlier draws. So two
stimuli of one seed compare the same draws with their rates in every pass, and the lower
rate flips at no position where the higher one does not.
-/

namespace RelayLadder

namespace DrawSource

variable {Source : Type} [DrawSource Source]

theorem advance_add (earlier later : Nat) (source : Source) :
    advance (earlier + later) source = advance later (advance earlier source) := by
  induction earlier generalizing source with
  | zero => rw [Nat.zero_add, advance]
  | succ earlier inductionHypothesis =>
    rw [Nat.succ_add, advance_succ, advance_succ]
    exact inductionHypothesis (draw source).2

theorem length_draws (count : Nat) (source : Source) : (draws count source).length = count := by
  simp [draws]

theorem lt_of_mem_draws {count number : Nat} {source : Source}
    (member : number ∈ draws count source) : number < 2 ^ 53 := by
  obtain ⟨index, -, rfl⟩ := List.mem_map.mp member
  exact draw_lt _

/-- The source of a seed before a pass, if each pass before it takes a number of draws. -/
def atPass (Source : Type) [DrawSource Source] (seed count pass : Nat) : Source :=
  advance (pass * count) (ofSeed (UInt64.ofNat seed))

theorem atPass_succ (seed count pass : Nat) :
    atPass Source seed count (pass + 1) = advance count (atPass Source seed count pass) := by
  rw [atPass, Nat.succ_mul, advance_add, atPass]

end DrawSource

namespace Rate

/-- The rate is a number above zero. -/
def Positive (rate : Rate) : Prop := ∃ level ∈ rate.level, 0 < level

/-- Both rates are numbers, and the first is not the larger one. -/
def AtMost (lower higher : Rate) : Prop :=
  ∃ low ∈ lower.level, ∃ high ∈ higher.level, low ≤ high

/-- The rate is a number and not below one. -/
def AtLeastOne (rate : Rate) : Prop := ∃ level ∈ rate.level, 1 ≤ level

variable {rate lower higher : Rate} {draw : Nat} {addresses draws : List Nat}

theorem Positive.not_atMostZero (positive : rate.Positive) : ¬ rate.AtMostZero := by
  rintro ⟨level, known, small⟩
  obtain ⟨other, alsoKnown, large⟩ := positive
  cases Option.mem_unique known alsoKnown
  exact absurd large (not_lt.mpr small)

theorem Positive.mono (positive : lower.Positive) (atMost : lower.AtMost higher) :
    higher.Positive := by
  obtain ⟨level, known, large⟩ := positive
  obtain ⟨low, lowKnown, high, highKnown, ordered⟩ := atMost
  cases Option.mem_unique known lowKnown
  exact ⟨high, highKnown, large.trans_le ordered⟩

theorem AtLeastOne.positive (atLeast : rate.AtLeastOne) : rate.Positive := by
  obtain ⟨level, known, large⟩ := atLeast
  exact ⟨level, known, zero_lt_one.trans_le large⟩

theorem Admits.mono (atMost : lower.AtMost higher) (admitted : lower.Admits draw) :
    higher.Admits draw := by
  obtain ⟨level, known, below⟩ := admitted
  obtain ⟨low, lowKnown, high, highKnown, ordered⟩ := atMost
  cases Option.mem_unique known lowKnown
  exact ⟨high, highKnown, below.trans_le ordered⟩

/-- A draw is less than one as a fraction of all draws. -/
theorem AtLeastOne.admits (atLeast : rate.AtLeastOne) (small : draw < 2 ^ 53) :
    rate.Admits draw := by
  obtain ⟨level, known, large⟩ := atLeast
  have fraction : (draw / 2 ^ 53 : ℚ) < 1 := by
    rw [div_lt_one (by positivity)]
    exact_mod_cast small
  have below : ((draw / 2 ^ 53 : ℚ) : WithTop ℚ) < (1 : WithBot (WithTop ℚ)) := by
    exact_mod_cast fraction
  exact ⟨level, known, below.trans_le large⟩

theorem drawn_sublist (atMost : lower.AtMost higher) (addresses draws : List Nat) :
    (lower.drawn addresses draws).Sublist (higher.drawn addresses draws) := by
  apply List.Sublist.map
  apply List.monotone_filter_right
  intro entry admitted
  simp only [decide_eq_true_eq] at admitted ⊢
  exact admitted.mono atMost

theorem drawn_of_all_admitted (admitted : ∀ draw ∈ draws, rate.Admits draw)
    (enough : addresses.length ≤ draws.length) : rate.drawn addresses draws = addresses := by
  have all : (addresses.zip draws).filter (fun entry => rate.Admits entry.2) =
      addresses.zip draws := by
    apply List.filter_eq_self.mpr
    intro entry member
    exact decide_eq_true (admitted entry.2 (List.of_mem_zip member).2)
  rw [drawn, all]
  exact List.map_fst_zip enough

end Rate

namespace Stimulus

open DrawSource

variable {Source : Type} [DrawSource Source] {engine : Engine} {rate : Rate}
variable {addresses : List Nat}

/-- A pass over addresses in bounds goes through, with one draw for each of them, and flips
those that it answers. -/
theorem apply_of_inside (stimulus : From Source) (active : ¬ stimulus.rate.AtMostZero)
    (inside : ∀ address ∈ stimulus.addresses, address < engine.memory.cells) :
    let count := stimulus.addresses.length
    let flipped := stimulus.rate.drawn stimulus.addresses (draws count stimulus.source)
    ∃ after, engine.Flips after flipped ∧
      stimulus.apply engine =
        (.ok flipped, { stimulus with source := advance count stimulus.source }, after) := by
  intro count flipped
  have passes := passes_disturb stimulus.rate stimulus.addresses stimulus.source engine
  rw [From.apply, if_neg (stimulus.rate.isSilent_iff.not.mpr active)]
  generalize From.disturb stimulus.rate stimulus.addresses stimulus.source engine = outcome
    at passes
  cases passes with
  | through drawn flips =>
    subst drawn
    exact ⟨_, flips, rfl⟩
  | @stopped after before later address split flips admitted outside =>
    have listed : address ∈ stimulus.addresses := by simp [split]
    exact absurd (inside address listed) (Nat.not_lt.mpr outside)

/-- A stimulus and its engine before a pass, where the requests to the engine with the number
of a pass come before it. -/
def beforePass (calls : Nat → List Request) :
    Nat → From Source → Engine → From Source × Engine
  | 0, stimulus, engine => (stimulus, engine.serveAll (calls 0))
  | pass + 1, stimulus, engine =>
    let (stimulus, engine) := beforePass calls pass stimulus engine
    let (_, stimulus, engine) := stimulus.apply engine
    (stimulus, engine.serveAll (calls (pass + 1)))

/-- Every pass takes as many draws as there are addresses, so the source before a pass is known
from the seed and the number of the pass. -/
theorem beforePass_of_inside (Source : Type) [DrawSource Source] (active : ¬ rate.AtMostZero)
    (inside : ∀ address ∈ addresses, address < engine.memory.cells) (seed : Nat)
    (calls : Nat → List Request) (pass : Nat) :
    ∃ before, before.memory.extent = engine.memory.extent ∧
      beforePass calls pass (From.ofSeed addresses rate seed : From Source) engine =
        (⟨addresses, rate, atPass Source seed addresses.length pass⟩, before) := by
  induction pass with
  | zero =>
    refine ⟨_, engine.extent_serveAll (calls 0), ?_⟩
    rw [beforePass, atPass, Nat.zero_mul]
    rfl
  | succ pass inductionHypothesis =>
    obtain ⟨before, kept, reached⟩ := inductionHypothesis
    have cells : before.memory.cells = engine.memory.cells := congrArg Extent.cells kept
    rw [← cells] at inside
    obtain ⟨after, flips, applied⟩ := apply_of_inside
      (⟨addresses, rate, atPass Source seed addresses.length pass⟩ : From Source) active inside
    refine ⟨_, (after.extent_serveAll (calls (pass + 1))).trans (flips.extent.trans kept), ?_⟩
    simp only [beforePass, reached, applied, atPass_succ]

/-- The pass of a number answers these addresses, and flips their cells and nothing else in the
engine as the calls before it leave it. -/
def FlipsAt (calls : Nat → List Request) (pass : Nat) (stimulus : From Source)
    (engine : Engine) (flipped : List Nat) : Prop :=
  let before := beforePass calls pass stimulus engine
  ∃ next after, before.1.apply before.2 = (.ok flipped, next, after) ∧
    before.2.Flips after flipped

theorem flipsAt_of_inside (Source : Type) [DrawSource Source] (active : ¬ rate.AtMostZero)
    (inside : ∀ address ∈ addresses, address < engine.memory.cells) (seed : Nat)
    (calls : Nat → List Request) (pass : Nat) :
    FlipsAt calls pass (From.ofSeed addresses rate seed : From Source) engine
      (rate.drawn addresses
        (draws addresses.length (atPass Source seed addresses.length pass))) := by
  obtain ⟨before, extent, reached⟩ := beforePass_of_inside Source active inside seed calls pass
  have cells : before.memory.cells = engine.memory.cells := congrArg Extent.cells extent
  rw [← cells] at inside
  obtain ⟨after, flips, applied⟩ := apply_of_inside
    (⟨addresses, rate, atPass Source seed addresses.length pass⟩ : From Source) active inside
  rw [FlipsAt, reached]
  exact ⟨_, after, applied, flips⟩

/-- Flips are coupled across rates and blind to the engine. Two stimuli of one seed compare
the same draws with their rates in every pass, whatever their source is and whatever is done
to their engines before it: where the draw of a position lies below the lower rate, it lies
below the higher one. The cells of the positions drawn are what a pass flips, and a rate of
one or more flips all addresses in order. -/
theorem flips_coupled (Source : Type) [DrawSource Source] (seed : Nat) (addresses : List Nat)
    (lower higher : Rate) (first second : Engine)
    (firstInside : ∀ address ∈ addresses, address < first.memory.cells)
    (secondInside : ∀ address ∈ addresses, address < second.memory.cells)
    (firstCalls secondCalls : Nat → List Request) (pass : Nat) :
    let stimulus : Rate → From Source := fun rate => .ofSeed addresses rate seed
    let draws := draws addresses.length (atPass Source seed addresses.length pass)
    (lower.Positive → lower.AtMost higher → ∃ fewer more,
      FlipsAt firstCalls pass (stimulus lower) first fewer ∧
      FlipsAt secondCalls pass (stimulus higher) second more ∧
      draws.length = addresses.length ∧
      fewer = lower.drawn addresses draws ∧ more = higher.drawn addresses draws ∧
      (∀ draw ∈ draws, lower.Admits draw → higher.Admits draw) ∧
      fewer.Sublist more ∧ (lower = higher → fewer = more)) ∧
    (lower.AtLeastOne → FlipsAt firstCalls pass (stimulus lower) first addresses) := by
  intro stimulus draws
  constructor
  · intro positive atMost
    have active := positive.not_atMostZero
    have alsoActive := (positive.mono atMost).not_atMostZero
    refine ⟨_, _, flipsAt_of_inside Source active firstInside seed firstCalls pass,
      flipsAt_of_inside Source alsoActive secondInside seed secondCalls pass,
      length_draws _ _, rfl, rfl, ?_, Rate.drawn_sublist atMost _ _, ?_⟩
    · intro draw _ admitted
      exact admitted.mono atMost
    · rintro rfl
      rfl
  · intro atLeast
    have all : lower.drawn addresses draws = addresses := by
      apply Rate.drawn_of_all_admitted
      · intro draw member
        exact atLeast.admits (lt_of_mem_draws member)
      · exact Nat.le_of_eq (length_draws _ _).symm
    have flips := flipsAt_of_inside Source atLeast.positive.not_atMostZero
      firstInside seed firstCalls pass
    rwa [all] at flips

/-- The third pass on an engine that copies a cell and on one that a fault halts before each
pass: at half the draws one position is flipped, at three quarters another one as well. -/
theorem flips_coupled_past_fault :
    let copying : Program := ⟨#[⟨1, ⟨.load false, some 0⟩⟩, ⟨2, ⟨.out, some 1⟩⟩], by decide⟩
    let faulting : Program := ⟨#[⟨1, ⟨.out, some 0⟩⟩], by decide⟩
    let first := Engine.start copying { bankSize := 1 }
    let second := Engine.start faulting { bankSize := 4, toggle := .perScan }
    let copied : Nat → List Request := fun _ => [.setInput 0 true, .scan]
    let halted : Nat → List Request := fun _ => [.clearMemory, .reset, .step]
    let addresses := [0, 1, 0, 1]
    let stimulus : Rate → Stimulus := fun rate => ofSeed addresses rate 9
    FlipsAt copied 2 (stimulus (.finite (1 / 2))) first [0] ∧
      FlipsAt halted 2 (stimulus (.finite (3 / 4))) second [0, 1] ∧
      FlipsAt halted 2 (stimulus (.unbounded false)) second addresses := by
  intro copying faulting first second copied halted addresses stimulus
  have firstInside : ∀ address ∈ addresses, address < first.memory.cells := by decide
  have secondInside : ∀ address ∈ addresses, address < second.memory.cells := by decide
  have positive : (Rate.finite (1 / 2)).Positive := by simp [Rate.Positive, Rate.level]
  have atMost : (Rate.finite (1 / 2)).AtMost (.finite (3 / 4)) := by
    simp only [Rate.AtMost, Rate.level, Option.mem_some_iff]
    norm_num
  have atLeast : (Rate.unbounded false).AtLeastOne := by simp [Rate.AtLeastOne, Rate.level]
  obtain ⟨fewer, more, firstFlips, secondFlips, -, fewerDrawn, moreDrawn, -⟩ :=
    (flips_coupled Generator 9 addresses _ _ first second firstInside secondInside copied halted
      2).1 positive atMost
  have one : fewer = [0] := by
    rw [fewerDrawn]
    decide +kernel
  have two : more = [0, 1] := by
    rw [moreDrawn]
    decide +kernel
  subst one two
  refine ⟨firstFlips, secondFlips, ?_⟩
  exact (flips_coupled Generator 9 addresses _ (.unbounded false) second second secondInside
    secondInside halted halted 2).2 atLeast

end Stimulus

end RelayLadder
