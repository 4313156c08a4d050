import Mathlib.Algebra.Order.Ring.Nat
import Mathlib.Data.List.Nodup
import RelayLadder.Proofs.Bench.Run
import RelayLadder.Proofs.Traversal
import RelayLadder.TruthTable.Basic

/-!
Truth tables are complete, in counting order, and do not depend on the order in which
their rows are computed: either every row can be computed, or all fail in the same way.
-/

namespace RelayLadder

/-- The binary form of a number in a width, the most significant digit first. -/
def binary (width number : Nat) : List Bool :=
  (List.range width).map fun place => number.testBit (width - 1 - place)

@[simp] theorem length_binary (width number : Nat) : (binary width number).length = width := by
  simp [binary]

theorem binary_succ (width number : Nat) :
    binary (width + 1) number = number.testBit width :: binary width number := by
  rw [binary, List.range_succ_eq_map, List.map_cons, List.map_map]
  apply congrArg (List.cons (number.testBit width))
  apply List.map_congr_left
  intro place _
  have shifted : width + 1 - 1 - (place + 1) = width - 1 - place := by omega
  exact congrArg number.testBit shifted

/-- A digit beyond the width changes nothing below it. -/
theorem binary_add_power (width number : Nat) :
    binary width (2 ^ width + number) = binary width number := by
  apply List.map_congr_left
  intro place member
  apply Nat.testBit_two_pow_add_gt
  have bound := List.mem_range.mp member
  omega

/-- Assignments are listed as the numbers that they spell. -/
theorem assignments_eq_binary (width : Nat) :
    assignments width = (List.range (2 ^ width)).map (binary width) := by
  induction width with
  | zero => rfl
  | succ width inductionHypothesis =>
    have lower : (List.range (2 ^ width)).map (binary (width + 1)) =
        (assignments width).map (false :: ·) := by
      rw [inductionHypothesis, List.map_map]
      apply List.map_congr_left
      intro number member
      have small := Nat.testBit_lt_two_pow (List.mem_range.mp member)
      rw [binary_succ, small]
      rfl
    have upper :
        (List.range (2 ^ width)).map (fun number => binary (width + 1) (2 ^ width + number)) =
          (assignments width).map (true :: ·) := by
      rw [inductionHypothesis, List.map_map]
      apply List.map_congr_left
      intro number member
      have small := Nat.testBit_lt_two_pow (List.mem_range.mp member)
      rw [binary_succ, Nat.testBit_two_pow_add_eq, small, binary_add_power]
      rfl
    rw [Nat.pow_succ, Nat.mul_two, List.range_add, List.map_append, List.map_map, lower]
    exact congrArg _ upper.symm

theorem mem_assignments_iff {width : Nat} {values : List Bool} :
    values ∈ assignments width ↔ values.length = width := by
  induction width generalizing values with
  | zero => simp [assignments]
  | succ width inductionHypothesis =>
    cases values with
    | nil => simp [assignments]
    | cons value values =>
      cases value <;> simp [assignments, inductionHypothesis]

/-- Assignments are listed in lexicographic order. -/
theorem assignments_increase (width : Nat) : (assignments width).Pairwise (· < ·) := by
  induction width with
  | zero => exact List.pairwise_singleton _ _
  | succ width inductionHypothesis =>
    rw [assignments, List.pairwise_append, List.pairwise_map, List.pairwise_map]
    refine ⟨?_, ?_, ?_⟩
    · exact inductionHypothesis.imp List.Lex.cons
    · exact inductionHypothesis.imp List.Lex.cons
    · intro lower lowerMember upper upperMember
      obtain ⟨low, _, rfl⟩ := List.mem_map.mp lowerMember
      obtain ⟨high, _, rfl⟩ := List.mem_map.mp upperMember
      exact List.Lex.rel rfl

theorem count_assignments {width : Nat} {values : List Bool} (fits : values.length = width) :
    (assignments width).count values = 1 := by
  apply List.count_eq_one_of_mem
  · apply (assignments_increase width).imp
    intro first second increases same
    exact List.lt_irrefl second (same ▸ increases)
  · exact mem_assignments_iff.mpr fits

/-- What results that were computed in any order may be collected into: their values in the
order of the results, or the failure of any of them. -/
inductive Collected {Value : Type} (results : List (Except Failure Value)) :
    Except Failure (List Value) → Prop where
  | ok {values} : results = values.map .ok → Collected results (.ok values)
  | error {failure} : .error failure ∈ results → Collected results (.error failure)

namespace Collected

variable {Item Value : Type}

/-- One after another is an order too. -/
theorem of_mapM (compute : Item → Except Failure Value) (items : List Item) :
    Collected (items.map compute) (items.mapM compute) := by
  cases run : items.mapM compute with
  | error failure =>
    obtain ⟨before, item, after, rfl, _, failed⟩ := Traversal.mapM_eq_error_iff.mp run
    apply Collected.error
    rw [← failed]
    exact List.mem_map_of_mem (List.mem_append_right before List.mem_cons_self)
  | ok values =>
    have computed : List.Forall₂ Eq (items.map compute) (values.map .ok) := by
      rw [List.forall₂_map_left_iff, List.forall₂_map_right_iff]
      exact Traversal.mapM_eq_ok_iff.mp run
    rw [List.forall₂_eq_eq_eq] at computed
    exact .ok computed

/-- Where all fail alike, the order of computation does not show. -/
theorem unique {results : List (Except Failure Value)} {first second : Except Failure (List Value)}
    (alike : ∀ one ∈ results, ∀ other ∈ results, ∀ failure,
      one = .error failure → other = .error failure)
    (collected : Collected results first) (again : Collected results second) :
    first = second := by
  cases collected with
  | ok computed =>
    cases again with
    | ok others =>
      have same := computed.symm.trans others
      rw [List.map_injective_iff.mpr (fun _ _ => Except.ok.inj) same]
    | error failed =>
      rw [computed] at failed
      simp at failed
  | error failed =>
    cases again with
    | ok computed =>
      rw [computed] at failed
      simp at failed
    | error failedToo => exact congrArg _ (Except.error.inj (alike _ failedToo _ failed _ rfl))

end Collected

namespace Bench

/-- The rows of a truth table in order, whether they can be computed or not. -/
def rows (bench : Bench) (inputs : List Nat) : List (Except Failure Row) :=
  (List.range (2 ^ inputs.length)).map fun number =>
    bench.row inputs (binary inputs.length number)

variable {bench : Bench} {inputs : List Nat}

theorem row_eq_ok_iff {values : List Bool} {row : Row} :
    bench.row inputs values = .ok row ↔
      row.inputs = values ∧ bench.run (inputs.zip values) = .ok row.outputs := by
  rcases row with ⟨own, outputs⟩
  rw [Bench.row]
  cases bench.run (inputs.zip values) with
  | ok computed => simp [bind, Except.bind, pure, Except.pure, eq_comm]
  | error failure => simp [bind, Except.bind]

theorem row_eq_error_iff {values : List Bool} {failure : Failure} :
    bench.row inputs values = .error failure ↔
      bench.run (inputs.zip values) = .error failure := by
  rw [Bench.row]
  cases bench.run (inputs.zip values) with
  | ok computed => simp [bind, Except.bind, pure, Except.pure]
  | error other => simp [bind, Except.bind]

/-- The values that an assignment gives do not decide how its row fails. -/
theorem rows_fail_alike (bench : Bench) (inputs : List Nat) :
    ∀ one ∈ bench.rows inputs, ∀ other ∈ bench.rows inputs, ∀ failure,
      one = .error failure → other = .error failure := by
  rintro _ oneMember _ otherMember failure failed
  obtain ⟨one, _, rfl⟩ := List.mem_map.mp oneMember
  obtain ⟨other, _, rfl⟩ := List.mem_map.mp otherMember
  have names (number : Nat) :
      (inputs.zip (binary inputs.length number)).map Prod.fst = inputs := by
    rw [List.map_fst_zip]
    rw [length_binary]
  rw [row_eq_error_iff] at failed ⊢
  rcases bench.run_matches_of_names ((names one).trans (names other).symm) with
    ⟨common, first, second⟩ | ⟨outputs, _, first, _⟩
  · rw [second, ← first, failed]
  · cases first.symm.trans failed

/-- A table that is not too wide collects its rows. -/
theorem collected_truthTable (narrow : inputs.length ≤ widestTable) :
    Collected (bench.rows inputs) (bench.truthTable inputs) := by
  have collected := Collected.of_mapM (bench.row inputs) (assignments inputs.length)
  rw [truthTable, if_neg (Nat.not_lt.mpr narrow)]
  rwa [assignments_eq_binary, List.map_map, ← assignments_eq_binary] at collected

theorem inputs_of_rows {items : List (List Bool)} {rows : List Row}
    (computed : items.map (bench.row inputs) = rows.map .ok) : rows.map Row.inputs = items := by
  induction items generalizing rows with
  | nil =>
    obtain rfl := List.map_eq_nil_iff.mp computed.symm
    rfl
  | cons item items inductionHypothesis =>
    obtain ⟨row, rows, rfl, first, others⟩ := List.map_eq_cons_iff.mp computed.symm
    rw [List.map_cons, inductionHypothesis others.symm, (row_eq_ok_iff.mp first.symm).1]

theorem row_of_rows {rows : List Row} (computed : bench.rows inputs = rows.map .ok) {number : Nat}
    (bound : number < 2 ^ inputs.length) :
    ∃ outputs, rows[number]? = some ⟨binary inputs.length number, outputs⟩ ∧
      bench.run (inputs.zip (binary inputs.length number)) = .ok outputs := by
  have place := congrArg (fun results => results[number]?) computed
  simp only [Bench.rows, List.getElem?_map, List.getElem?_range bound, Option.map_some] at place
  obtain ⟨row, found, result⟩ := Option.map_eq_some_iff.mp place.symm
  obtain ⟨own, outputs⟩ := row_eq_ok_iff.mp result.symm
  refine ⟨row.outputs, ?_, outputs⟩
  rw [found, ← own]

/-- A truth table is complete, ordered and independent of the order in which its rows are
computed. Either every row can be computed and stands at the number that its inputs spell,
so that the inputs increase and each assignment occurs once, or every row fails in the same
way. Whatever the rows may be collected into, it is this table. A table that is too wide
is refused, whatever the bench. -/
theorem truthTable_complete (bench : Bench) (inputs : List Nat) :
    let width := inputs.length
    (width ≤ 20 →
      ((∃ rows, bench.truthTable inputs = .ok rows ∧ rows.length = 2 ^ width ∧
          (∀ number < 2 ^ width, ∃ outputs, rows[number]? = some ⟨binary width number, outputs⟩ ∧
            bench.run (inputs.zip (binary width number)) = .ok outputs) ∧
          (rows.map Row.inputs).Pairwise (· < ·) ∧
          ∀ values, values.length = width → (rows.map Row.inputs).count values = 1) ∨
        ∃ failure, bench.truthTable inputs = .error failure ∧
          ∀ number < 2 ^ width,
            bench.run (inputs.zip (binary width number)) = .error failure) ∧
      ∀ result, Collected (bench.rows inputs) result ↔ result = bench.truthTable inputs) ∧
    (20 < width → bench.truthTable inputs = .error (.tableTooWide width 20)) := by
  intro width
  refine ⟨?narrow, fun wide => if_pos wide⟩
  intro narrow
  have collected : Collected (bench.rows inputs) (bench.truthTable inputs) :=
    collected_truthTable narrow
  have alike := bench.rows_fail_alike inputs
  refine ⟨?rows, ?schedule⟩
  case schedule =>
    intro result
    constructor
    · intro other
      exact other.unique alike collected
    · rintro rfl
      exact collected
  case rows =>
    cases table : bench.truthTable inputs with
    | error failure =>
      rw [table] at collected
      cases collected with
      | error failed =>
        refine .inr ⟨failure, rfl, ?_⟩
        intro number bound
        apply row_eq_error_iff.mp
        apply alike _ failed _ _ _ rfl
        exact List.mem_map_of_mem (List.mem_range.mpr bound)
    | ok rows =>
      rw [table] at collected
      cases collected with
      | ok computed =>
        have listed : rows.map Row.inputs = assignments width := by
          apply inputs_of_rows
          rw [assignments_eq_binary, List.map_map]
          exact computed
        have length : rows.length = 2 ^ width := by
          have lengths := congrArg List.length computed
          simpa [Bench.rows] using lengths.symm
        refine .inl ⟨rows, rfl, length, ?_, ?_, ?_⟩
        · intro number bound
          exact row_of_rows computed bound
        · rw [listed]
          exact assignments_increase width
        · intro values fits
          rw [listed]
          exact count_assignments fits

/-- The table of a conjunction, and the one failure of a table whose output is not there. -/
theorem truthTable_complete_of_conjunction :
    let program : Program :=
      ⟨#[⟨1, ⟨.load false, some 0⟩⟩, ⟨2, ⟨.combine .and false, some 1⟩⟩, ⟨3, ⟨.out, some 2⟩⟩],
        by decide⟩
    let bench : Bench := ⟨program, { bankSize := 2 }, 1, [2]⟩
    let broken : Bench := ⟨program, { bankSize := 2 }, 1, [2, 3]⟩
    (∀ result, Collected (bench.rows [0, 1]) result ↔ result =
      .ok [⟨[false, false], [false]⟩, ⟨[false, true], [false]⟩, ⟨[true, false], [false]⟩,
        ⟨[true, true], [true]⟩]) ∧
      ∀ number < 2 ^ 2, broken.run ([0, 1].zip (binary 2 number)) =
        .error (.outOfBounds ⟨3, 2, .inclusive⟩) := by
  intro program bench broken
  obtain ⟨_, schedule⟩ := (truthTable_complete bench [0, 1]).1 (by decide)
  obtain ⟨rows, _⟩ := (truthTable_complete broken [0, 1]).1 (by decide)
  have table : bench.truthTable [0, 1] =
      .ok [⟨[false, false], [false]⟩, ⟨[false, true], [false]⟩, ⟨[true, false], [false]⟩,
        ⟨[true, true], [true]⟩] := by decide
  have refused : broken.truthTable [0, 1] = .error (.outOfBounds ⟨3, 2, .inclusive⟩) := by decide
  rw [table] at schedule
  refine ⟨schedule, ?_⟩
  rcases rows with ⟨rows, computed, _⟩ | ⟨failure, failed, everywhere⟩
  · cases refused.symm.trans computed
  · cases refused.symm.trans failed
    exact everywhere

end Bench

end RelayLadder
