import Mathlib.Data.List.TakeWhile
import RelayLadder.Text.Blank

/-!
Runs of characters of one class, and trimming: what is left of a text when the blank
characters at both ends are taken away.
-/

namespace RelayLadder.Text

section Runs

variable {inClass : Char → Bool} {run rest : List Char}

/-- A run ends where a character of another class, or nothing, follows. -/
theorem takeWhile_run (whole : ∀ c ∈ run, inClass c = true)
    (stop : ∀ c ∈ rest.head?, inClass c = false) : (run ++ rest).takeWhile inClass = run := by
  rw [List.takeWhile_append_of_pos whole]
  cases rest with
  | nil => simp
  | cons c rest => simp [stop c rfl]

theorem dropWhile_run (whole : ∀ c ∈ run, inClass c = true)
    (stop : ∀ c ∈ rest.head?, inClass c = false) : (run ++ rest).dropWhile inClass = rest := by
  rw [List.dropWhile_append_of_pos whole]
  cases rest with
  | nil => rfl
  | cons c rest => simp [stop c rfl]

theorem head_dropWhile {text : List Char} {c : Char}
    (first : c ∈ (text.dropWhile inClass).head?) : inClass c = false := by
  have stop := List.head?_dropWhile_not inClass text
  rw [Option.mem_def.mp first] at stop
  exact stop

/-- Every text is a run of one class, as long as it can be, and a rest. -/
theorem exists_run (inClass : Char → Bool) (text : List Char) :
    ∃ run rest, text = run ++ rest ∧ (∀ c ∈ run, inClass c = true) ∧
      ∀ c ∈ rest.head?, inClass c = false := by
  refine ⟨text.takeWhile inClass, text.dropWhile inClass, ?_, ?_, ?_⟩
  · exact List.takeWhile_append_dropWhile.symm
  · intro c member
    exact List.mem_takeWhile_imp member
  · intro c first
    exact head_dropWhile first

end Runs

theorem isBlank_of_visible {c : Char} (above : 0x21 ≤ c.toNat) (below : c.toNat ≤ 0x7E) :
    isBlank c = false := by
  simp only [isBlank, List.any_eq_false, decide_eq_true_eq]
  intro range member
  have outside : ∀ range ∈ blankRanges, range.2 < 0x21 ∨ 0x7E < range.1 := by decide
  rcases outside range member with before | after <;> omega

/-- What is left of a text when the blank characters at its ends are gone. -/
structure Trimmed (raw core : List Char) : Prop where
  parts : ∃ before after, raw = before ++ core ++ after ∧
    (∀ c ∈ before, isBlank c = true) ∧ ∀ c ∈ after, isBlank c = true
  first : ∀ c ∈ core.head?, isBlank c = false
  last : ∀ c ∈ core.getLast?, isBlank c = false

theorem trimmed_trim (raw : List Char) : Trimmed raw (trim raw) := by
  let tail := raw.dropWhile isBlank
  let after := tail.reverse.takeWhile isBlank
  have back : tail = trim raw ++ after.reverse := by
    rw [trim, ← List.reverse_append]
    apply List.reverse_eq_iff.mp
    exact List.takeWhile_append_dropWhile.symm
  have front : raw = raw.takeWhile isBlank ++ tail := List.takeWhile_append_dropWhile.symm
  refine ⟨⟨raw.takeWhile isBlank, after.reverse, ?_, ?_, ?_⟩, ?_, ?_⟩
  · rw [List.append_assoc]
    exact front.trans (congrArg _ back)
  · intro c member
    exact List.mem_takeWhile_imp member
  · intro c member
    exact List.mem_takeWhile_imp (List.mem_reverse.mp member)
  · intro c first
    have still : c ∈ tail.head? := by
      rw [back, List.head?_append, Option.mem_def.mp first]
      rfl
    exact head_dropWhile still
  · intro c last
    rw [trim, List.getLast?_reverse] at last
    exact head_dropWhile last

theorem Trimmed.trim_eq {raw core : List Char} (trimmed : Trimmed raw core) : trim raw = core := by
  obtain ⟨⟨before, after, rfl, blankBefore, blankAfter⟩, first, last⟩ := trimmed
  have blankEnd : ∀ c ∈ after.reverse, isBlank c = true := by
    intro c member
    exact blankAfter c (List.mem_reverse.mp member)
  have tail : (core ++ after).reverse.dropWhile isBlank = core.reverse := by
    rw [List.reverse_append]
    apply dropWhile_run blankEnd
    rwa [List.head?_reverse]
  rw [trim, List.append_assoc, List.dropWhile_append_of_pos blankBefore]
  cases core with
  | nil =>
    have gone : after.dropWhile isBlank = [] := List.dropWhile_eq_nil_iff.mpr blankAfter
    rw [List.nil_append, gone]
    rfl
  | cons c core =>
    rw [List.cons_append, List.dropWhile_cons_of_neg (by simp [first c rfl]), ← List.cons_append,
      tail, List.reverse_reverse]

theorem trim_eq_iff {raw core : List Char} : trim raw = core ↔ Trimmed raw core := by
  constructor
  · rintro rfl
    exact trimmed_trim raw
  · exact Trimmed.trim_eq

end RelayLadder.Text
