import Mathlib.Logic.Relation
import MixedInteger.Problem
import MixedInteger.Proofs.Ending
import MixedInteger.Proofs.Presolve.Survival

/-! Replaying a log takes its removals back. Each rule is stated in the layout of its own removal,
in which columns may stand that a later removal takes away; the replay goes through the layouts in
reverse, and in each of them only the returning column is not yet in place. A rule that leaves its
own position out does not see this gap, so it gives what it gave when the column was removed. -/
namespace MixedInteger

/-- A rule that does not refer to the position of the column it recovers. -/
def Recovery.Omits (index : Nat) : Recovery Rat → Prop
  | constant _ => True
  | affine _ terms => ∀ term ∈ terms, term.1 ≠ index

/-- A column whose rule, where it has one, does not refer to the column's own position. -/
def Column.Omits (column : Column Rat) (index : Nat) : Prop :=
  ∀ rule, column.recovery = some rule → rule.Omits index

/-! ### Rules and single positions -/

theorem Recovery.addTerms_set {index : Nat} {terms : List (Nat × Rat)}
    (omits : ∀ term ∈ terms, term.1 ≠ index) (values : List Rat) (value total : Rat) :
    addTerms (values.set index value) total terms = addTerms values total terms := by
  induction terms generalizing total with
  | nil => rfl
  | cons term terms ih =>
    obtain ⟨position, coefficient⟩ := term
    have apart : index ≠ position := (omits (position, coefficient) (by simp)).symm
    simp only [addTerms, List.getElem?_set_ne apart]
    cases values[position]? with
    | none => rfl
    | some old => exact ih (fun term member => omits term (by simp [member])) _

/-- Whether the positions of a rule exist depends on the length of the layout only. -/
theorem Recovery.exists_addTerms {values others : List Rat} (same : values.length = others.length)
    {terms : List (Nat × Rat)} {total result : Rat} (made : addTerms values total terms = .ok result)
    (start : Rat) : ∃ other, addTerms others start terms = .ok other := by
  induction terms generalizing total start with
  | nil => exact ⟨start, rfl⟩
  | cons term terms ih =>
    obtain ⟨position, coefficient⟩ := term
    cases known : values[position]? with
    | none => simp [addTerms, known] at made
    | some value =>
      have inside : position < others.length := same ▸ (List.getElem?_eq_some_iff.mp known).1
      simp only [addTerms, known] at made
      simp only [addTerms, List.getElem?_eq_getElem inside]
      exact ih made _

theorem Column.recover_set {column : Column Rat} {index : Nat} (omits : column.Omits index)
    (values : List Rat) (value : Rat) :
    column.recover (values.set index value) = column.recover values := by
  unfold recover
  split
  · rename_i rule stated
    cases rule with
    | constant _ => rfl
    | affine start terms => exact Recovery.addTerms_set (omits _ stated) values value start
  · rfl

theorem Column.exists_recover {column : Column Rat} {values others : List Rat}
    (same : values.length = others.length) {result : Rat} (made : column.recover values = .ok result) :
    ∃ other, column.recover others = .ok other := by
  unfold recover at made ⊢
  split
  · rename_i rule stated
    cases rule with
    | constant value => exact ⟨value, rfl⟩
    | affine start terms =>
      rw [stated] at made
      exact Recovery.exists_addTerms same made start
  · exact ⟨_, rfl⟩

namespace UndoLog

variable {log : UndoLog Rat} {values start whole : List Rat}

/-! ### Removals -/

/-- What remains of a list after the removals of a log. -/
def remains {β : Type} (items : List β) : UndoLog Rat → List β
  | [] => items
  | entry :: earlier => (remains items earlier).eraseIdx entry.position

/-- The removals of a log fit a vector: each is at a position of the layout that the earlier ones
have left, and its rule leaves this position out and gives the value that stands there. -/
inductive Fits (values : List Rat) : UndoLog Rat → Prop
  | nil : Fits values []
  | push {log : UndoLog Rat} {index : Nat} {column : Column Rat} {value : Rat}
      (before : Fits values log) (stands : (log.remains values)[index]? = some value)
      (omits : column.Omits index) (recovers : column.recover (log.remains values) = .ok value) :
      Fits values (log.push index column)

/-- The surviving positions hold what remains. -/
theorem forall₂_remains (log : UndoLog Rat) (whole : List Rat) :
    List.Forall₂ (fun position value => whole[position]? = some value)
      (log.survivors whole.length) (log.remains whole) := by
  induction log with
  | nil => exact forall₂_range whole
  | cons entry earlier ih => exact forall₂_eraseIdx ih entry.position

/-! ### Replaying -/

/-- A removal at a position of the layout that its rule leaves out is taken back. -/
theorem replay_removed {index : Nat} {column : Column Rat} {value : Rat}
    (stands : values[index]? = some value) (omits : column.Omits index)
    (recovers : column.recover values = .ok value) :
    UndoLog.replay (log.push index column) (values.eraseIdx index) = log.replay values := by
  obtain ⟨inside, rfl⟩ := List.getElem?_eq_some_iff.mp stands
  have reach : index ≤ (values.eraseIdx index).length := by
    rw [List.length_eraseIdx_of_lt inside]
    omega
  have restored : (values.eraseIdx index).insertIdx index values[index] = values := by
    simpa [List.getElem?_eq_getElem inside] using insertIdx_eraseIdx_getD inside
  -- The rule is evaluated with a zero at its own position, which it does not read.
  have gives : column.recover ((values.eraseIdx index).insertIdx index 0) = .ok values[index] := by
    rw [← Column.recover_set omits _ values[index], set_insertIdx reach, restored, recovers]
  rw [Presolve.replay_push reach gives, restored]

theorem Fits.replay (fits : log.Fits values) : log.replay (log.remains values) = .ok values := by
  induction fits with
  | nil => rfl
  | push before stands omits recovers ih => exact (replay_removed stands omits recovers).trans ih

/-- Any vector in place of the remaining one is what remains of some vector that the log fits. -/
theorem Fits.exists_fits (fits : log.Fits values)
    (length : start.length = (log.remains values).length) :
    ∃ whole, log.Fits whole ∧ log.remains whole = start ∧ whole.length = values.length := by
  induction fits generalizing start with
  | nil => exact ⟨start, .nil, rfl, length⟩
  | @push log index column _ before stands omits recovers ih =>
    obtain ⟨inside, -⟩ := List.getElem?_eq_some_iff.mp stands
    have short : start.length = (log.remains values).length - 1 :=
      length.trans (List.length_eraseIdx_of_lt inside)
    have reach : index ≤ start.length := by omega
    have opened (value : Rat) : (log.remains values).length = (start.insertIdx index value).length := by
      rw [List.length_insertIdx_of_le_length reach]
      omega
    obtain ⟨value, gives⟩ := Column.exists_recover (opened 0) recovers
    obtain ⟨whole, fits, remains, same⟩ := ih (opened value).symm
    have stood : (log.remains whole)[index]? = some value := by
      rw [remains, List.getElem?_insertIdx_self]
      simp [reach]
    have recovered : column.recover (log.remains whole) = .ok value := by
      rw [remains, ← set_insertIdx reach 0 value, Column.recover_set omits, gives]
    refine ⟨whole, fits.push stood omits recovered, ?_, same⟩
    change (log.remains whole).eraseIdx index = start
    rw [remains, List.eraseIdx_insertIdx_self]

/-- One turn of a replay: the latest entry leaves the log, and its column goes back with the value
that its rule gives while a zero stands in its place. -/
inductive Turn : UndoLog Rat × List Rat → UndoLog Rat × List Rat → Prop
  | restore {entry : Removed Rat} {earlier : UndoLog Rat} {values : List Rat} {value : Rat}
      (reach : entry.position ≤ values.length)
      (recovers : entry.column.recover (values.insertIdx entry.position 0) = .ok value) :
      Turn (entry :: earlier, values)
        (earlier, (values.insertIdx entry.position 0).set entry.position value)

/-- A replay is a run of turns that ends with an empty log. -/
theorem replay_eq_ok_iff :
    log.replay start = .ok whole ↔ Relation.ReflTransGen Turn (log, start) ([], whole) := by
  induction log generalizing start with
  | nil =>
    constructor
    · rintro ⟨⟩
      exact .refl
    · intro run
      rcases run.cases_head with same | ⟨_, ⟨⟩, -⟩
      obtain ⟨-, rfl⟩ := Prod.mk.inj same
      rfl
  | cons entry earlier ih =>
    constructor
    · intro replayed
      unfold UndoLog.replay at replayed
      split at replayed
      · rename_i reach
        obtain ⟨value, recovers, rest⟩ := except_bind_eq_ok.mp replayed
        exact .head (.restore reach recovers) (ih.mp rest)
      · cases replayed
    · intro run
      rcases run.cases_head with same | ⟨_, ⟨reach, recovers⟩, rest⟩
      · cases same
      · unfold UndoLog.replay
        rw [if_pos reach]
        exact except_bind_eq_ok.mpr ⟨_, recovers, ih.mpr rest⟩

/-- A log is replayed from one vector to another: it is empty in the end, the vector is contained in
the new one at the positions of the surviving columns, and the new one obeys every rule in the
layout of its removal. -/
structure Restores (log : UndoLog Rat) (start whole : List Rat) : Prop where
  replayed : log.replay start = .ok whole
  drained : Relation.ReflTransGen Turn (log, start) ([], whole)
  /-- The problem that the log belongs to is left with the new vector and without a log. -/
  expanded : ∀ problem : Problem Rat, problem.removed = log → problem.solution = some start →
    problem.expand = .ok { problem with solution := some whole, removed := [] }
  ascend : (log.survivors whole.length).Pairwise (· < ·)
  contained : List.Forall₂ (fun position value => whole[position]? = some value)
    (log.survivors whole.length) start
  fits : log.Fits whole

theorem Fits.restores (fits : log.Fits whole) : log.Restores (log.remains whole) whole where
  replayed := fits.replay
  drained := replay_eq_ok_iff.mp fits.replay
  expanded := by
    rintro problem rfl stored
    unfold Problem.expand
    rw [stored]
    simp only [fits.replay]
    rfl
  ascend := log.survivors_ascend _
  contained := log.forall₂_remains whole
  fits := fits

/-- Replaying a log whose removals fit a vector gives this vector back from what remains of it. From
any other vector of that length it gives one of the original length that contains the vector at the
surviving positions and obeys every rule in the layout of its removal. -/
theorem replay_restores (fits : log.Fits values) :
    log.Restores (log.remains values) values ∧
      ∀ start : List Rat, start.length = (log.remains values).length →
        ∃ whole, log.Restores start whole ∧ whole.length = values.length := by
  refine ⟨fits.restores, fun start length => ?_⟩
  obtain ⟨whole, other, rfl, same⟩ := fits.exists_fits length
  exact ⟨whole, other.restores, same⟩

/-- Of `a, b, c, d` first `b = 2 + a` is removed and then `a = c - 1`, which the first rule refers
to. -/
def relay : UndoLog Rat :=
  [⟨0, { range := .free, recovery := some (.affine (-1) [(1, 1)]) }⟩,
    ⟨1, { range := .free, recovery := some (.affine 2 [(0, 1)]) }⟩]

theorem relay_restored : relay.Fits [3, 5, 4, 7] ∧ relay.replay [4, 7] = .ok [3, 5, 4, 7] ∧
    relay.Restores [1, 0] [0, 2, 1, 0] := by
  have first : Fits [3, 5, 4, 7] (relay.drop 1) := by
    refine .push .nil rfl ?_ (show _ = Except.ok 5 by decide +kernel)
    rintro rule ⟨⟩
    simp [Recovery.Omits]
  have fits : relay.Fits [3, 5, 4, 7] := by
    refine first.push rfl ?_ (show _ = Except.ok 3 by decide +kernel)
    rintro rule ⟨⟩
    simp [Recovery.Omits]
  obtain ⟨back, others⟩ := replay_restores fits
  obtain ⟨whole, restores, -⟩ := others [1, 0] rfl
  have gives : relay.replay [1, 0] = .ok [0, 2, 1, 0] := by decide +kernel
  obtain rfl : whole = [0, 2, 1, 0] := Except.ok.inj (restores.replayed.symm.trans gives)
  exact ⟨fits, back.replayed, restores⟩

end UndoLog

end MixedInteger
