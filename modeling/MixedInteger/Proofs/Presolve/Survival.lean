import MixedInteger.Proofs.Lists
import MixedInteger.Proofs.Presolve.Invariance
import MixedInteger.Proofs.Presolve.Soundness

/-! What presolve leaves of a program. The log of eliminated columns says which columns remain; they
and the remaining rows stand in their old order, ranges are the old ones or tighter, and the rows
are the old ones without the columns that are gone, up to their right-hand sides. -/
namespace MixedInteger

/-- The positions, among the first `count`, that are left after the eliminations of a log. -/
def UndoLog.survivors (count : Nat) : UndoLog Rat → List Nat
  | [] => List.range count
  | entry :: earlier => (survivors count earlier).eraseIdx entry.position

theorem UndoLog.survivors_ascend (count : Nat) (log : UndoLog Rat) :
    (log.survivors count).Pairwise (· < ·) := by
  induction log with
  | nil => exact List.pairwise_lt_range
  | cons entry earlier ih => exact ih.eraseIdx entry.position

/-- A column as it was, but for a range that may be tighter. -/
structure Column.Tightens (column old : Column Rat) : Prop where
  range : column.range.Within old.range
  rest : column = { old with range := column.range }

/-- A row as it was, on the columns at some positions only, but for its right-hand side. -/
structure Row.Restricts (columns : List Nat) (row old : Row Rat) : Prop where
  relation : row.relation = old.relation
  coefs : List.Forall₂ (fun position a => old.coefs[position]? = some a) columns row.coefs

namespace Presolve

/-- The columns and rows of a state are those at the given positions of another one. -/
structure Remnant (start state : State Rat) (columns rows : List Nat) : Prop where
  log : ∃ gone : UndoLog Rat, state.removed = gone ++ start.removed ∧
    columns = gone.survivors start.program.columns.length
  ascend : rows.Pairwise (· < ·)
  tightened : List.Forall₂ (fun position column => ∃ old,
    start.program.columns[position]? = some old ∧ column.Tightens old) columns state.program.columns
  restricted : List.Forall₂ (fun position row => ∃ old,
    start.program.rows[position]? = some old ∧ row.Restricts columns old) rows state.program.rows

theorem Remnant.refl {start : State Rat} (shaped : start.program.Shaped) :
    Remnant start start (List.range start.program.columns.length)
      (List.range start.program.rows.length) where
  log := ⟨[], rfl, rfl⟩
  ascend := List.pairwise_lt_range
  tightened := (forall₂_range start.program.columns).imp fun _ column known =>
    ⟨column, known, .refl _, rfl⟩
  restricted := by
    refine (forall₂_range start.program.rows).imp fun _ row known => ⟨row, known, rfl, ?_⟩
    rw [← shaped.rows row (List.mem_of_getElem? known)]
    exact forall₂_range row.coefs

/-- Each of the four changes leaves columns and rows that were there. -/
theorem stable_remnant (start : State Rat) :
    Stable fun state => ∃ columns rows, Remnant start state columns rows where
  narrow := by
    rintro state next index column range ⟨columns, rows, left⟩ known within ⟨log, program⟩
    refine ⟨columns, rows, log ▸ left.log, left.ascend, ?_, by rw [program]; exact left.restricted⟩
    rw [program]
    refine forall₂_modify left.tightened known ?_
    rintro position ⟨old, found, tightens⟩
    refine ⟨old, found, within.trans tightens.range, ?_⟩
    rw [tightens.rest]
  dropRow := by
    rintro state next index ⟨columns, rows, left⟩ log program
    refine ⟨columns, rows.eraseIdx index, log ▸ left.log, left.ascend.eraseIdx index, ?_, ?_⟩
    · rw [program]
      exact left.tightened
    · rw [program]
      exact forall₂_eraseIdx left.restricted index
  dropColumn := by
    rintro state next index column ⟨columns, rows, left⟩ log program
    obtain ⟨gone, whole, rfl⟩ := left.log
    -- Positions, columns and the coefficients of each row all lose the same place.
    refine ⟨_, rows, ⟨gone.push index column, ?_, rfl⟩, left.ascend, ?_, ?_⟩
    · rw [log, whole]
      rfl
    · rw [program]
      exact forall₂_eraseIdx left.tightened index
    · rw [program]
      refine List.forall₂_map_right_iff.mpr (left.restricted.imp ?_)
      rintro position row ⟨old, found, restricts⟩
      exact ⟨old, found, restricts.relation, forall₂_eraseIdx restricts.coefs index⟩
  adjust := by
    rintro state next ⟨columns, rows, left⟩ log same shifted
    refine ⟨columns, rows, log ▸ left.log, left.ascend, same ▸ left.tightened, ?_⟩
    refine forall₂_trans left.restricted shifted ?_
    rintro position new row ⟨relation, coefs⟩ ⟨old, found, restricts⟩
    exact ⟨old, found, relation.trans restricts.relation, coefs ▸ restricts.coefs⟩

theorem passes_of_run {maxPasses : Nat} {program : Program Rat} {removed : UndoLog Rat}
    {status : Status} {state : State Rat}
    (ran : (run maxPasses program removed).outcome = .ok (status, state)) :
    passes maxPasses { program, removed } = .ok (status, state) := by
  obtain ⟨⟨status', state'⟩, guarded, rest⟩ := Run.ok_of_bind ran
  obtain ⟨-, -, final⟩ := Run.ok_of_bind rest
  rw [Run.outcome_guard_iff.mp guarded, Run.eq_of_pure final]

/-- Passes that leave a program leave its integral columns with integral bounds, since rounding is
the last change of a range in each of them. -/
theorem wholeBounds_of_passes {left : Nat} {state final : State Rat} (valid : state.program.Valid)
    (ran : passes (left + 1) state = .ok (.reduced, final)) : final.program.WholeBounds := by
  have ends := pass_sound { state with counts.passes := state.counts.passes + 1 } valid trivial
  rw [passes] at ran
  split at ran
  -- The passes that follow keep what this one has brought about.
  · rename_i next once
    obtain ⟨further, -, whole⟩ := ends.ok_of_run once
    obtain ⟨status, reached, ended, certifies⟩ := passes_certifies left (Refines.refl next) further id
    obtain ⟨rfl, rfl⟩ : status = .reduced ∧ reached = final := by
      simpa using ended.symm.trans ran
    exact certifies.means.2.2 whole
  · rename_i next once
    obtain ⟨-, rfl⟩ := Prod.mk.inj (Except.ok.inj ran)
    exact (ends.ok_of_run once).2.2
  · cases ran
  · cases ran
  · cases ran

/-- A program that presolve leaves of an accepted one is accepted. Its columns are the columns that
are not in the log, in their order and with bounds that are no looser; its rows are some of the
rows, in their order, with their relations and with their coefficients on these columns. After a
pass, integral columns have integral bounds. -/
theorem run_remnant {program : Program Rat} (accepted : program.validate = .ok ())
    {maxPasses : Nat} {removed : UndoLog Rat} {state : State Rat}
    (ran : (run maxPasses program removed).outcome = .ok (.reduced, state)) :
    state.program.validate = .ok () ∧
      (∃ columns rows, columns.Pairwise (· < ·) ∧ Remnant { program, removed } state columns rows) ∧
      (0 < maxPasses → state.program.WholeBounds) := by
  have valid := program.validate_eq_ok_iff.mp accepted
  obtain ⟨status, reached, ended, certifies⟩ := run_certifies valid maxPasses removed
  obtain ⟨rfl, rfl⟩ : status = .reduced ∧ reached = state := by
    simpa using ended.symm.trans ran
  have ended := passes_of_run ran
  refine ⟨reached.program.validate_eq_ok_iff.mpr certifies.means.2.1, ?_, fun some => ?_⟩
  · obtain ⟨columns, rows, left⟩ :=
      (stable_remnant { program, removed }).passes ⟨_, _, .refl valid.toShaped⟩ ended
    obtain ⟨gone, -, survive⟩ := left.log
    exact ⟨columns, rows, survive ▸ gone.survivors_ascend _, left⟩
  · obtain ⟨left, rfl⟩ := Nat.exists_eq_add_of_lt some
    exact wholeBounds_of_passes valid (by simpa using ended)

/-- Minimise `z - x - y` over `2 x + 3 y ≤ 7` and `2 z ≥ 3` with `x` and `y` integral. The second row
is a bound on `z`, which is then in no row. -/
def parcel : Program Rat where
  objective := [-1, 1, -1]
  constant := 0
  rows := [⟨[0, 2, 0], .ge, 3⟩, ⟨[2, 0, 3], .le, 7⟩]
  columns := [.integer ⟨some 0, some (5 / 2)⟩, .continuous ⟨some 0, none⟩,
    .integer ⟨some 0, some (5 / 2)⟩]

theorem parcel_remnant : ∃ state rows, (run 3 parcel []).outcome = .ok (.reduced, state) ∧
    Remnant { program := parcel, removed := [] } state [0, 2] rows ∧
    state.program.validate = .ok () ∧ state.program.WholeBounds := by
  have reduced : (match (run 3 parcel []).outcome with
      | .ok (.reduced, state) => decide (state.removed.survivors 3 = [0, 2])
      | _ => false) = true := by decide +kernel
  have accepted : parcel.validate = .ok () := by
    refine parcel.validate_eq_ok_iff.mpr ⟨⟨by decide, by decide⟩, ?_⟩
    decide +kernel
  split at reduced
  · rename_i state ran
    obtain ⟨valid, ⟨columns, rows, -, left⟩, whole⟩ := run_remnant accepted ran
    obtain ⟨gone, log, rfl⟩ := left.log
    have survive : gone.survivors 3 = [0, 2] := by
      rw [List.append_nil] at log
      exact log ▸ of_decide_eq_true reduced
    exact ⟨state, rows, ran, survive ▸ left, valid, whole (by decide)⟩
  · cases reduced

end Presolve

end MixedInteger
