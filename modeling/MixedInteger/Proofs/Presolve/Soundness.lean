import MixedInteger.Proofs.Presolve.RowRemoval
import MixedInteger.Proofs.Presolve.Substitution
import MixedInteger.Presolve.Passes

/-! Presolve as a whole. Every pass is a sequence of sound reductions, so any number of
passes ends with a program that stands for the one presolve was given, or with a verdict
that is right about it. Nothing is assumed about which reductions apply. -/
namespace MixedInteger.Presolve

/-- A pass is sound, and leaves integral columns with integral bounds. -/
theorem pass_sound : Sound (fun _ => True) (pass : Reduction Rat Bool)
    fun _ state => state.program.WholeBounds := by
  refine removeEmptyRow_sound.sound.bind fun _ => ?_
  refine removeSingletonRow_sound.sound.bind fun _ => ?_
  refine checkRowActivity_sound.sound.bind fun _ => ?_
  refine removeImpliedFreeColumns_sound.bind fun _ => ?_
  refine tightenBounds_sound.bind fun _ => ?_
  refine roundIntegralBounds_sound.bind fun _ => ?_
  refine removeFixedColumns_sound.bind fun _ => ?_
  refine removeEmptyColumns_sound.bind fun _ => ?_
  exact Sound.pure _ fun _ => id

/-- What presolve says about the program it was given: the program left stands for it, or
the verdict is right. A solved program has no rows and columns left. -/
def Status.Means (start final : State Rat) : Status → Prop
  | reduced => Reduces start final ∧ final.program.Valid ∧
      (start.program.WholeBounds → final.program.WholeBounds)
  | solved => Reduces start final ∧ final.program.Valid ∧ final.program.columns = [] ∧
      final.program.rows = []
  | infeasible => Verdict.infeasible.Means start.program
  | unbounded => Verdict.unbounded.Means start.program

/-- A status is right about points and about directions. -/
structure Status.Certifies (start final : State Rat) (status : Status) : Prop where
  means : status.Means start final
  refines : status = .reduced ∨ status = .solved → Refines start final
  descends : status = .unbounded → start.program.Descends

theorem settled_certifies {start final : State Rat} (refines : Refines start final)
    (valid : final.program.Valid)
    (bounds : start.program.WholeBounds → final.program.WholeBounds) :
    (settled final).Certifies start final := by
  unfold settled
  split
  · rename_i empty
    have nothing : final.program.columns = [] ∧ final.program.rows = [] := by
      simpa using empty
    exact ⟨⟨refines.toReduces, valid, nothing⟩, fun _ => refines, by simp⟩
  · exact ⟨⟨refines.toReduces, valid, bounds⟩, fun _ => refines, by simp⟩

/-- Any number of passes ends, without a fault, in a state that its status describes. -/
theorem passes_certifies (left : Nat) {start state : State Rat} (refines : Refines start state)
    (valid : state.program.Valid)
    (bounds : start.program.WholeBounds → state.program.WholeBounds) :
    ∃ status final, passes left state = .ok (status, final) ∧ status.Certifies start final := by
  induction left generalizing state with
  | zero => exact ⟨_, state, rfl, settled_certifies refines valid bounds⟩
  | succ left ih =>
    -- The pass count is not part of what a reduced state stands for.
    have counted : Refines start { state with counts.passes := state.counts.passes + 1 } :=
      ⟨refines.toReduces.recounted _ rfl rfl, refines.recession.recounted _ rfl rfl⟩
    have ends := pass_sound { state with counts.passes := state.counts.passes + 1 } valid trivial
    rw [passes]
    cases ran : pass.run { state with counts.passes := state.counts.passes + 1 } with
    | ok changed next =>
      obtain ⟨validNext, further, whole⟩ := ends.ok_of_run ran
      have reached := counted.trans further
      cases changed with
      | true => exact ih reached validNext fun _ => whole
      | false => exact ⟨_, next, rfl, settled_certifies reached validNext fun _ => whole⟩
    | error verdict next =>
      have certified := refines.certified (ends.failed_of_run ran)
      cases verdict with
      | infeasible => exact ⟨.infeasible, next, rfl, certified, by simp, by simp⟩
      | unbounded => exact ⟨.unbounded, next, rfl, certified.1, by simp, fun _ => certified.2⟩
      | fault cause => exact certified.elim

/-- Presolve of a valid program always ends, and its status is right. -/
theorem run_certifies {program : Program Rat} (valid : program.Valid) (maxPasses : Nat)
    (removed : UndoLog Rat) :
    ∃ status final, (run maxPasses program removed).outcome = .ok (status, final) ∧
      status.Certifies { program, removed } final := by
  obtain ⟨status, final, ran, certifies⟩ :=
    passes_certifies maxPasses (Refines.refl { program, removed }) valid id
  refine ⟨status, final, ?_, certifies⟩
  rw [run, ran]
  rfl

theorem run_means {program : Program Rat} (valid : program.Valid) (maxPasses : Nat)
    (removed : UndoLog Rat) :
    ∃ status final, (run maxPasses program removed).outcome = .ok (status, final) ∧
      status.Means { program, removed } final := by
  obtain ⟨status, final, ran, certifies⟩ := run_certifies valid maxPasses removed
  exact ⟨status, final, ran, certifies.means⟩

/-- Replaying the log turns every feasible point of the reduced program into a feasible
point of the program presolve was given, at the same objective. A solved program has the
empty point, at the value of its constant. -/
theorem run_replay_feasible {program : Program Rat} (accepted : program.validate = .ok ())
    {maxPasses : Nat} {status : Status} {state : State Rat}
    (ran : (run maxPasses program []).outcome = .ok (status, state))
    (kept : status = .reduced ∨ status = .solved) :
    (∀ y, state.program.Feasible y → ∃ x, state.removed.replay y = .ok x ∧
      x.length = program.columns.length ∧ program.Feasible x ∧
      program.objectiveValue x = state.program.objectiveValue y) ∧
    (status = .solved → state.program.Feasible [] ∧
      state.program.objectiveValue [] = state.program.constant) := by
  obtain ⟨status', state', ended, means⟩ :=
    run_means (program.validate_eq_ok_iff.mp accepted) maxPasses []
  obtain ⟨rfl, rfl⟩ : status' = status ∧ state' = state := by
    simpa using ended.symm.trans ran
  have reduces : Reduces { program, removed := [] } state' := by
    rcases kept with rfl | rfl
    · exact means.1
    · exact means.1
  constructor
  · intro y held
    obtain ⟨x, satisfied, value, whole, replayed⟩ := reduces.back y held.toSatisfies
    exact ⟨x, replayed, satisfied.length, ⟨satisfied, whole held.integral⟩, value⟩
  · rintro rfl
    obtain ⟨-, -, noColumns, noRows⟩ := means
    refine ⟨⟨⟨?_, ?_, ?_⟩, ?_⟩, ?_⟩
    · simp [noColumns]
    · simp [noRows]
    · simp [noColumns]
    · simp [Program.Integral, noColumns]
    · simp [Program.objectiveValue]

/-- Minimise `x + 2 y - z` over `x + y + z = 4` with `z` integral. The row defines `x` and
keeps it in range, and the two other columns are then in no row. -/
def blend : Program Rat where
  objective := [1, 2, -1]
  constant := 0
  rows := [⟨[1, 1, 1], .eq, 4⟩]
  columns := [.continuous ⟨some 0, some 10⟩, .continuous ⟨some 0, some 2⟩,
    .integer ⟨some 0, some (5 / 2)⟩]

theorem blend_replay_feasible : ∃ state, (run 3 blend []).outcome = .ok (.solved, state) ∧
    ∃ x, state.removed.replay [] = .ok x ∧ x.length = 3 ∧ blend.Feasible x ∧
      blend.objectiveValue x = state.program.constant := by
  have solved : (match (run 3 blend []).outcome with
      | .ok (.solved, _) => true
      | _ => false) = true := by decide +kernel
  have accepted : blend.validate = .ok () := by
    refine blend.validate_eq_ok_iff.mpr ⟨⟨by decide, by decide⟩, ?_⟩
    decide +kernel
  split at solved
  · rename_i state ran
    obtain ⟨replays, final⟩ := run_replay_feasible accepted ran (.inr rfl)
    obtain ⟨empty, value⟩ := final rfl
    obtain ⟨x, replayed, length, held, same⟩ := replays [] empty
    exact ⟨state, ran, x, replayed, length, held, same.trans value⟩
  · cases solved

/-- Presolve of an accepted program always ends. A program it leaves has, for every feasible
point of the original, a feasible point that is at least as good; if it finds the program
infeasible there is no feasible point; if it finds it unbounded, a feasible point can be
improved below every limit. -/
theorem run_keeps_best {program : Program Rat} (accepted : program.validate = .ok ())
    (maxPasses : Nat) (removed : UndoLog Rat) :
    ∃ status state, (run maxPasses program removed).outcome = .ok (status, state) ∧
      (status = .reduced ∨ status = .solved → ∀ x, program.Feasible x →
        ∃ y, state.program.Feasible y ∧
          state.program.objectiveValue y ≤ program.objectiveValue x) ∧
      (status = .infeasible → ∀ x, ¬ program.Feasible x) ∧
      (status = .unbounded → ∀ x, program.Feasible x → ∀ limit : Rat,
        ∃ y, program.Feasible y ∧ program.objectiveValue y < limit) := by
  obtain ⟨status, state, ran, means⟩ :=
    run_means (program.validate_eq_ok_iff.mp accepted) maxPasses removed
  refine ⟨status, state, ran, ?_, ?_, ?_⟩
  · rintro (rfl | rfl)
    · exact means.1.forth
    · exact means.1.forth
  · rintro rfl
    exact means
  · rintro rfl
    exact means

/-- Minimise `2 x - 3 y` over `x - y = 1` with `y` a nonnegative integer. No column is unbounded
in its own cost and rows until the row is used to replace `x`. -/
def climb : Program Rat where
  objective := [2, -3]
  constant := 0
  rows := [⟨[1, -1], .eq, 1⟩]
  columns := [.continuous .free, .integer ⟨some 0, none⟩]

theorem climb_unbounded : (∃ state, (run 3 climb []).outcome = .ok (.unbounded, state)) ∧
    ∀ limit : Rat, ∃ y, climb.Feasible y ∧ climb.objectiveValue y < limit := by
  have unbounded : (match (run 3 climb []).outcome with
      | .ok (.unbounded, _) => true
      | _ => false) = true := by decide +kernel
  have accepted : climb.validate = .ok () := by
    refine climb.validate_eq_ok_iff.mpr ⟨⟨by decide, by decide⟩, ?_⟩
    decide +kernel
  have held : climb.Feasible [1, 0] := by decide +kernel
  obtain ⟨status, state, ran, -, -, improved⟩ := run_keeps_best accepted 3 []
  rw [ran] at unbounded
  cases status with
  | unbounded => exact ⟨⟨state, ran⟩, improved rfl _ held⟩
  | reduced => cases unbounded
  | infeasible => cases unbounded
  | solved => cases unbounded

end MixedInteger.Presolve
