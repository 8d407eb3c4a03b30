import MixedInteger.Proofs.Cut.Rounds
import MixedInteger.Proofs.Presolve.Soundness
import MixedInteger.Search.Node

/-! The relaxation of a node. It does not fail: the node's program has a standard form, every
cut can be derived and added, and eliminated columns can be put back. Whatever presolve and
cuts do on the way, an optimal relaxation leaves a point of the node's program at the objective
that is stored, no integral point of it is better, and no direction lowers the objective; an
infeasible one shows that there is no integral point, and an unbounded one that there is such a
direction. The point goes back through presolve with its objective, and the bound on the
integral points goes with it. -/
namespace MixedInteger.Search

open Simplex Cut

/-- What the end of a relaxation says about the program that was relaxed. -/
def Relaxes (program : Program Rat) (values : List Rat) (optimum : Rat) : Simplex.Status → Prop
  | .optimal => program.Satisfies values ∧ program.objectiveValue values = optimum ∧
      (∀ y, program.Feasible y → optimum ≤ program.objectiveValue y) ∧ ¬ program.Descends
  | .infeasible => Presolve.Verdict.infeasible.Certified program
  | .unbounded => Presolve.Verdict.unbounded.Certified program
  | .iterationLimit => True
  | .error => False

/-! ### Cut rounds -/

/-- What the end of the cut rounds says about the program and the last tableau. -/
def CutsEnd (program : Program Rat) (form : StandardForm Rat) (tableau : Tableau Rat) :
    Simplex.Status → Prop
  | .optimal => Strengthens program form tableau ∧ Optimum tableau
  | .infeasible => Presolve.Verdict.infeasible.Certified program
  | .unbounded => Presolve.Verdict.unbounded.Certified program
  | .iterationLimit => True
  | .error => False

section

variable {program : Program Rat} {form : StandardForm Rat} {lower : List Rat}

theorem cutsEnd_of_certifies {tableau final : Tableau Rat} {status : Simplex.Status}
    (builds : StandardForm.Builds program form lower)
    (strengthens : Strengthens program form tableau) (certifies : status.Certifies tableau final) :
    CutsEnd program form final status := by
  cases status with
  | optimal => exact ⟨strengthens.restored certifies.1, optimum_of_restored certifies.1 certifies.2⟩
  | infeasible => exact strengthens.infeasible certifies
  | unbounded =>
    obtain ⟨start, direction, slope, ray⟩ := certifies
    exact ⟨fun y held => strengthens.unbounded builds ray held, strengthens.descends builds ray⟩
  | iterationLimit => trivial
  | error => exact certifies

/-- Any number of rounds ends with a status that is right about the program. -/
theorem addCuts_gives (builds : StandardForm.Builds program form lower)
    (bounds : program.WholeBounds) (left : Nat) {round : CutRound Rat}
    (strengthens : Strengthens program form round.tableau) (optimum : Optimum round.tableau)
    (rejects : round.generator.filter.RejectsWhole)
    (inside : round.generator.base ≤ round.generator.program.columns.length) :
    (addCuts left round).Gives fun (status, last) => last.node.ranges = round.node.ranges ∧
      last.node.depth = round.node.depth ∧ CutsEnd program form last.tableau status := by
  induction left generalizing round with
  | zero => exact ⟨_, rfl, rfl, rfl, strengthens, optimum⟩
  | succ left ih =>
    obtain ⟨generator, found, generated⟩ := exists_generate_ok inside rejects round.tableau
    obtain ⟨-, rows⟩ := generate_spec rejects generated
    obtain ⟨⟨counts, rfl⟩, -⟩ := generate_translates generated
    rw [addCuts, Run.gives_bind, Run.gives_guard generated]
    dsimp only
    cases found with
    | none => exact ⟨_, rfl, rfl, rfl, strengthens, optimum⟩
    | some cut =>
      obtain ⟨row, made⟩ := rows cut rfl
      obtain ⟨extended, added, extends', stronger⟩ :=
        strengthens.addCut builds bounds optimum made
      obtain ⟨result, optimized, -, -, certifies⟩ :=
        Tableau.optimize_certifies extends'.prepared round.budget
      have ends := cutsEnd_of_certifies builds stronger certifies
      rw [Run.gives_bind, Run.gives_guard added, Run.gives_bind, Run.gives_ok optimized]
      split
      · exact ⟨_, rfl, rfl, rfl, ends⟩
      · rename_i settled
        have optimal : result.status = .optimal := not_not.mp settled
        rw [optimal] at ends
        exact ih ends.1 ends.2 rejects inside

end

/-! ### One node -/

variable {options : RelaxationOptions} {working : Program Rat} {node : Node Rat}
  {budget : Budget}

/-- A relaxed node keeps its ranges, and its status is right about its program. An optimal
node holds the result of a census of its point. -/
structure RelaxedFrom (working program : Program Rat) (node : Node Rat) (relaxed : Relaxed Rat) :
    Prop where
  ranges : relaxed.node.ranges = node.ranges
  depth : relaxed.node.depth = node.depth
  means : Relaxes program relaxed.node.solution relaxed.node.optimum relaxed.status
  census : relaxed.status = .optimal → ∃ source : Node Rat,
    relaxed.node = source.finish working relaxed.node.solution relaxed.node.optimum

/-- A status other than optimal goes from a reduced program to the program before. -/
theorem relaxes_of_cutsEnd {program : Program Rat} {state : Presolve.State Rat}
    {form : StandardForm Rat} {tableau : Tableau Rat} {status : Simplex.Status}
    (refines : Presolve.Refines { program, removed := [] } state)
    (ends : CutsEnd state.program form tableau status) (unsettled : status ≠ .optimal)
    {values : List Rat} {optimum : Rat} : Relaxes program values optimum status := by
  cases status with
  | optimal => exact absurd rfl unsettled
  | infeasible =>
    have certified : Presolve.Verdict.infeasible.Certified state.program := ends
    exact refines.certified certified
  | unbounded =>
    have certified : Presolve.Verdict.unbounded.Certified state.program := ends
    exact refines.certified certified
  | iterationLimit => trivial
  | error => exact ends

/-- Relaxing a reduced program is right about the program it was reduced from. -/
theorem relaxReduced_gives {program : Program Rat} {state : Presolve.State Rat}
    (refines : Presolve.Refines { program, removed := [] } state) (valid : state.program.Valid)
    (bounds : state.program.WholeBounds) (floor : state.program.BoundedBelow)
    (equational : state.program.Equational) :
    (relaxReduced options working state.program state.removed node budget).Gives
      (RelaxedFrom working program node) := by
  obtain ⟨form, built⟩ := StandardForm.exists_ofProgram valid floor
  obtain ⟨lower, builds⟩ := StandardForm.builds_of_ofProgram built
  obtain ⟨first, optimized, -, -, certifies⟩ := Tableau.optimize_certifies builds.prepared budget
  have ends := cutsEnd_of_certifies builds (Strengthens.start builds) certifies
  have lifted : (Run.lift ((StandardForm.ofProgram state.program).mapError fun cause =>
      .refused (.program cause))).outcome = .ok form := by
    rw [built]
    rfl
  rw [relaxReduced, Run.gives_bind, Run.gives_ok lifted, Run.gives_bind, Run.gives_ok optimized]
  split
  · rename_i unsettled
    exact ⟨_, rfl, rfl, rfl, relaxes_of_cutsEnd refines ends unsettled,
      fun optimal => absurd optimal unsettled⟩
  · rename_i settled
    have optimal : first.status = .optimal := not_not.mp settled
    rw [optimal] at ends certifies
    obtain ⟨restored, reduced⟩ := certifies
    -- Without cuts the optimum bounds every point of the program, integral or not.
    obtain ⟨held, -, bound⟩ := builds.optimal restored reduced
    have level : ¬ state.program.Descends := Program.not_descends_of_bound held bound
    have inside : first.tableau.columnCount ≤ state.program.columns.length := by
      rw [Tableau.columnCount_congr restored.frame, columnCount_ofForm builds equational]
    let round : CutRound Rat := ⟨node, ⟨{}, state.program, first.tableau.columnCount, [], {}⟩,
      first.tableau, first.budget⟩
    obtain ⟨⟨status, last⟩, added, ranges, depth, right⟩ := addCuts_gives builds bounds
      (options.maxCuts - node.cutsAdded) (show Strengthens _ form round.tableau from ends.1) ends.2
      rejectsWhole_default inside
    rw [Run.gives_bind, Run.gives_ok added]
    dsimp only
    split
    · rename_i unsettled
      exact ⟨_, rfl, ranges, depth, relaxes_of_cutsEnd refines right unsettled,
        fun optimal => absurd optimal unsettled⟩
    · rename_i settledLast
      obtain rfl : status = .optimal := not_not.mp settledLast
      obtain ⟨strengthens, optimum⟩ := right
      obtain ⟨satisfied, value, least⟩ := strengthens.optimal builds optimum
      obtain ⟨x, heldX, valueX, -, replayed⟩ := refines.back _ satisfied
      rw [Run.gives_bind, Run.gives_guard replayed]
      refine ⟨_, rfl, ranges, depth, ⟨heldX, valueX.trans value, fun y held => ?_,
        mt refines.descends_iff.mp level⟩, fun _ => ⟨last.node, rfl⟩⟩
      obtain ⟨z, heldZ, le⟩ := refines.forth y held
      exact (least z heldZ).trans le

/-- The relaxation of a node does not fail, and is right about the working program under the
node's ranges. -/
theorem relax_gives (shaped : (working.withRanges node.ranges).Shaped)
    (bounds : (working.withRanges node.ranges).WholeBounds)
    (floor : (working.withRanges node.ranges).BoundedBelow)
    (equational : (working.withRanges node.ranges).Equational) :
    (relax options working node budget).Gives
      (RelaxedFrom working (working.withRanges node.ranges) node) := by
  set program := working.withRanges node.ranges with named
  unfold relax
  dsimp only
  rw [← named]
  cases empty : program.hasEmptyRange with
  | true =>
    rw [if_pos rfl]
    refine ⟨_, rfl, rfl, rfl, fun y held => ?_, fun optimal => nomatch optimal⟩
    exact Program.not_satisfies_of_hasEmptyRange empty y held.toSatisfies
  | false =>
    have valid : program.Valid := ⟨shaped, program.hasEmptyRange_eq_false_iff.mp empty⟩
    rw [if_neg Bool.false_ne_true]
    split
    · exact relaxReduced_gives (Presolve.Refines.refl { program, removed := [] }) valid bounds floor
        equational
    · obtain ⟨status, state, ran, certifies⟩ :=
        Presolve.run_certifies valid options.presolvePasses []
      rw [Run.gives_bind, Run.gives_ok ran]
      have means := certifies.means
      cases status with
      | infeasible => exact ⟨_, rfl, rfl, rfl, means, fun optimal => nomatch optimal⟩
      | unbounded =>
        exact ⟨_, rfl, rfl, rfl, ⟨means, certifies.descends rfl⟩, fun optimal => nomatch optimal⟩
      | solved =>
        obtain ⟨-, -, columns, rows⟩ := means
        have refines := certifies.refines (.inr rfl)
        have satisfied : state.program.Satisfies [] :=
          ⟨by simp [columns], by simp [rows], by simp [columns]⟩
        have constant : state.program.objectiveValue [] = state.program.constant := by
          simp [Program.objectiveValue]
        have only : ∀ z, state.program.Satisfies z → z = [] := by
          intro z held
          have length := held.length
          rw [columns] at length
          exact List.length_eq_zero_iff.mp length
        have level : ¬ state.program.Descends :=
          Program.not_descends_of_bound satisfied fun z held => by rw [only z held]
        obtain ⟨x, heldX, valueX, -, replayed⟩ := refines.back _ satisfied
        rw [Run.gives_bind, Run.gives_guard replayed]
        refine ⟨_, rfl, rfl, rfl, ⟨heldX, valueX.trans constant, fun y held => ?_,
          mt refines.descends_iff.mp level⟩, fun _ => ⟨node, rfl⟩⟩
        obtain ⟨z, heldZ, le⟩ := refines.forth y held
        rw [only z heldZ.toSatisfies] at le
        exact constant.symm.le.trans le
      | reduced =>
        obtain ⟨-, validNow, whole⟩ := means
        have refines := certifies.refines (.inl rfl)
        exact relaxReduced_gives refines validNow (whole bounds) (refines.floor floor)
          (refines.equational equational)

/-! ### What is left of a node -/

theorem addCuts_ranges {left : Nat} {round last : CutRound Rat} {status : Simplex.Status}
    (ran : (addCuts left round).outcome = .ok (status, last)) :
    last.node.ranges = round.node.ranges := by
  induction left generalizing round with
  | zero =>
    obtain ⟨-, rfl⟩ := Prod.mk.inj (Run.eq_of_pure ran)
    rfl
  | succ left ih =>
    rw [addCuts] at ran
    obtain ⟨⟨generator, found⟩, -, ran⟩ := Run.ok_of_bind ran
    dsimp only at ran
    cases found with
    | none =>
      obtain ⟨-, rfl⟩ := Prod.mk.inj (Run.eq_of_pure ran)
      rfl
    | some cut =>
      obtain ⟨⟨slack, extended⟩, -, ran⟩ := Run.ok_of_bind ran
      obtain ⟨result, -, ran⟩ := Run.ok_of_bind ran
      split at ran
      · obtain ⟨-, rfl⟩ := Prod.mk.inj (Run.eq_of_pure ran)
        rfl
      · have kept := ih ran
        exact kept

/-- A relaxed node is the node up to its counters, and holds the census of a point if the
relaxation was optimal. -/
def Leaves (working : Program Rat) (node : Node Rat) (relaxed : Relaxed Rat) : Prop :=
  ∃ source : Node Rat, source.ranges = node.ranges ∧
    ((relaxed.status ≠ .optimal ∧ relaxed.node = source) ∨
      ∃ values optimum, relaxed.node = source.finish working values optimum)

theorem relaxReduced_leaves {reduced : Program Rat} {removed : UndoLog Rat} {relaxed : Relaxed Rat}
    (ran : (relaxReduced options working reduced removed node budget).outcome = .ok relaxed) :
    Leaves working node relaxed := by
  obtain ⟨form, -, ran⟩ := Run.ok_of_bind ran
  obtain ⟨first, -, ran⟩ := Run.ok_of_bind ran
  split at ran
  · rename_i unsettled
    obtain rfl := Run.eq_of_pure ran
    exact ⟨node, rfl, .inl ⟨unsettled, rfl⟩⟩
  · obtain ⟨⟨status, last⟩, added, ran⟩ := Run.ok_of_bind ran
    have ranges : last.node.ranges = node.ranges := addCuts_ranges added
    dsimp only at ran
    split at ran
    · rename_i unsettled
      obtain rfl := Run.eq_of_pure ran
      exact ⟨last.node, ranges, .inl ⟨unsettled, rfl⟩⟩
    · obtain ⟨values, -, ran⟩ := Run.ok_of_bind ran
      obtain rfl := Run.eq_of_pure ran
      exact ⟨last.node, ranges, .inr ⟨_, _, rfl⟩⟩

/-- What a relaxation leaves of its node, whatever program it was run on. -/
theorem relax_leaves {relaxed : Relaxed Rat}
    (ran : (relax options working node budget).outcome = .ok relaxed) :
    Leaves working node relaxed := by
  have given : ∀ status : Simplex.Status, status ≠ .optimal →
      Leaves working node { status, node, budget } :=
    fun status unsettled => ⟨node, rfl, .inl ⟨unsettled, rfl⟩⟩
  unfold relax at ran
  dsimp only at ran
  split at ran
  · obtain rfl := Run.eq_of_pure ran
    exact given _ (by simp)
  · split at ran
    · exact relaxReduced_leaves ran
    · obtain ⟨⟨status, state⟩, -, ran⟩ := Run.ok_of_bind ran
      cases status with
      | infeasible =>
        obtain rfl := Run.eq_of_pure ran
        exact given _ (by simp)
      | unbounded =>
        obtain rfl := Run.eq_of_pure ran
        exact given _ (by simp)
      | solved =>
        obtain ⟨values, -, ran⟩ := Run.ok_of_bind ran
        obtain rfl := Run.eq_of_pure ran
        exact ⟨node, rfl, .inr ⟨_, _, rfl⟩⟩
      | reduced => exact relaxReduced_leaves ran

theorem Leaves.ranges {relaxed : Relaxed Rat} (leaves : Leaves working node relaxed) :
    relaxed.node.ranges = node.ranges := by
  obtain ⟨source, same, ⟨-, left⟩ | ⟨values, optimum, left⟩⟩ := leaves
  · rw [left, same]
  · rw [left]
    exact same

end MixedInteger.Search
