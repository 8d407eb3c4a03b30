import MixedInteger.Proofs.Recession
import MixedInteger.Proofs.Ending
import Mathlib.Data.List.Forall2

/-! What a reduction may do to a program. Going back, every point of the reduced program
is the image of a point of the old one with the same objective, and replaying the log
from either gives the same point of the original program; going forth, every feasible
point has a counterpart that is at least as good. Columns disappear or get narrower, but
keep their kind. The same holds of directions instead of points. A verdict says what it
claims about the program it was reached on. `Sound` states this of a step, and sequences
and sweeps of sound steps are sound. -/
namespace MixedInteger.Presolve

/-- A column of the same kind as another one, with a range inside that of the other. -/
structure Narrower (column source : Column Rat) : Prop where
  range : ∀ value, column.range.Admits value → source.range.Admits value
  integral : column.integral = source.integral
  slack : column.slack = source.slack
  orientation : column.orientation = source.orientation

instance : Std.Refl Narrower where
  refl _ := ⟨fun _ => id, rfl, rfl, rfl⟩

instance : IsTrans (Column Rat) Narrower where
  trans _ _ _ left right := ⟨fun value held => right.range value (left.range value held),
    left.integral.trans right.integral, left.slack.trans right.slack,
    left.orientation.trans right.orientation⟩

/-- A reduced state stands for the state before it. -/
structure Reduces (before after : State Rat) : Prop where
  back : ∀ y, after.program.Satisfies y → ∃ x, before.program.Satisfies x ∧
    before.program.objectiveValue x = after.program.objectiveValue y ∧
    (after.program.Integral y → before.program.Integral x) ∧
    after.removed.replay y = before.removed.replay x
  forth : ∀ x, before.program.Feasible x → ∃ y, after.program.Feasible y ∧
    after.program.objectiveValue y ≤ before.program.objectiveValue x
  columns : List.SublistForall₂ Narrower after.program.columns before.program.columns
  equational : before.program.Equational → after.program.Equational

namespace Reduces

theorem refl (state : State Rat) : Reduces state state :=
  ⟨fun y held => ⟨y, held, rfl, id, rfl⟩, fun x held => ⟨x, held, le_refl _⟩, refl_of _ _, id⟩

theorem trans {first second third : State Rat} (left : Reduces first second)
    (right : Reduces second third) : Reduces first third := by
  constructor
  · intro z held
    obtain ⟨y, heldY, valueY, wholeY, replayY⟩ := right.back z held
    obtain ⟨x, heldX, valueX, wholeX, replayX⟩ := left.back y heldY
    exact ⟨x, heldX, valueX.trans valueY, fun whole => wholeX (wholeY whole),
      replayY.trans replayX⟩
  · intro x held
    obtain ⟨y, heldY, leY⟩ := left.forth x held
    obtain ⟨z, heldZ, leZ⟩ := right.forth y heldY
    exact ⟨z, heldZ, leZ.trans leY⟩
  · exact trans_of _ right.columns left.columns
  · exact fun equational => right.equational (left.equational equational)

/-- Only the program and the log of a reduced state matter. -/
theorem recounted {before after : State Rat} (reduces : Reduces before after) (other : State Rat)
    (program : other.program = after.program) (removed : other.removed = after.removed) :
    Reduces before other := by
  constructor
  · rw [program, removed]
    exact reduces.back
  · rw [program]
    exact reduces.forth
  · rw [program]
    exact reduces.columns
  · rw [program]
    exact reduces.equational

/-- Every column that is left was narrowed from one of the program before. -/
theorem source {before after : State Rat} (reduces : Reduces before after) {column : Column Rat}
    (member : column ∈ after.program.columns) :
    ∃ source ∈ before.program.columns, Narrower column source := by
  obtain ⟨kept, narrower, sublist⟩ := List.sublistForall₂_iff.mp reduces.columns
  obtain ⟨place, inside, rfl⟩ := List.getElem_of_mem member
  have there := List.forall₂_iff_get.mp narrower
  exact ⟨_, sublist.subset (List.getElem_mem (there.1 ▸ inside)),
    there.2 place inside (there.1 ▸ inside)⟩

theorem structural {before after : State Rat} (reduces : Reduces before after)
    (structural : before.program.Structural) : after.program.Structural := by
  intro column member
  obtain ⟨source, there, narrower⟩ := reduces.source member
  obtain ⟨plain, upright⟩ := structural source there
  exact ⟨narrower.slack.trans plain, narrower.orientation.trans upright⟩

theorem floor {before after : State Rat} (reduces : Reduces before after)
    (floor : before.program.BoundedBelow) : after.program.BoundedBelow := by
  intro column member
  obtain ⟨source, there, narrower⟩ := reduces.source member
  exact (Range.bounds_of_narrower narrower.range).1 (floor source there)

/-- A feasible point of the reduced program leads back to a feasible one. -/
theorem back_feasible {before after : State Rat} (reduces : Reduces before after) {y : List Rat}
    (held : after.program.Feasible y) : ∃ x, before.program.Feasible x ∧
      before.program.objectiveValue x = after.program.objectiveValue y := by
  obtain ⟨x, satisfied, value, whole, -⟩ := reduces.back y held.toSatisfies
  exact ⟨x, ⟨satisfied, whole held.integral⟩, value⟩

end Reduces

/-- What a verdict says about the program it was reached on. Faults do not occur. -/
def Verdict.Means (program : Program Rat) : Verdict → Prop
  | infeasible => ∀ x, ¬ program.Feasible x
  | unbounded => ∀ x, program.Feasible x → ∀ limit : Rat, ∃ y, program.Feasible y ∧
      program.objectiveValue y < limit
  | fault _ => False

/-- A verdict on a reduced program is a verdict on the program before. -/
theorem Reduces.means {before after : State Rat} (reduces : Reduces before after)
    {verdict : Verdict} (means : verdict.Means after.program) : verdict.Means before.program := by
  cases verdict with
  | infeasible =>
    intro x held
    obtain ⟨y, heldY, -⟩ := reduces.forth x held
    exact means y heldY
  | unbounded =>
    intro x held limit
    obtain ⟨y, heldY, -⟩ := reduces.forth x held
    obtain ⟨y', heldY', below⟩ := means y heldY limit
    obtain ⟨x', heldX', value⟩ := reduces.back_feasible heldY'
    exact ⟨x', heldX', value ▸ below⟩
  | fault cause => exact means

/-! ### Directions -/

/-- A state with directions for points. -/
def State.recession (state : State Rat) : State Rat :=
  { state with program := state.program.recession, removed := state.removed.recession }

/-- A reduced state stands for the state before it, for points and for directions. -/
structure Refines (before after : State Rat) : Prop extends Reduces before after where
  recession : Reduces before.recession after.recession

namespace Refines

theorem refl (state : State Rat) : Refines state state := ⟨.refl state, .refl state.recession⟩

theorem trans {first second third : State Rat} (left : Refines first second)
    (right : Refines second third) : Refines first third :=
  ⟨left.toReduces.trans right.toReduces, left.recession.trans right.recession⟩

/-- Reduction neither adds nor takes away a direction that lowers the objective. -/
theorem descends_iff {before after : State Rat} (refines : Refines before after) :
    before.program.Descends ↔ after.program.Descends := by
  constructor
  · rintro ⟨d, recedes, slope⟩
    obtain ⟨e, held, below⟩ :=
      refines.recession.forth d ((Program.feasible_recession_iff _ d).mpr recedes)
    refine ⟨e, held.toSatisfies, ?_⟩
    simp only [State.recession, Program.objectiveValue_recession] at below
    exact below.trans_lt slope
  · rintro ⟨e, recedes, slope⟩
    obtain ⟨d, held, same, -⟩ := refines.recession.back e recedes
    refine ⟨d, held, ?_⟩
    simp only [State.recession, Program.objectiveValue_recession] at same
    rw [same]
    exact slope

end Refines

/-- A verdict is right, and a direction shows that a program is unbounded. -/
def Verdict.Certified (program : Program Rat) : Verdict → Prop
  | infeasible => Verdict.infeasible.Means program
  | unbounded => Verdict.unbounded.Means program ∧ program.Descends
  | fault _ => False

theorem Verdict.Certified.means {program : Program Rat} {verdict : Verdict}
    (certified : verdict.Certified program) : verdict.Means program := by
  cases verdict with
  | infeasible => exact certified
  | unbounded => exact certified.1
  | fault cause => exact certified

theorem Refines.certified {before after : State Rat} (refines : Refines before after)
    {verdict : Verdict} (certified : verdict.Certified after.program) :
    verdict.Certified before.program := by
  have means := refines.toReduces.means certified.means
  cases verdict with
  | infeasible => exact means
  | unbounded => exact ⟨means, refines.descends_iff.mpr certified.2⟩
  | fault cause => exact means

section Steps

variable {β γ : Type}

/-- From a well formed program with the given property, a step reduces it to another one,
or reaches a verdict that is right. -/
def Sound (pre : State Rat → Prop) (step : Reduction Rat β) (post : β → State Rat → Prop) :
    Prop :=
  ∀ state : State Rat, state.program.Valid → pre state → Ends step state
    (fun value next => next.program.Valid ∧ Refines state next ∧ post value next)
    fun verdict _ => verdict.Certified state.program

variable {pre : State Rat → Prop} {post : β → State Rat → Prop}

theorem Sound.bind {step : Reduction Rat β} {next : β → Reduction Rat γ}
    {final : γ → State Rat → Prop} (first : Sound pre step post)
    (rest : ∀ value, Sound (post value) (next value) final) :
    Sound pre (step >>= next) final := by
  intro state valid held
  rw [ends_bind]
  refine (first state valid held).mono ?_ fun _ _ => id
  rintro value middle ⟨validMiddle, refines, heldMiddle⟩
  refine (rest value middle validMiddle heldMiddle).mono ?_ ?_
  · rintro result last ⟨validLast, further, heldLast⟩
    exact ⟨validLast, refines.trans further, heldLast⟩
  · intro verdict _ certified
    exact refines.certified certified

theorem Sound.pure (value : β) (held : ∀ state, pre state → post value state) :
    Sound pre (pure value) post :=
  fun state valid known => ⟨valid, Refines.refl state, held state known⟩

/-- A block that starts by looking at the state. -/
theorem Sound.get {next : State Rat → Reduction Rat β}
    (rest : ∀ seen, Sound (fun state => state = seen ∧ pre state) (next seen) post) :
    Sound pre (get >>= next) post := by
  intro state valid held
  rw [ends_bind, ends_get]
  exact rest state state valid ⟨rfl, held⟩

theorem Sound.weaken {pre' : State Rat → Prop} {post' : β → State Rat → Prop}
    {step : Reduction Rat β} (sound : Sound pre step post)
    (stronger : ∀ state, pre' state → pre state)
    (weaker : ∀ value state, post value state → post' value state) : Sound pre' step post' := by
  intro state valid held
  refine (sound state valid (stronger state held)).mono ?_ fun _ _ => id
  rintro value next ⟨validNext, refines, known⟩
  exact ⟨validNext, refines, weaker value next known⟩

/-- A sweep establishes at each of its positions what the step there does, as long as
steps keep what was established before. -/
theorem Sound.sweep {inv : (Nat → Prop) → State Rat → Prop} {step : Nat → Reduction Rat Bool}
    {indices : List Nat}
    (steps : ∀ index ∈ indices, ∀ done, Sound (inv done) (step index)
      fun _ => inv fun other => done other ∨ other = index) (done : Nat → Prop) :
    Sound (inv done) (Presolve.sweep step indices)
      fun _ => inv fun other => done other ∨ other ∈ indices := by
  induction indices generalizing done with
  | nil => exact Sound.pure false fun state => by simp
  | cons index rest ih =>
    refine (steps index (by simp) done).bind fun here => ?_
    refine (ih (fun later member => steps later (by simp [member])) _).bind fun later => ?_
    exact Sound.pure _ fun state => by simp [or_assoc]

/-- A sweep of steps that keep a property keeps it. -/
theorem Sound.sweep_inv {inv : State Rat → Prop} {step : Nat → Reduction Rat Bool}
    {indices : List Nat} (steps : ∀ index ∈ indices, Sound inv (step index) fun _ => inv) :
    Sound inv (Presolve.sweep step indices) fun _ => inv :=
  Sound.sweep (fun index member _ => steps index member) fun _ => False

/-- A downward sweep visits only positions that are left: a step at a position may remove
what is there, but leaves everything below. -/
theorem Sound.sweepDown {size : State Rat → Nat} {inv : State Rat → Prop}
    {step : Nat → Reduction Rat Bool}
    (steps : ∀ index, Sound (fun state => index < size state ∧ inv state) (step index)
      fun _ state => index ≤ size state ∧ inv state) (count : Nat) :
    Sound (fun state => count ≤ size state ∧ inv state) (Presolve.sweepDown count step)
      fun _ => inv := by
  induction count with
  | zero => exact Sound.pure false fun _ held => held.2
  | succ count ih =>
    rw [Presolve.sweepDown, List.range_succ, List.reverse_append]
    refine ((steps count).weaken (fun state held => held) fun _ _ => id).bind fun here => ?_
    exact ih.bind fun later => Sound.pure _ fun _ => id

end Steps

end MixedInteger.Presolve
