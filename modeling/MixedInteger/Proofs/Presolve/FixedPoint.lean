import MixedInteger.Proofs.Presolve.Accounts
import MixedInteger.Proofs.Presolve.Survival

/-! A pass changes nothing exactly when it says so. Every reduction works out its flag in its own way,
but all of them keep one contract: a set flag means that the program got smaller, and otherwise the
reduction left the state alone and would do so in any state with this program. Presolve therefore
stops at a fixed point, whatever its counts and its log. -/
namespace MixedInteger.Presolve

/-! ### Steps that only look -/

/-- A step that only looks at the program: in all states with one program it has one value or one
verdict, and it leaves the state as it is. -/
def Looks {β : Type} (step : Reduction Rat β) : Prop := ∀ program : Program Rat,
  (∃ value, ∀ state : State Rat, state.program = program → step.run state = .ok value state) ∨
    ∃ verdict, ∀ state : State Rat, state.program = program → step.run state = .error verdict state

namespace Looks

variable {β γ : Type}

theorem pure (value : β) : Looks (Pure.pure value) := fun _ => .inl ⟨value, fun _ _ => rfl⟩

theorem attempt (calculation : Except Fault β) : Looks (Presolve.attempt calculation) := by
  cases calculation with
  | ok value => exact pure value
  | error cause => exact fun _ => .inr ⟨.fault cause, fun _ _ => rfl⟩

/-- A calculation on the program. -/
theorem attemptOf (calculation : Program Rat → Except Fault β) :
    Looks (do Presolve.attempt (calculation (← get).program)) := by
  intro program
  rcases attempt (calculation program) program with ⟨value, ran⟩ | ⟨verdict, ran⟩
  · refine .inl ⟨value, fun state same => ?_⟩
    have here := ran state same
    subst same
    exact here
  · refine .inr ⟨verdict, fun state same => ?_⟩
    have here := ran state same
    subst same
    exact here

theorem rowAt (index : Nat) : Looks (Presolve.rowAt index) :=
  attemptOf fun program => inRange program.rows[index]?

theorem columnAt (index : Nat) : Looks (Presolve.columnAt index) :=
  attemptOf fun program => inRange program.columns[index]?

theorem objectiveAt (index : Nat) : Looks (Presolve.objectiveAt index) :=
  attemptOf fun program => inRange program.objective[index]?

theorem bind {step : Reduction Rat β} {next : β → Reduction Rat γ} (first : Looks step)
    (rest : ∀ value, Looks (next value)) : Looks (step >>= next) := by
  intro program
  rcases first program with ⟨value, ran⟩ | ⟨verdict, ran⟩
  · rcases rest value program with ⟨final, ran'⟩ | ⟨verdict, ran'⟩
    · exact .inl ⟨final, fun state same => by rw [EStateM.run_bind, ran state same]; exact ran' state same⟩
    · exact .inr ⟨verdict, fun state same => by rw [EStateM.run_bind, ran state same]; exact ran' state same⟩
  · exact .inr ⟨verdict, fun state same => by rw [EStateM.run_bind, ran state same]⟩

theorem mapM {step : β → Reduction Rat γ} (steps : ∀ item, Looks (step item)) (items : List β) :
    Looks (items.mapM step) := by
  induction items with
  | nil => exact pure []
  | cons item items ih =>
    rw [List.mapM_cons]
    exact (steps item).bind fun _ => ih.bind fun _ => pure _

theorem ends {step : Reduction Rat β} (looks : Looks step) (state : State Rat) :
    Ends step state (fun value next => next = state ∧ step.run state = .ok value state)
      fun _ next => next = state := by
  rcases looks state.program with ⟨value, ran⟩ | ⟨verdict, ran⟩
  · exact (ends_iff_of_ok (ran state rfl)).mpr ⟨rfl, ran state rfl⟩
  · exact (ends_iff_of_error (ran state rfl)).mpr rfl

end Looks

/-- The row that was looked up is there. -/
theorem row_of_run {state : State Rat} {index : Nat} {row : Row Rat}
    (ran : (rowAt index).run state = .ok row state) : state.program.rows[index]? = some row := by
  cases known : state.program.rows[index]? with
  | some other =>
    have ends : Ends (rowAt index) state (fun row _ => other = row) fun _ _ => False :=
      (ends_rowAt known).mpr rfl
    rw [ends.ok_of_run ran]
  | none =>
    have ends : Ends (rowAt index) state (fun _ _ => False) fun _ _ => True := by
      simp only [rowAt, ends_bind, ends_get, known]
      exact trivial
    exact (ends.ok_of_run ran).elim

/-- The column that was looked up is there. -/
theorem column_of_run {state : State Rat} {index : Nat} {column : Column Rat}
    (ran : (columnAt index).run state = .ok column state) :
    state.program.columns[index]? = some column := by
  have ends : Ends (columnAt index) state
      (fun value _ => state.program.columns[index]? = some value) fun _ _ => True :=
    ends_columnAt_of fun _ known => known
  exact ends.ok_of_run ran

/-! ### Flags -/

/-- A step that changes nothing in any state with this program. -/
def Idle (step : Reduction Rat Bool) (program : Program Rat) : Prop :=
  ∀ state : State Rat, state.program = program → step.run state = .ok false state

/-- A step that ends at or below the state it started in. -/
def Descending {β : Type} (step : Reduction Rat β) (state : State Rat) : Prop :=
  Ends step state (fun _ next => Leads state next) fun _ next => Leads state next

/-- A step with an exact flag: a set flag means that the program got smaller, and otherwise the step
is idle. -/
def Flagged (step : Reduction Rat Bool) (state : State Rat) : Prop :=
  Ends step state
    (fun changed next => if changed then Shrinks state next else next = state ∧ Idle step state.program)
    fun _ next => Leads state next

/-- Two steps in turn; true if one of them changed something. -/
def inTurn (first second : Reduction Rat Bool) : Reduction Rat Bool := do
  let here ← first
  let later ← second
  return here || later

namespace Flagged

variable {β : Type} {state : State Rat} {step : Reduction Rat Bool}

theorem descending (flagged : Flagged step state) : Descending step state := by
  refine Ends.mono flagged (fun changed next => ?_) fun _ _ => id
  cases changed with
  | true => exact Shrinks.toLeads
  | false =>
    rintro ⟨rfl, -⟩
    exact .refl next

theorem pure_false : Flagged (pure false) state := ⟨rfl, fun _ _ => rfl⟩

theorem throw (verdict : Verdict) : Flagged (throw verdict) state := Leads.refl state

/-- A step that always says that it changed something. -/
theorem of_shrinks {change : Reduction Rat β}
    (ends : Ends change state (fun _ next => Shrinks state next) fun _ next => Leads state next) :
    Flagged (do let _ ← change; return true) state := by
  rw [Flagged, ends_bind]
  exact ends

/-- After something that has one value and leaves the state alone. -/
theorem after_still {first : Reduction Rat β} {value : β} {next : β → Reduction Rat Bool}
    (still : ∀ twin : State Rat, twin.program = state.program → first.run twin = .ok value twin)
    (rest : Flagged (next value) state) : Flagged (first >>= next) state := by
  rw [Flagged, ends_bind, ends_iff_of_ok (still state rfl)]
  refine Ends.mono rest (fun changed reached => ?_) fun _ _ => id
  cases changed with
  | true => exact id
  | false =>
    rintro ⟨same, idle⟩
    refine ⟨same, fun twin alike => ?_⟩
    rw [EStateM.run_bind, still twin alike]
    exact idle twin alike

/-- Looking at the program first. -/
theorem after_look {look : Reduction Rat β} {next : β → Reduction Rat Bool} (looks : Looks look)
    (rest : ∀ value, look.run state = .ok value state → Flagged (next value) state) :
    Flagged (look >>= next) state := by
  rcases looks state.program with ⟨value, ran⟩ | ⟨verdict, ran⟩
  · exact after_still ran (rest value (ran state rfl))
  · rw [Flagged, ends_bind, ends_iff_of_error (ran state rfl)]
    exact .refl state

/-- Reading the program out of the state. -/
theorem after_get {next : State Rat → Reduction Rat Bool}
    (alike : ∀ twin : State Rat, twin.program = state.program → next twin = next state)
    (rest : Flagged (next state) state) : Flagged (get >>= next) state := by
  rw [Flagged, ends_bind, ends_get]
  refine Ends.mono rest (fun changed reached => ?_) fun _ _ => id
  cases changed with
  | true => exact id
  | false =>
    rintro ⟨same, idle⟩
    refine ⟨same, fun twin same' => ?_⟩
    have ran := idle twin same'
    rw [← alike twin same'] at ran
    exact ran

/-- If neither step changed anything the second one worked on the state that the first one started
in. -/
theorem inTurn {second : Reduction Rat Bool} (here : Flagged step state)
    (later : ∀ next, Flagged second next) : Flagged (inTurn step second) state := by
  rw [Flagged, Presolve.inTurn, ends_bind]
  refine here.mono (fun changed middle => ?_) fun _ _ => id
  rw [ends_bind]
  cases changed with
  | true =>
    intro shrinks
    refine (later middle).descending.mono (fun _ next leads => ?_) fun _ _ leads => ?_
    · exact shrinks.trans_leads leads
    · exact shrinks.toLeads.trans leads
  | false =>
    rintro ⟨rfl, idle⟩
    refine (later middle).mono (fun changed next => ?_) fun _ _ => id
    cases changed with
    | true => exact id
    | false =>
      rintro ⟨rfl, idle'⟩
      refine ⟨rfl, fun twin same => ?_⟩
      rw [EStateM.run_bind, idle twin same]
      change (second >>= fun later => pure (false || later)).run twin = _
      rw [EStateM.run_bind, idle' twin same]
      rfl

theorem sweep {step : Nat → Reduction Rat Bool} (steps : ∀ index next, Flagged (step index) next)
    (indices : List Nat) (state : State Rat) : Flagged (sweep step indices) state := by
  induction indices generalizing state with
  | nil => exact pure_false
  | cons index rest ih => exact (steps index state).inTurn ih

end Flagged

/-! ### Ranges -/

/-- Giving a column its own range leaves every state with this program alone. -/
theorem setRange_still {state : State Rat} {index : Nat} {column : Column Rat}
    (known : state.program.columns[index]? = some column) (twin : State Rat)
    (same : twin.program = state.program) :
    (setRange index column.range).run twin = .ok () twin := by
  have own := Program.narrowed_self (same ▸ known)
  change EStateM.Result.ok () { twin with program := twin.program.narrowed index column.range } = _
  rw [own]

/-- Tightening says whether the range changed. -/
theorem flagged_tighten (index : Nat) (lower upper : Option Rat) (state : State Rat) :
    Flagged (tighten index lower upper) state := by
  refine Flagged.after_look (.columnAt index) fun column ran => ?_
  have known := column_of_run ran
  have within := column.range.tightened_within lower upper
  have exact := column.range.tightened_eq_iff lower upper
  change Flagged (do
    setRange index (column.range.tightened lower upper)
    if (column.range.tightened lower upper).isEmpty then throw .infeasible
    if lower.any column.range.raises ||
        upper.any (lower.elim column.range column.range.tightenLower).lowers then countTightened
    return lower.any column.range.raises ||
      upper.any (lower.elim column.range column.range.tightenLower).lowers) state
  generalize column.range.tightened lower upper = range at within exact
  generalize (lower.any column.range.raises ||
    upper.any (lower.elim column.range column.range.tightenLower).lowers) = changed at exact
  cases changed with
  | true =>
    have apart : range ≠ column.range := by simpa using exact
    simp only [Flagged, setRange, ends_bind, ends_modify]
    split
    · exact leads_narrow known within _
    · exact shrinks_narrow known within apart _
  | false =>
    obtain rfl : range = column.range := exact.mpr rfl
    refine Flagged.after_still (setRange_still known) ?_
    simp only [Bool.false_eq_true, ↓reduceIte]
    split
    · exact Flagged.throw _
    · exact Flagged.pure_false

/-- Tightening touches no row. -/
theorem tighten_rows (index : Nat) (lower upper : Option Rat) (state : State Rat) :
    Ends (tighten index lower upper) state (fun _ next => next.program.rows = state.program.rows)
      fun _ _ => True := by
  rw [tighten, ends_bind]
  refine ends_columnAt_of fun column _ => ?_
  simp only [setRange, ends_bind, ends_modify]
  split
  · exact trivial
  · split
    · exact rfl
    · exact rfl

/-- Rounding says whether the range changed. -/
theorem flagged_roundBounds (index : Nat) (state : State Rat) : Flagged (roundBounds index) state := by
  refine Flagged.after_look (.columnAt index) fun column ran => ?_
  have known := column_of_run ran
  have within := Range.Within.roundInward column.range
  cases column.integral with
  | false => exact Flagged.pure_false
  | true =>
    simp only [Bool.not_true, Bool.false_eq_true, ↓reduceIte]
    generalize column.range.roundInward = range at within
    by_cases same : range = column.range
    · subst same
      refine Flagged.after_still (setRange_still known) ?_
      have flag : column.range.same column.range = true := (Range.same_iff _ _).mpr rfl
      simp only [flag, ↓reduceIte]
      split
      · exact Flagged.throw _
      · exact Flagged.pure_false
    · have flag : range.same column.range = false := by
        simpa [← Bool.not_eq_true, Range.same_iff] using same
      simp only [Flagged, setRange, ends_bind, ends_modify, flag]
      split
      · exact leads_narrow known within _
      · exact shrinks_narrow known within same _

/-! ### Rows -/

theorem shrinks_removeRow {state : State Rat} {index : Nat} (inside : index < state.program.rows.length) :
    Ends (removeRow index) state (fun _ next => Shrinks state next) fun _ next => Leads state next :=
  shrinks_dropRow inside

theorem flagged_removeEmptyRow (index : Nat) (state : State Rat) :
    Flagged (removeEmptyRow index) state := by
  refine Flagged.after_look (.rowAt index) fun row ran => ?_
  obtain ⟨inside, -⟩ := List.getElem?_eq_some_iff.mp (row_of_run ran)
  split
  · split
    · exact Flagged.throw _
    · exact Flagged.of_shrinks (shrinks_removeRow inside)
  · exact Flagged.pure_false

/-- Dropping a row after something that leads down and touches no row. -/
theorem flagged_takeRow {β : Type} {state : State Rat} {index : Nat} {first : Reduction Rat β}
    (inside : index < state.program.rows.length) (down : Descending first state)
    (rows : Ends first state (fun _ next => next.program.rows = state.program.rows) fun _ _ => True) :
    Flagged (do let _ ← first; removeRow index; return true) state := by
  rw [Flagged, ends_bind]
  refine (down.and rows).mono ?_ fun _ _ => And.left
  rintro _ next ⟨leads, same⟩
  exact leads.trans_shrinks (shrinks_dropRow (same ▸ inside))

theorem flagged_removeSingletonRow (index : Nat) (state : State Rat) :
    Flagged (removeSingletonRow index) state := by
  refine Flagged.after_look (.rowAt index) fun row ran => ?_
  obtain ⟨inside, -⟩ := List.getElem?_eq_some_iff.mp (row_of_run ran)
  have take : ∀ column lower upper, Flagged (do
      let _ ← tighten column lower upper
      removeRow index
      return true) state := fun column lower upper =>
    flagged_takeRow inside (flagged_tighten column lower upper state).descending
      (tighten_rows column lower upper state)
  split
  · dsimp only
    split
    · exact take _ _ _
    · exact take _ _ _
    · exact take _ _ _
  · exact Flagged.pure_false

theorem forceColumns_descends (atMin : Bool) (entries : List (Nat × Rat)) (state : State Rat) :
    Ends (forceColumns atMin entries) state
      (fun _ next => Leads state next ∧ next.program.rows = state.program.rows)
      fun _ next => Leads state next := by
  induction entries generalizing state with
  | nil => exact ⟨.refl state, rfl⟩
  | cons entry rest ih =>
    rw [forceColumns, ends_bind]
    refine ((Looks.columnAt entry.1).ends state).mono ?_ fun _ next same => same ▸ .refl state
    rintro column _ ⟨rfl, -⟩
    dsimp only
    split
    · rw [ends_bind]
      refine ((flagged_tighten _ _ _ _).descending.and (tighten_rows _ _ _ _)).mono ?_ fun _ _ => And.left
      rintro _ middle ⟨leads, rows⟩
      refine (ih middle).mono ?_ fun _ next further => leads.trans further
      rintro _ next ⟨further, rows'⟩
      exact ⟨leads.trans further, rows'.trans rows⟩
    · exact ih _

theorem flagged_checkRowActivity (index : Nat) (state : State Rat) :
    Flagged (checkRowActivity index) state := by
  refine Flagged.after_look (.rowAt index) fun row ran => ?_
  obtain ⟨inside, -⟩ := List.getElem?_eq_some_iff.mp (row_of_run ran)
  refine Flagged.after_get (fun twin same => by simp only [same]) ?_
  dsimp only
  split
  · exact Flagged.throw _
  · split
    · exact Flagged.of_shrinks (shrinks_removeRow inside)
    · split
      · have forced := fun atMin => forceColumns_descends atMin row.support state
        exact flagged_takeRow inside ((forced _).mono (fun _ _ => And.left) fun _ _ => id)
          ((forced _).mono (fun _ _ => And.right) fun _ _ _ => trivial)
      · exact Flagged.pure_false

/-! ### Bounds -/

theorem flagged_tightenByRow (index column : Nat) (state : State Rat) :
    Flagged (tightenByRow index column) state := by
  refine Flagged.after_look (.rowAt index) fun row _ => ?_
  refine Flagged.after_look (.attempt _) fun a _ => ?_
  split
  · exact Flagged.pure_false
  · refine Flagged.after_look (.columnAt column) fun data _ => ?_
    refine Flagged.after_get (fun twin same => by simp only [same]) ?_
    dsimp only
    split
    · exact Flagged.pure_false
    · exact flagged_tighten _ _ _ _

/-! ### Columns -/

theorem shrinks_removeColumn (index : Nat) (recovery : Recovery Rat) (state : State Rat) :
    Ends (removeColumn index recovery) state (fun _ next => Shrinks state next)
      fun _ next => Leads state next := by
  simp only [removeColumn, ends_bind, ends_get]
  refine ((Looks.columnAt index).ends state).mono ?_ fun _ next same => same ▸ .refl state
  rintro column _ ⟨rfl, ran⟩
  obtain ⟨inside, -⟩ := List.getElem?_eq_some_iff.mp (column_of_run ran)
  split
  · exact shrinks_dropColumn inside _
  · exact .refl _

theorem shrinks_removeAtValue (index : Nat) (value : Rat) (state : State Rat) :
    Ends (removeAtValue index value) state (fun _ next => Shrinks state next)
      fun _ next => Leads state next := by
  simp only [removeAtValue, ends_bind, ends_get]
  -- The new rows are as many as the old ones, and are worked out without a change of state.
  have looks : ∀ row : Row Rat, Looks (do
      let a ← attempt (row.coef index)
      return if Scalar.isZero a then row else { row with rhs := row.rhs - a * value }) :=
    fun row => (Looks.attempt _).bind fun _ => Looks.pure _
  have count := ends_mapM_of_reads (fun _ _ => True)
    (fun row => ((looks row).ends state).mono (fun _ _ kept => ⟨kept.1, trivial⟩) fun _ _ _ => trivial)
    state.program.rows
  refine (((Looks.mapM looks _).ends state).and count).mono ?_ fun _ next kept => kept.1 ▸ .refl state
  rintro rows _ ⟨⟨rfl, -⟩, -, asMany⟩
  refine ((Looks.objectiveAt index).ends _).mono ?_ fun _ next same => same ▸ .refl _
  rintro cost start ⟨rfl, -⟩
  have adjusted : Leads start { start with
      program := { start.program with rows, constant := start.program.constant + cost * value } } :=
    leads_adjust asMany.length_eq rfl
  refine (shrinks_removeColumn index (.constant value) _).mono ?_ fun _ next => adjusted.trans
  exact fun _ next => adjusted.trans_shrinks

theorem flagged_removeFixedColumn (index : Nat) (state : State Rat) :
    Flagged (removeFixedColumn index) state := by
  refine Flagged.after_look (.columnAt index) fun column _ => ?_
  split
  · exact Flagged.of_shrinks (shrinks_removeAtValue _ _ _)
  · exact Flagged.pure_false

theorem flagged_removeEmptyColumn (index : Nat) (state : State Rat) :
    Flagged (removeEmptyColumn index) state := by
  refine Flagged.after_get (fun twin same => by simp only [same]) ?_
  refine Flagged.after_look (.mapM (fun row => .attempt _) _) fun entries _ => ?_
  split
  · exact Flagged.pure_false
  · refine Flagged.after_look (.objectiveAt index) fun cost _ => ?_
    refine Flagged.after_look (.columnAt index) fun column _ => ?_
    split
    · exact Flagged.of_shrinks (shrinks_removeAtValue _ _ _)
    · exact Flagged.throw _

/-- Replacing a column by its row drops a row and a column. -/
theorem shrinks_substituteOut (rowIndex index : Nat) (state : State Rat) :
    Ends (substituteOut rowIndex index) state (fun _ next => Shrinks state next)
      fun _ next => Leads state next := by
  have drop : ∀ (start middle : State Rat) (recovery : Recovery Rat), Leads start middle →
      rowIndex < middle.program.rows.length →
      Ends (do removeRow rowIndex; removeColumn index recovery) middle
        (fun _ next => Shrinks start next) fun _ next => Leads start next := by
    intro start middle recovery leads inside
    have dropped := leads.trans_shrinks (shrinks_dropRow inside)
    rw [ends_bind]
    refine (shrinks_removeColumn index recovery _).mono ?_ fun _ next => dropped.toLeads.trans
    exact fun _ next => dropped.toLeads.trans_shrinks
  rw [substituteOut, ends_bind]
  refine ((Looks.rowAt rowIndex).ends state).mono ?_ fun _ next same => same ▸ .refl state
  rintro row _ ⟨rfl, ran⟩
  obtain ⟨inside, -⟩ := List.getElem?_eq_some_iff.mp (row_of_run ran)
  rw [ends_bind]
  refine ((Looks.attempt _).ends _).mono ?_ fun _ next same => same ▸ .refl _
  rintro a _ ⟨rfl, -⟩
  rw [ends_bind]
  refine ((Looks.objectiveAt index).ends _).mono ?_ fun _ next same => same ▸ .refl _
  rintro cost start ⟨rfl, -⟩
  dsimp only
  split
  · rw [ends_bind, ends_get, ends_bind]
    refine ((Looks.attempt _).ends _).mono ?_ fun _ next same => same ▸ .refl _
    rintro objective start ⟨rfl, -⟩
    rw [ends_bind, ends_modify]
    exact drop start _ _ (leads_adjust rfl rfl) inside
  · exact drop start start _ (.refl start) inside

theorem flagged_eliminateImpliedFree (fuel : Nat) (state : State Rat) :
    Flagged (eliminateImpliedFree fuel) state := by
  induction fuel generalizing state with
  | zero => exact Flagged.pure_false
  | succ fuel ih =>
    refine Flagged.after_get (fun twin same => by simp only [same]) ?_
    refine Flagged.after_look (.attempt _) fun found _ => ?_
    split
    · exact Flagged.pure_false
    · rw [Flagged, ends_bind]
      refine (shrinks_substituteOut _ _ state).mono (fun _ middle shrinks => ?_) fun _ _ => id
      rw [ends_bind]
      refine (ih middle).descending.mono (fun _ _ => shrinks.trans_leads) fun _ _ leads => ?_
      exact shrinks.toLeads.trans leads

/-! ### Passes -/

/-- A pass runs its reductions in turn. -/
theorem pass_eq : (pass : Reduction Rat Bool) =
    inTurn removeEmptyRows (inTurn removeSingletonRows (inTurn checkRowActivities
      (inTurn removeImpliedFreeColumns (inTurn tightenBounds (inTurn roundIntegralBounds
        (inTurn removeFixedColumns removeEmptyColumns)))))) := by
  simp only [pass, inTurn, bind_assoc, pure_bind, Bool.or_assoc]

/-- A reduction at every position of a list that depends on the program. -/
theorem flagged_sweep {step : Nat → Reduction Rat Bool} (positions : Program Rat → List Nat)
    (steps : ∀ index next, Flagged (step index) next) (state : State Rat) :
    Flagged (do sweep step (positions (← get).program)) state :=
  Flagged.after_get (fun twin same => by simp only [same]) (Flagged.sweep steps _ state)

/-- The flag of a pass is exact. -/
theorem flagged_pass (state : State Rat) : Flagged pass state := by
  let rows := fun program : Program Rat => (List.range program.rows.length).reverse
  let columns := fun program : Program Rat => (List.range program.columns.length).reverse
  rw [pass_eq]
  refine (flagged_sweep rows flagged_removeEmptyRow state).inTurn fun _ => ?_
  refine (flagged_sweep rows flagged_removeSingletonRow _).inTurn fun _ => ?_
  refine (flagged_sweep rows flagged_checkRowActivity _).inTurn fun _ => ?_
  refine Flagged.inTurn ?_ fun _ => Flagged.inTurn ?_ fun _ => Flagged.inTurn ?_ fun _ => ?_
  · refine Flagged.after_get (fun twin same => by simp only [same]) ?_
    exact flagged_eliminateImpliedFree _ _
  · refine Flagged.after_get (fun twin same => by simp only [same]) ?_
    exact Flagged.sweep (fun row => Flagged.sweep (flagged_tightenByRow row) _) _ _
  · exact flagged_sweep (fun program => List.range program.columns.length) flagged_roundBounds _
  · refine (flagged_sweep columns flagged_removeFixedColumn _).inTurn fun _ => ?_
    exact flagged_sweep columns flagged_removeEmptyColumn _

/-- The flag is not set exactly when program and log are as before. -/
theorem pass_flag_iff {state next : State Rat} {changed : Bool}
    (ran : pass.run state = .ok changed next) :
    changed = false ↔ next.program = state.program ∧ next.removed = state.removed := by
  have ends := (flagged_pass state).ok_of_run ran
  cases changed with
  | true =>
    have shrinks : Shrinks state next := ends
    constructor
    · intro
      contradiction
    · rintro ⟨same, -⟩
      exact absurd ⟨by rw [same], by rw [ranges, same, ranges]⟩ shrinks.apart
  | false =>
    obtain ⟨rfl, -⟩ : next = state ∧ _ := ends
    exact ⟨fun _ => ⟨rfl, rfl⟩, fun _ => rfl⟩

/-- Passes keep accounts, and if some are left over the last one was idle. -/
theorem passes_settle {left : Nat} {state final : State Rat} {status : Status}
    (ran : passes left state = .ok (status, final)) :
    Accounts state final ∧ (status = .reduced ∨ status = .solved →
      final.counts.passes < state.counts.passes + left →
        status = settled final ∧ Idle pass final.program) := by
  induction left generalizing state with
  | zero =>
    obtain ⟨rfl, rfl⟩ := Prod.mk.inj (Except.ok.inj ran)
    exact ⟨.refl state, fun _ early => absurd early (Nat.lt_irrefl _)⟩
  | succ left ih =>
    have flagged := flagged_pass { state with counts.passes := state.counts.passes + 1 }
    have counted : Accounts state { state with counts.passes := state.counts.passes + 1 } :=
      ⟨(Accounts.refl state).rows, (Accounts.refl state).columns, (Accounts.refl state).within⟩
    rw [passes] at ran
    split at ran
    · rename_i next once
      have leads : Leads _ next := flagged.descending.ok_of_run once
      obtain ⟨accounts, settles⟩ := ih ran
      refine ⟨(counted.trans leads.toAccounts).trans accounts, fun kept early => settles kept ?_⟩
      have steps : next.counts.passes = state.counts.passes + 1 := leads.passes
      omega
    · rename_i next once
      obtain ⟨rfl, rfl⟩ := Prod.mk.inj (Except.ok.inj ran)
      have leads : Leads _ next := flagged.descending.ok_of_run once
      obtain ⟨same, idle⟩ : next = _ ∧ Idle pass state.program := flagged.ok_of_run once
      refine ⟨counted.trans leads.toAccounts, fun _ _ => ⟨rfl, ?_⟩⟩
      rw [same]
      exact idle
    · rename_i next once
      obtain ⟨rfl, rfl⟩ := Prod.mk.inj (Except.ok.inj ran)
      have leads : Leads _ next := flagged.descending.failed_of_run once
      exact ⟨counted.trans leads.toAccounts, by simp⟩
    · rename_i next once
      obtain ⟨rfl, rfl⟩ := Prod.mk.inj (Except.ok.inj ran)
      have leads : Leads _ next := flagged.descending.failed_of_run once
      exact ⟨counted.trans leads.toAccounts, by simp⟩
    · cases ran

/-- A run on a program for which a pass is idle takes one pass and changes nothing. -/
theorem run_of_idle {program : Program Rat} (idle : Idle pass program) {again : Nat} (some : 0 < again)
    (log : UndoLog Rat) : (run again program log).outcome =
      .ok (settled { program, removed := log }, { program, removed := log, counts := { passes := 1 } }) := by
  obtain ⟨left, rfl⟩ := Nat.exists_eq_succ_of_ne_zero some.ne'
  have once := idle { program, removed := log, counts := { passes := 1 } } rfl
  have ran : passes (left + 1) { program, removed := log } =
      .ok (settled { program, removed := log }, { program, removed := log, counts := { passes := 1 } }) := by
    rw [passes, once]
    rfl
  rw [run, Nat.succ_eq_add_one, ran]
  rfl

/-- The flag of a pass is exact: it is not set exactly when program and log are as before. Presolve of
an accepted program always ends, its counts are the rows and columns dropped and the log has grown by
the columns; and if it did not use up its passes, presolve of the result has the same status in one
pass and changes nothing. -/
theorem run_settles {program : Program Rat} (accepted : program.validate = .ok ()) :
    (∀ (state next : State Rat) (changed : Bool), state.program = program →
      pass.run state = .ok changed next →
        (changed = false ↔ next.program = program ∧ next.removed = state.removed)) ∧
    ∀ (maxPasses : Nat) (removed : UndoLog Rat), ∃ status final,
      (run maxPasses program removed).outcome = .ok (status, final) ∧
      final.program.rows.length + final.counts.rowsRemoved = program.rows.length ∧
      final.program.columns.length + final.counts.columnsRemoved = program.columns.length ∧
      (∃ added, final.removed = added ++ removed ∧ added.length = final.counts.columnsRemoved) ∧
      (status = .reduced ∨ status = .solved → final.counts.passes < maxPasses →
        ∀ (again : Nat) (log : UndoLog Rat), 0 < again → (run again final.program log).outcome =
          .ok (status, { program := final.program, removed := log, counts := { passes := 1 } })) := by
  constructor
  · rintro state next changed rfl ran
    exact pass_flag_iff ran
  · intro maxPasses removed
    obtain ⟨status, final, ended, -⟩ :=
      run_certifies (program.validate_eq_ok_iff.mp accepted) maxPasses removed
    obtain ⟨accounts, settles⟩ := passes_settle (passes_of_run ended)
    obtain ⟨dropped, fewer, counted⟩ := accounts.rows
    obtain ⟨added, grown, narrower, logged⟩ := accounts.columns
    refine ⟨status, final, ended, ?_, ?_, ⟨added, grown, ?_⟩, fun kept early again log positive => ?_⟩
    · simp only at counted fewer
      omega
    · simp only at logged narrower
      omega
    · simp only at logged
      omega
    · obtain ⟨same, idle⟩ := settles kept (by simpa using early)
      rw [run_of_idle idle positive, same]
      rfl

/-- Minimise `x + y` over `2 x ≤ 7` and `x + y ≥ 2`. The first row becomes a bound, and the second one
then says nothing new. -/
def trim : Program Rat where
  objective := [1, 1]
  constant := 0
  rows := [⟨[2, 0], .le, 7⟩, ⟨[1, 1], .ge, 2⟩]
  columns := [.continuous ⟨some 0, some 10⟩, .continuous ⟨some 0, some 4⟩]

theorem trim_settles : ∃ final, (run 3 trim []).outcome = .ok (.reduced, final) ∧
    final.counts = { passes := 2, rowsRemoved := 1, boundsTightened := 1 } ∧
    (run 1 final.program final.removed).outcome =
      .ok (.reduced, { program := final.program, removed := final.removed, counts := { passes := 1 } }) := by
  have evaluated : (match (run 3 trim []).outcome with
      | .ok (.reduced, final) =>
        decide (final.counts = { passes := 2, rowsRemoved := 1, boundsTightened := 1 })
      | _ => false) = true := by decide +kernel
  have accepted : trim.validate = .ok () := by
    refine trim.validate_eq_ok_iff.mpr ⟨⟨by decide, by decide⟩, ?_⟩
    decide +kernel
  obtain ⟨-, settles⟩ := run_settles accepted
  obtain ⟨status, final, ended, -, -, -, again⟩ := settles 3 []
  rw [ended] at evaluated
  cases status with
  | reduced =>
    have counts := of_decide_eq_true evaluated
    refine ⟨final, ended, counts, again (.inl rfl) ?_ 1 final.removed Nat.one_pos⟩
    rw [counts]
    decide
  | infeasible => cases evaluated
  | unbounded => cases evaluated
  | solved => cases evaluated

end MixedInteger.Presolve
