import MixedInteger.Proofs.Cut.Strengthening

/-! A cut in both spaces. The generator undoes shift and orientation column by column, replaces
the slack of an earlier cut by its definition, and clears slack columns of the program with
the equality rows they belong to. None of these steps changes by how much a point of the
equality rows satisfies the cut, so a cut and its translation have the same slack. -/
namespace MixedInteger.Cut

open Simplex

/-! ### The oriented image of a point -/

/-- What a tableau column reads at a point of the program: a column of the program through its
orientation, the slack of an earlier cut through its definition. -/
def Generator.slot (generator : Generator Rat) (p : List Rat) (column : TableauColumn Rat)
    (index : Nat) : Rat :=
  if index < generator.base then column.orient (p.getD index 0)
  else ((generator.definitions[index - generator.base]?).map fun (d, e) => dot d p - e).getD 0

/-- The oriented image of a point of the program. -/
def Generator.image (generator : Generator Rat) (tableau : Tableau Rat) (p : List Rat) : List Rat :=
  tableau.columns.zipIdx.map fun (column, index) => generator.slot p column index

theorem getD_image (generator : Generator Rat) {tableau : Tableau Rat} (p : List Rat) {index : Nat}
    {column : TableauColumn Rat} (known : tableau.columns[index]? = some column) :
    (generator.image tableau p).getD index 0 = generator.slot p column index := by
  simp [Generator.image, List.getElem?_zipIdx, known]

/-! ### Linear combinations -/

theorem dot_zipWith_add {coefs others : List Rat} (same : coefs.length = others.length) (factor : Rat)
    (p : List Rat) : dot (coefs.zipWith (fun c d => c + factor * d) others) p =
      dot coefs p + factor * dot others p := by
  induction coefs generalizing others p with
  | nil =>
    obtain rfl : others = [] := List.length_eq_zero_iff.mp same.symm
    simp
  | cons c coefs ih =>
    cases others with
    | nil => simp at same
    | cons d others =>
      have rest : coefs.length = others.length := by simpa using same
      cases p with
      | nil => simp
      | cons x p =>
        rw [List.zipWith_cons_cons, dot_cons, dot_cons, dot_cons, ih rest]
        ring

theorem getD_zipWith_add {coefs others : List Rat} (same : coefs.length = others.length)
    (factor : Rat) (index : Nat) : (coefs.zipWith (fun c d => c + factor * d) others).getD index 0 =
      coefs.getD index 0 + factor * others.getD index 0 := by
  by_cases inside : index < coefs.length
  · have there : index < others.length := same ▸ inside
    simp [inside, there]
  · have past : others.length ≤ index := same ▸ not_lt.mp inside
    simp [not_lt.mp inside, past]

/-! ### Column by column -/

section

variable {generator : Generator Rat} {tableau : Tableau Rat} {p : List Rat}

/-- Every recorded definition has one coefficient per column of the program. -/
def Generator.Defined (generator : Generator Rat) : Prop :=
  ∀ definition ∈ generator.definitions,
    definition.1.length = generator.program.columns.length

/-- One column adds its coefficient times its reading. -/
theorem expand_spec (defined : generator.Defined) {x x' : List Rat} {b b' g : Rat}
    {column : TableauColumn Rat} {index : Nat} (width : x.length = generator.program.columns.length)
    (expanded : generator.expand (x, b) (g, column, index) = .ok (x', b')) (p : List Rat) :
    x'.length = x.length ∧ dot x' p - b' = dot x p - b + g * generator.slot p column index := by
  unfold Generator.expand at expanded
  unfold Generator.slot
  simp only [Scalar.isZero_iff] at expanded
  by_cases zero : g = 0
  · rw [if_pos zero] at expanded
    obtain ⟨rfl, rfl⟩ := by simpa [pure, Except.pure] using expanded
    refine ⟨rfl, ?_⟩
    rw [zero, zero_mul, add_zero]
  · rw [if_neg zero] at expanded
    by_cases own : index < generator.base
    · rw [if_pos own] at expanded
      rw [if_pos own]
      cases there : x[index]? with
      | none =>
        rw [there] at expanded
        cases expanded
      | some old =>
        rw [there] at expanded
        obtain ⟨inside, -⟩ := List.getElem?_eq_some_iff.mp there
        have value : x.getD index 0 = old := by simp [there]
        unfold TableauColumn.orient
        cases flipped : column.complemented with
        | false =>
          obtain ⟨rfl, rfl⟩ := by simpa [flipped, pure, Except.pure] using expanded
          refine ⟨by simp, ?_⟩
          rw [dot_set inside, value]
          cases column.upper <;> ring
        | true =>
          cases bound : column.upper with
          | none =>
            obtain ⟨rfl, rfl⟩ := by simpa [flipped, bound, pure, Except.pure] using expanded
            refine ⟨by simp, ?_⟩
            rw [dot_set inside, value]
            ring
          | some upper =>
            obtain ⟨rfl, rfl⟩ := by simpa [flipped, bound, pure, Except.pure] using expanded
            refine ⟨by simp, ?_⟩
            rw [dot_set inside, value]
            ring
    · rw [if_neg own] at expanded
      rw [if_neg own]
      cases there : generator.definitions[index - generator.base]? with
      | none =>
        rw [there] at expanded
        obtain ⟨rfl, rfl⟩ := by simpa [pure, Except.pure] using expanded
        simp
      | some definition =>
        obtain ⟨d, e⟩ := definition
        rw [there] at expanded
        have same : x.length = d.length :=
          width.trans (defined (d, e) (List.mem_of_getElem? there)).symm
        obtain ⟨rfl, rfl⟩ := by simpa [pure, Except.pure] using expanded
        rw [← same, List.drop_length, List.append_nil, dot_zipWith_add same]
        refine ⟨by simp [same], ?_⟩
        simp only [Option.map_some, Option.getD_some]
        ring

/-- All columns together add the cut's value at the oriented image. -/
theorem foldlM_expand (defined : generator.Defined) {coefs : List Rat}
    {columns : List (TableauColumn Rat)} {start : Nat} {x : List Rat} {b : Rat} {final : Form Rat}
    (same : coefs.length = columns.length) (width : x.length = generator.program.columns.length)
    (ran : (coefs.zip (columns.zipIdx start)).foldlM generator.expand (x, b) = .ok final)
    (p : List Rat) :
    final.1.length = x.length ∧ dot final.1 p - final.2 = dot x p - b +
      dot coefs ((columns.zipIdx start).map fun (column, index) => generator.slot p column index) := by
  induction coefs generalizing columns start x b with
  | nil =>
    obtain rfl : (x, b) = final := by simpa [pure, Except.pure] using ran
    simp
  | cons g coefs ih =>
    cases columns with
    | nil => simp at same
    | cons column columns =>
      rw [List.zipIdx_cons, List.zip_cons_cons, List.foldlM_cons] at ran
      cases first : generator.expand (x, b) (g, column, start) with
      | error cause =>
        rw [first] at ran
        cases ran
      | ok middle =>
        obtain ⟨x', b'⟩ := middle
        rw [first] at ran
        obtain ⟨kept, step⟩ := expand_spec defined width first p
        obtain ⟨length, rest⟩ := ih (by simpa using same) (kept.trans width) ran
        refine ⟨length.trans kept, ?_⟩
        rw [List.zipIdx_cons, List.map_cons, dot_cons, rest, step]
        ring

/-- Where the columns of the program lie below the slacks of cuts, no column is missing. -/
theorem exists_expand_ok {x : Form Rat} (inside : generator.base ≤ x.1.length)
    (term : Rat × TableauColumn Rat × Nat) :
    ∃ next, generator.expand x term = .ok next ∧ generator.base ≤ next.1.length := by
  obtain ⟨g, column, index⟩ := term
  unfold Generator.expand
  dsimp only
  split
  · exact ⟨_, rfl, inside⟩
  · split
    · rename_i own
      rw [List.getElem?_eq_getElem (own.trans_le inside)]
      dsimp only
      split
      all_goals exact ⟨_, rfl, by simpa using inside⟩
    · split
      · refine ⟨_, rfl, inside.trans ?_⟩
        simp only [List.length_append, List.length_zipWith, List.length_drop]
        omega
      · exact ⟨_, rfl, inside⟩

theorem exists_toProgramSpace_ok (inside : generator.base ≤ generator.program.columns.length)
    (tableau : Tableau Rat) (coefs : List Rat) (rhs : Rat) :
    ∃ form, generator.toProgramSpace tableau coefs rhs = .ok form := by
  have expands : ∃ expanded, (coefs.zip tableau.columns.zipIdx).foldlM generator.expand
      (List.replicate generator.program.columns.length 0, rhs) = .ok expanded ∧ _ :=
    exists_foldlM_ok (fun x => generator.base ≤ x.1.length) (by simpa using inside)
      fun x term _ wide => exists_expand_ok wide term
  obtain ⟨expanded, ran, -⟩ := expands
  refine ⟨generator.program.columns.zipIdx.foldl
    (Generator.eliminateSlack generator.program) expanded, ?_⟩
  unfold Generator.toProgramSpace
  dsimp only
  rw [ran]
  rfl

/-! ### Slack columns of the program -/

/-- Clearing a slack column subtracts a multiple of an equality row. -/
theorem eliminateSlack_spec {program : Program Rat}
    (widths : ∀ row ∈ program.rows, row.coefs.length = program.columns.length)
    (equations : ∀ row ∈ program.rows, dot row.coefs p = row.rhs) {x : Form Rat}
    (width : x.1.length = program.columns.length) (indexed : Column Rat × Nat) :
    (Generator.eliminateSlack program x indexed).1.length = program.columns.length ∧
      dot (Generator.eliminateSlack program x indexed).1 p -
        (Generator.eliminateSlack program x indexed).2 = dot x.1 p - x.2 := by
  obtain ⟨x, b⟩ := x
  obtain ⟨column, index⟩ := indexed
  unfold Generator.eliminateSlack
  dsimp only at width ⊢
  split
  · exact ⟨width, rfl⟩
  · split
    · exact ⟨width, rfl⟩
    · rename_i mentioned row found
      have member := List.mem_of_find?_eq_some found
      have nonzero : row.coefs.getD index 0 ≠ 0 := by
        simpa using List.find?_some found
      have same : x.length = row.coefs.length := width.trans (widths row member).symm
      have inside : index < x.length := by
        by_contra outside
        rw [same, not_lt] at outside
        exact nonzero (by simp [outside])
      set factor := x.getD index 0 / row.coefs.getD index 0 with ratio
      have combined : (x.zipWith (fun xj a => if Scalar.isZero a = true then xj else xj - factor * a)
          row.coefs) = x.zipWith (fun xj a => xj + -factor * a) row.coefs := by
        congr 1
        funext xj a
        simp only [Scalar.isZero_iff]
        split
        · rename_i zero
          rw [zero, mul_zero, add_zero]
        · ring
      rw [combined, ← same, List.drop_length, List.append_nil]
      -- The column's own coefficient is zero already.
      have cleared : (x.zipWith (fun xj a => xj + -factor * a) row.coefs).getD index 0 = 0 := by
        rw [getD_zipWith_add same, ratio, neg_mul, div_mul_cancel₀ _ nonzero, add_neg_cancel]
      constructor
      · simp [same, widths row member]
      · rw [dot_set (by simpa using ⟨inside, same ▸ inside⟩), cleared, dot_zipWith_add same,
          equations row member]
        ring

theorem foldl_eliminateSlack {program : Program Rat}
    (widths : ∀ row ∈ program.rows, row.coefs.length = program.columns.length)
    (equations : ∀ row ∈ program.rows, dot row.coefs p = row.rhs) {x : Form Rat}
    (width : x.1.length = program.columns.length) (items : List (Column Rat × Nat)) :
    (items.foldl (Generator.eliminateSlack program) x).1.length = program.columns.length ∧
      dot (items.foldl (Generator.eliminateSlack program) x).1 p -
        (items.foldl (Generator.eliminateSlack program) x).2 = dot x.1 p - x.2 := by
  induction items generalizing x with
  | nil => exact ⟨width, rfl⟩
  | cons item items ih =>
    obtain ⟨wide, same⟩ := eliminateSlack_spec widths equations width item
    obtain ⟨length, rest⟩ := ih wide
    exact ⟨length, rest.trans same⟩

/-- A cut and its translation have the same slack at every point of the equality rows. -/
theorem toProgramSpace_spec (defined : generator.Defined)
    (widths : ∀ row ∈ generator.program.rows, row.coefs.length = generator.program.columns.length)
    {coefs programCoefs : List Rat} {rhs programRhs : Rat} (full : coefs.length = tableau.columnCount)
    (translated : generator.toProgramSpace tableau coefs rhs = .ok (programCoefs, programRhs))
    (p : List Rat) (equations : ∀ row ∈ generator.program.rows, dot row.coefs p = row.rhs) :
    programCoefs.length = generator.program.columns.length ∧
      dot programCoefs p - programRhs = dot coefs (generator.image tableau p) - rhs := by
  unfold Generator.toProgramSpace at translated
  cases ran : (coefs.zip tableau.columns.zipIdx).foldlM generator.expand
      (List.replicate generator.program.columns.length 0, rhs) with
  | error cause =>
    simp only [ran, bind, Except.bind] at translated
    cases translated
  | ok expanded =>
    simp only [ran, bind, Except.bind, pure, Except.pure, Except.ok.injEq] at translated
    obtain ⟨length, value⟩ := foldlM_expand defined full List.length_replicate ran p
    rw [List.length_replicate] at length
    obtain ⟨final, same⟩ :=
      foldl_eliminateSlack widths equations length generator.program.columns.zipIdx
    rw [translated] at final same
    refine ⟨final, same.trans (value.trans ?_)⟩
    have zero : dot (List.replicate generator.program.columns.length 0) p = 0 := by
      rw [dot_eq_form, form_replicate_zero]
    rw [zero, Generator.image]
    ring

/-! ### Generated cuts -/

theorem derive_translates {row : TableauRow Rat} {f0 : Rat} {cut : GomoryCut Rat} {counts : Counts}
    (derived : generator.derive tableau row f0 = .ok (some cut, counts)) :
    generator.toProgramSpace tableau cut.coefs cut.rhs = .ok (cut.programCoefs, cut.programRhs) := by
  unfold Generator.derive at derived
  simp only [bind, Except.bind] at derived
  split at derived
  · cases derived
  · split at derived
    · cases derived
    · split at derived
      · cases derived
      · rename_i translated
        split at derived
        · obtain rfl := Option.some.inj (Prod.mk.inj (Except.ok.inj derived)).1
          exact translated
        · cases derived

/-- A generated cut carries its translation, and generation changes nothing but counts. -/
theorem generate_translates {next : Generator Rat} {found : Option (GomoryCut Rat)}
    (generated : generator.generate tableau = .ok (next, found)) :
    (∃ counts, next = { generator with counts }) ∧ ∀ cut, found = some cut →
      generator.toProgramSpace tableau cut.coefs cut.rhs = .ok (cut.programCoefs, cut.programRhs) := by
  have kept := foldlM_keeps (fun state : Generator Rat × Option (GomoryCut Rat) =>
      (∃ counts, state.1 = { generator with counts }) ∧ ∀ cut, state.2 = some cut →
        generator.toProgramSpace tableau cut.coefs cut.rhs =
          .ok (cut.programCoefs, cut.programRhs))
    generated ⟨⟨generator.counts, rfl⟩, fun _ impossible => nomatch impossible⟩ ?_
  · exact kept
  · rintro ⟨middle, best⟩ row ⟨after, last⟩ - ⟨⟨counts, rfl⟩, before⟩ tried
    rcases considerRow_cases tried with ⟨rfl, rfl⟩ | ⟨-, -, tried, final, kept, derived, rfl, chosen⟩
    · exact ⟨⟨counts, rfl⟩, before⟩
    · refine ⟨⟨final, rfl⟩, fun cut same => ?_⟩
      rcases chosen with rfl | rfl
      · exact before cut same
      · obtain rfl : _ = some cut := same
        have translated := derive_translates derived
        exact translated

theorem exists_derive_ok (tableau : Tableau Rat)
    (inside : generator.base ≤ generator.program.columns.length) {row : TableauRow Rat}
    (positive : 0 < Int.fract row.rhs) :
    ∃ result, generator.derive tableau row (Int.fract row.rhs) = .ok result := by
  unfold Generator.derive
  rw [rawCut_eq_ok positive (Int.fract_lt_one _)]
  simp only [bind, Except.bind]
  split
  · exact ⟨_, rfl⟩
  · obtain ⟨form, translated⟩ := exists_toProgramSpace_ok inside tableau
      (Scalar.scaleToIntegers (rowCut tableau row (Int.fract row.rhs) ++ [1])).dropLast
      (relax ((Scalar.scaleToIntegers (rowCut tableau row (Int.fract row.rhs) ++ [1])).getLastD 1))
    rw [translated]
    dsimp only
    split
    all_goals exact ⟨_, rfl⟩

/-- Only rows with a fractional right-hand side are divided by a fractional part, so trying a
row does not fail. -/
theorem exists_considerRow_ok (tableau : Tableau Rat)
    (inside : generator.base ≤ generator.program.columns.length)
    (rejects : generator.filter.RejectsWhole) (best : Option (GomoryCut Rat)) (row : TableauRow Rat) :
    ∃ next, Generator.considerRow tableau (generator, best) row = .ok next := by
  unfold Generator.considerRow
  simp only [Scalar.fraction_rat]
  split
  · exact ⟨_, rfl⟩
  · rename_i passes
    simp only [Bool.or_eq_true, Bool.not_eq_eq_eq_not, Bool.not_true, decide_eq_true_eq,
      not_or] at passes
    have counted : Generator.base { generator with
        counts := { generator.counts with candidates := generator.counts.candidates + 1 } } ≤
        generator.program.columns.length := inside
    obtain ⟨⟨found, counts⟩, derived⟩ :=
      exists_derive_ok tableau counted (fract_pos_of_away rejects passes.2)
    rw [derived]
    cases found with
    | none => exact ⟨_, rfl⟩
    | some cut => exact ⟨_, rfl⟩

/-- Generation does not fail. -/
theorem exists_generate_ok (inside : generator.base ≤ generator.program.columns.length)
    (rejects : generator.filter.RejectsWhole) (tableau : Tableau Rat) :
    ∃ next found, generator.generate tableau = .ok (next, found) := by
  have generates : ∃ last, generator.generate tableau = .ok last ∧ _ :=
    exists_foldlM_ok (fun state => ∃ counts, state.1 = { generator with counts })
      ⟨generator.counts, rfl⟩ ?_
  · obtain ⟨⟨next, found⟩, generated, -⟩ := generates
    exact ⟨next, found, generated⟩
  · rintro ⟨middle, best⟩ row - ⟨counts, rfl⟩
    have counted : Generator.base { generator with counts } ≤ generator.program.columns.length :=
      inside
    obtain ⟨⟨next, found⟩, tried⟩ := exists_considerRow_ok tableau counted rejects best row
    refine ⟨(next, found), tried, ?_⟩
    rcases considerRow_cases tried with ⟨rfl, -⟩ | ⟨-, -, -, after, -, -, rfl, -⟩
    · exact ⟨counts, rfl⟩
    · exact ⟨after, rfl⟩

end

end MixedInteger.Cut
