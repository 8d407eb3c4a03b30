import MixedInteger.Proofs.Search.WorkingForm

/-! The working form represents the program it was made from. Working points and points of the
program correspond with their objectives: a working point goes back to a feasible point as soon
as it is integral off the slacks, and every feasible point comes from one that is integral
everywhere and shows each split column on one side only. The table of partners is exact: it
lists the two parts of every free column and nothing else. That every listed pair is one is
known from bounding the columns; the converse needs that no two columns have parts of the same
origin, which is carried along here. -/
namespace MixedInteger

/-- The two places hold the parts above and below zero of one column. -/
def Problem.Parts (problem : Problem Rat) (place other : Nat) : Prop :=
  ∃ column data, problem.working.columns[place]? = some column ∧
    problem.working.columns[other]? = some data ∧ column.slack = false ∧ Opposite column data

/-- At most one part of each split column differs from zero. -/
def Problem.Canonical (problem : Problem Rat) (y : List Rat) : Prop :=
  ∀ place other, (problem.partner[place]?).join = some other →
    y.getD place 0 = 0 ∨ y.getD other 0 = 0

/-- The working program of a problem stands for a program. -/
structure Problem.Represents (problem : Problem Rat) (program : Program Rat) : Prop where
  floor : problem.working.BoundedBelow
  equational : problem.working.Equational
  back : ∀ w, problem.working.Satisfies w → problem.working.IntegralOffSlacks w →
    ∃ x, problem.toStructural w = .ok x ∧ program.Feasible x ∧
      program.objectiveValue x = problem.working.objectiveValue w
  forth : ∀ x, program.Feasible x → ∃ w, problem.working.Feasible w ∧ problem.Canonical w ∧
    problem.working.objectiveValue w = program.objectiveValue x ∧ problem.toStructural w = .ok x
  partners : ∀ place other,
    (problem.partner[place]?).join = some other ↔ problem.Parts place other
  split : ∀ (index : Nat) (column : Column Rat), program.columns[index]? = some column →
    ((∃ other, problem.Parts index other) ↔ column.range.lower = none ∧ column.range.upper = none)

/-! ### The table of partners -/

/-- Of the columns reached so far, all free ones are listed with their parts, and no two columns
have parts that could be taken for one another's. -/
structure Matched (reference : Program Rat) (done : Nat) (problem : Problem Rat) : Prop where
  traced : ∀ (place : Nat) (column : Column Rat), problem.working.columns[place]? = some column →
    place < done ∨ reference.columns.length ≤ place → ∃ index < done, column.origin = some index
  listed : ∀ (place other : Nat) (column data : Column Rat),
    problem.working.columns[place]? = some column → problem.working.columns[other]? = some data →
    Opposite column data → (problem.partner[place]?).join = some other
  split : ∀ (index : Nat) (column : Column Rat), index < done →
    reference.columns[index]? = some column → column.range.lower = none →
    column.range.upper = none → ∃ other, (problem.partner[index]?).join = some other

/-- A column has at most two parts. -/
theorem boundedParts_single (index : Nat) (column : Column Rat) :
    (boundedParts index column).2.length ≤ 1 := by
  unfold boundedParts
  split <;> simp

theorem boundedParts_free {column : Column Rat} (low : column.range.lower = none)
    (high : column.range.upper = none) (index : Nat) : (boundedParts index column).2 ≠ [] := by
  simp [boundedParts, low, high]

/-- Parts are oriented, and only parts of the same column match. -/
theorem Opposite.oriented {column other : Column Rat} (opposite : Opposite column other) :
    column.orientation ≠ .positive ∧ other.orientation ≠ .positive := by
  obtain ⟨-, -, ⟨above, below⟩ | ⟨below, above⟩⟩ := opposite
  · simp [above, below]
  · simp [above, below]

/-- A split column shows nothing on one of its sides. -/
theorem Opposite.part_eq_zero {column other : Column Rat} (opposite : Opposite column other)
    (x : List Rat) : column.part x = 0 ∨ other.part x = 0 := by
  obtain ⟨-, origin, ⟨above, below⟩ | ⟨below, above⟩⟩ := opposite
  · simp only [Column.part, above, below, origin, max_eq_right_iff]
    rcases le_total (x.getD (column.origin.getD 0) 0) 0 with nonpos | nonneg
    · exact .inl nonpos
    · exact .inr (by linarith)
  · simp only [Column.part, above, below, origin, max_eq_right_iff]
    rcases le_total (x.getD (column.origin.getD 0) 0) 0 with nonpos | nonneg
    · exact .inr nonpos
    · exact .inl (by linarith)

section Step

variable {reference : Program Rat} {problem : Problem Rat} {done place other : Nat}
  {source own column data : Column Rat} {extra : List (Column Rat)}

theorem getElem?_split_partner_own (inside : done < problem.partner.length) (parted : extra ≠ []) :
    (problem.split done own extra).partner[done]? = some (some problem.working.columns.length) := by
  simp only [Problem.split]
  rw [List.getElem?_append_left (by simpa using inside), List.getElem?_set_self inside]
  simp [parted]

theorem getElem?_split_partner_extra
    (partners : problem.partner.length = problem.working.columns.length) {later : Nat}
    (there : later < extra.length) :
    (problem.split done own extra).partner[problem.working.columns.length + later]? =
      some (some done) := by
  simp only [Problem.split]
  rw [List.getElem?_append_right (by simp [partners]), List.length_set, partners,
    Nat.add_sub_cancel_left]
  simp [there]

/-- A column from before is no part of the one being split. -/
theorem Matched.origin_ne (matched : Matched reference done problem)
    (bounding : Bounding reference done problem) (structural : reference.Structural)
    (known : problem.working.columns[place]? = some column) (different : place ≠ done)
    (oriented : column.orientation ≠ .positive) : column.origin ≠ some done := by
  intro origin
  by_cases settled : place < done ∨ reference.columns.length ≤ place
  · obtain ⟨index, before, traced⟩ := matched.traced place column known settled
    obtain rfl : index = done := Option.some.inj (traced.symm.trans origin)
    exact lt_irrefl _ before
  · -- Columns that still wait are the reference columns, which are upright.
    obtain ⟨current, -⟩ := bounding.waiting place (by omega) (by omega)
    exact oriented (structural column (List.mem_of_getElem? (current.symm.trans known))).2

/-- Two columns that match after a split matched before, or are the two new parts. -/
theorem Matched.listed_split (matched : Matched reference done problem)
    (bounding : Bounding reference done problem) (structural : reference.Structural)
    (below : done < reference.columns.length) (splits : Splits source done own extra)
    (single : extra.length ≤ 1)
    (found : (problem.split done own extra).working.columns[place]? = some column)
    (there : (problem.split done own extra).working.columns[other]? = some data)
    (opposite : Opposite column data) :
    ((problem.split done own extra).partner[place]?).join = some other := by
  have inside : done < problem.working.columns.length := below.trans_le bounding.long
  obtain ⟨orientedColumn, orientedData⟩ := opposite.oriented
  have origin : data.origin = column.origin := opposite.2.1
  have ownOrigin := (splits.traced own List.mem_cons_self).2.1
  have extraOrigin : ∀ {part : Column Rat} {later : Nat}, extra[later]? = some part →
      part.origin = some done :=
    fun known => (splits.traced _ (List.mem_cons_of_mem own (List.mem_of_getElem? known))).2.1
  have extraSide : ∀ {part : Column Rat} {later : Nat}, extra[later]? = some part →
      part.orientation = .negativePart :=
    fun known => (splits.sides _ (List.mem_of_getElem? known)).1
  rcases split_columns_cases inside found with ⟨different, reach, old⟩ | ⟨rfl, rfl⟩ | ⟨later, rfl, new⟩
  · have apart := matched.origin_ne bounding structural old different orientedColumn
    rw [← origin] at apart
    rcases split_columns_cases inside there with ⟨-, -, former⟩ | ⟨-, rfl⟩ | ⟨later, -, new⟩
    · rw [getElem?_split_partner different (bounding.partners.symm ▸ reach)]
      exact matched.listed place other column data old former opposite
    · exact absurd ownOrigin apart
    · exact absurd (extraOrigin new) apart
  · rcases split_columns_cases inside there with ⟨different, -, former⟩ | ⟨-, rfl⟩ | ⟨later, rfl, new⟩
    · exact absurd (origin.trans ownOrigin)
        (matched.origin_ne bounding structural former different orientedData)
    · obtain ⟨-, -, ⟨above, side⟩ | ⟨side, above⟩⟩ := opposite
      · cases above.symm.trans side
      · cases above.symm.trans side
    · obtain ⟨short, -⟩ := List.getElem?_eq_some_iff.mp new
      obtain rfl : later = 0 := by omega
      rw [getElem?_split_partner_own (bounding.partners.symm ▸ inside)
        (List.ne_nil_of_length_pos short)]
      rfl
  · rcases split_columns_cases inside there with ⟨different, -, former⟩ | ⟨rfl, -⟩ | ⟨behind, -, next⟩
    · exact absurd (origin.trans (extraOrigin new))
        (matched.origin_ne bounding structural former different orientedData)
    · rw [getElem?_split_partner_extra bounding.partners (List.getElem?_eq_some_iff.mp new).1]
      rfl
    · obtain ⟨-, -, ⟨above, -⟩ | ⟨-, above⟩⟩ := opposite
      · cases above.symm.trans (extraSide new)
      · cases above.symm.trans (extraSide next)

theorem Matched.step (matched : Matched reference done problem)
    (bounding : Bounding reference done problem) (structural : reference.Structural)
    (below : done < reference.columns.length) :
    Matched reference (done + 1) (problem.boundColumn done) := by
  have known := List.getElem?_eq_getElem below
  set source := reference.columns[done]
  obtain ⟨plain, upright⟩ := structural source (List.mem_of_getElem? known)
  obtain ⟨current, -⟩ := bounding.waiting done le_rfl below
  have splits := splits_boundedParts plain done upright
  have inside : done < problem.working.columns.length := below.trans_le bounding.long
  rw [boundColumn_eq bounding.shaped (current.trans known) upright]
  refine ⟨fun place column found settled => ?_, fun place other column data found there opposite => ?_,
    fun index column reach standing low high => ?_⟩
  · rcases split_columns_cases inside found with ⟨different, -, old⟩ | ⟨-, rfl⟩ | ⟨later, -, new⟩
    · obtain ⟨index, before, origin⟩ := matched.traced place column old (by omega)
      exact ⟨index, by omega, origin⟩
    · exact ⟨done, by omega, (splits.traced _ List.mem_cons_self).2.1⟩
    · exact ⟨done, by omega,
        (splits.traced column (List.mem_cons_of_mem _ (List.mem_of_getElem? new))).2.1⟩
  · exact matched.listed_split bounding structural below splits (boundedParts_single done source)
      found there opposite
  · by_cases last : index = done
    · subst last
      obtain rfl := Option.some.inj (known.symm.trans standing)
      rw [getElem?_split_partner_own (bounding.partners.symm ▸ inside)
        (boundedParts_free low high index)]
      exact ⟨_, rfl⟩
    · rw [getElem?_split_partner last (by rw [bounding.partners]; omega)]
      exact matched.split index column (by omega) standing low high

end Step

/-- Once all columns are bounded below, the table lists the parts of every free column. -/
theorem matched_boundBelow {problem : Problem Rat} (structural : problem.working.Structural)
    (shaped : problem.working.Shaped) (bounds : problem.working.WholeBounds) :
    Matched problem.working problem.working.columns.length problem.boundBelow := by
  have steps : ∀ done ≤ problem.working.columns.length,
      Bounding problem.working done ((List.range done).foldl Problem.boundColumn
        { problem with partner := List.replicate problem.working.columns.length none }) ∧
      Matched problem.working done ((List.range done).foldl Problem.boundColumn
        { problem with partner := List.replicate problem.working.columns.length none }) := by
    intro done
    induction done with
    | zero =>
      intro _
      refine ⟨bounding_start shaped bounds rfl, ⟨fun place column found settled => ?_,
        fun place other column data found _ opposite => ?_, fun index column before => ?_⟩⟩
      · obtain ⟨inside, -⟩ := List.getElem?_eq_some_iff.mp found
        exact absurd inside (by simpa using settled)
      · exact absurd (structural column (List.mem_of_getElem? found)).2 opposite.oriented.1
      · omega
    | succ done ih =>
      intro reach
      obtain ⟨bounding, matched⟩ := ih (by omega)
      rw [List.range_succ, List.foldl_append]
      exact ⟨bounding.step structural (by omega), matched.step bounding structural (by omega)⟩
  exact (steps _ le_rfl).2

/-! ### The representation -/

theorem Range.free_of_admits {range : Range Rat} (all : ∀ value, range.Admits value) :
    range.lower = none ∧ range.upper = none := by
  refine ⟨Option.eq_none_iff_forall_ne_some.mpr fun lower bound => ?_,
    Option.eq_none_iff_forall_ne_some.mpr fun upper bound => ?_⟩
  · have low := (all (lower - 1)).1 lower bound
    linarith
  · have high := (all (upper + 1)).2 upper bound
    linarith

section Prepared

variable {reference : Program Rat} {base problem : Problem Rat} {place other : Nat}
  {column : Column Rat}

/-- Slacks have no partner and are nobody's, so the table stays exact. -/
theorem Slacking.partner_iff (slacking : Slacking reference base reference.rows.length problem)
    (bounding : Bounding reference reference.columns.length base)
    (matched : Matched reference reference.columns.length base) :
    (problem.partner[place]?).join = some other ↔ problem.Parts place other := by
  constructor
  · intro paired
    obtain ⟨column, data, found, there, opposite⟩ := slacking.partner_before bounding paired
    obtain ⟨known, plain⟩ := (slacking.plain_iff bounding).mp found
    exact ⟨column, data, known, ((slacking.plain_iff bounding).mp there).1, plain, opposite⟩
  · rintro ⟨column, data, known, standing, plain, opposite⟩
    have found := (slacking.plain_iff bounding).mpr ⟨known, plain⟩
    have there := (slacking.plain_iff bounding).mpr ⟨standing, opposite.1⟩
    obtain ⟨inside, -⟩ := List.getElem?_eq_some_iff.mp found
    rw [slacking.partner, List.getElem?_append_left (bounding.partners.symm ▸ inside)]
    exact matched.listed place other column data found there opposite

/-- Only free columns are split. -/
theorem Bounding.free_of_opposite (bounding : Bounding reference reference.columns.length base)
    {index : Nat} {own data : Column Rat} (known : reference.columns[index]? = some column)
    (found : base.working.columns[index]? = some own)
    (there : base.working.columns[other]? = some data) (opposite : Opposite own data) :
    column.range.lower = none ∧ column.range.upper = none := by
  obtain ⟨inside, -⟩ := List.getElem?_eq_some_iff.mp known
  obtain ⟨first, -, -, ownOrigin, -, home, -⟩ :=
    (bounding.placed index own found (lt_or_ge _ _)).source
  obtain rfl := home inside
  obtain ⟨second, source, standing, origin, -, -, side⟩ :=
    (bounding.placed other data there (lt_or_ge _ _)).source
  obtain rfl : second = first :=
    Option.some.inj (origin.symm.trans (opposite.2.1.trans ownOrigin))
  obtain rfl := Option.some.inj (known.symm.trans standing)
  rcases side with free | ⟨rfl, -⟩
  · exact Range.free_of_admits free
  · obtain rfl := Option.some.inj (found.symm.trans there)
    obtain ⟨-, -, ⟨above, below⟩ | ⟨below, above⟩⟩ := opposite
    · cases above.symm.trans below
    · cases above.symm.trans below

/-- The image of a point goes back to the point. -/
theorem Slacking.toStructural_image (slacking : Slacking reference base reference.rows.length problem)
    (bounding : Bounding reference reference.columns.length base)
    (same : problem.reference = reference) {x : List Rat}
    (length : x.length = reference.columns.length) :
    problem.toStructural (slackImage reference base reference.rows.length x) = .ok x := by
  obtain ⟨values, ran, size, gathers⟩ := slacking.gathers bounding same (slacking.length_image x)
  have parts : (slackImage reference base reference.rows.length x).take base.working.columns.length =
      base.working.columns.map (Column.part x) := by
    rw [slackImage, List.take_left' (by simp)]
  have entries : ∀ index < reference.columns.length, values.getD index 0 = x.getD index 0 := by
    intro index inside
    have balance := bounding.activity (unitForm reference.columns.length index) x
      (length_unitForm _ _) length
    rw [staged_all, staged_all] at balance
    rw [← dot_unitForm inside, gathers _ (length_unitForm _ _), parts, balance, dot_unitForm inside]
  rw [ran]
  refine congrArg Except.ok (List.ext_getElem (size.trans length.symm) fun index here there => ?_)
  simpa [here, there] using entries index (size ▸ here)

end Prepared

/-- The working form of a program of structural columns with integral bounds represents it. -/
theorem represents_prepared {problem : Problem Rat} (structural : problem.working.Structural)
    (shaped : problem.working.Shaped) (bounds : problem.working.WholeBounds)
    (same : problem.reference = problem.working) :
    problem.boundBelow.addSlacks.Represents problem.working := by
  have bounding := bounding_boundBelow structural shaped bounds
  have matched := matched_boundBelow structural shaped bounds
  have slacking := slacking_addSlacks shaped bounding
  have reference : problem.boundBelow.addSlacks.reference = problem.working :=
    (prepared_keeps problem).1.trans same
  refine ⟨slacking.floor, slacking.equational, fun w held integral => ?_, fun x held => ?_,
    fun place other => slacking.partner_iff bounding matched, fun index column known => ⟨?_, ?_⟩⟩
  · obtain ⟨values, ran, -, value, feasible⟩ :=
      slacking.structural bounding shaped reference held.length
    exact ⟨values, ran, feasible held integral, value⟩
  · obtain ⟨feasible, value⟩ := slacking.image_feasible bounding shaped held
    refine ⟨_, feasible, fun place other paired => ?_, value,
      slacking.toStructural_image bounding reference held.length⟩
    obtain ⟨column, data, found, there, opposite⟩ := slacking.partner_before bounding paired
    rw [getD_slackImage found, getD_slackImage there]
    exact opposite.part_eq_zero x
  · rintro ⟨other, own, data, found, there, plain, opposite⟩
    exact bounding.free_of_opposite known ((slacking.plain_iff bounding).mpr ⟨found, plain⟩)
      ((slacking.plain_iff bounding).mpr ⟨there, opposite.1⟩) opposite
  · rintro ⟨low, high⟩
    obtain ⟨inside, -⟩ := List.getElem?_eq_some_iff.mp known
    obtain ⟨other, paired⟩ := matched.split index column inside known low high
    refine ⟨other, (slacking.partner_iff bounding matched).mp ?_⟩
    have reach : index < problem.boundBelow.partner.length :=
      bounding.partners.symm ▸ inside.trans_le bounding.long
    rwa [slacking.partner, List.getElem?_append_left reach]

/-- Minimise `3 + x - y + 2 z` over `x + y ≤ 7`, `2 x - z ≥ -5` and `x + y + z = 1`, for any integer
`x`, an integer `y` of at most four and `z` from zero to ten. -/
def ledger : Program Rat where
  constant := 3
  objective := [1, -1, 2]
  rows := [⟨[1, 1, 0], .le, 7⟩, ⟨[2, 0, -1], .ge, -5⟩, ⟨[1, 1, 1], .eq, 1⟩]
  columns := [.integer ⟨none, none⟩, .integer ⟨none, some 4⟩, .continuous ⟨some 0, some 10⟩]

def ledgerProblem : Problem Rat where
  working := ledger
  reference := ledger
  settings := {}

theorem ledger_structural : ledger.Structural := by
  simp [Program.Structural, ledger, Column.integer, Column.continuous]

theorem ledger_shaped : ledger.Shaped := ⟨rfl, by simp [ledger]⟩

theorem ledger_wholeBounds : ledger.WholeBounds := by
  have four : Whole 4 := ⟨4, by norm_num⟩
  simpa [Program.WholeBounds, ledger, Column.integer, Column.continuous, Range.WholeBounds] using four

/-- The working form of `ledger` has a second part of `x` and two slacks, and represents it. -/
theorem ledger_represented : ledgerProblem.boundBelow.addSlacks.Represents ledger ∧
    ledgerProblem.boundBelow.addSlacks.partner = [some 3, none, none, some 0, none, none] ∧
    ledger.Feasible [-2, 3, 0] :=
  ⟨represents_prepared ledger_structural ledger_shaped ledger_wholeBounds rfl, by decide +kernel,
    by decide +kernel⟩

end MixedInteger
