import MixedInteger.Proofs.Simplex.Iteration
import MixedInteger.Simplex.Optimize

/-! The start of phase one. Rows without a feasible basic column are oriented, so that
their right-hand sides are not negative, and get an artificial basic column each. The
result is a vertex of a problem whose solutions without artificial columns are those of the
tableau, and whose objective is the sum of the artificial columns. -/
namespace MixedInteger.Simplex.Tableau

/-- A tableau that optimisation can start from: basic columns are unit columns, but need
not be within bounds, and rows need not have one. -/
structure Prepared (tableau : Tableau Rat) : Prop where
  wide : tableau.Wide tableau.columnCount
  framed : tableau.Framed
  units : UnitColumns (fun _ => True) tableau.rows
  free : tableau.costReady = true → ∀ row ∈ tableau.rows, ∀ basic, row.basic = some basic →
    tableau.reduced.getD basic 0 = 0
  priced : tableau.costReady = true → ∀ x, tableau.Holds x →
    tableau.priceAt x = costAt tableau.frame x

/-! ### Pending rows -/

theorem isPending_eq_false {tableau : Tableau Rat} {row : TableauRow Rat}
    (settled : tableau.isPending row = false) :
    row.basic ≠ none ∧ tableau.Within row row.rhs := by
  simp only [isPending, Bool.or_eq_false_iff, Option.isNone_eq_false_iff, Option.any_eq_false,
    Scalar.exceeds_eq_false_iff] at settled
  obtain ⟨⟨named, low⟩, high⟩ := settled
  exact ⟨Option.isSome_iff_ne_none.mp named, low, high⟩

theorem mem_pendingRows {tableau : Tableau Rat} {index : Nat} :
    index ∈ tableau.pendingRows ↔ ∃ row, tableau.rows[index]? = some row ∧
      tableau.isPending row = true := by
  simp only [pendingRows, List.mem_map, List.mem_filter, Prod.exists, List.mem_zipIdx_iff_getElem?,
    exists_eq_right]

theorem nodup_pendingRows (tableau : Tableau Rat) : tableau.pendingRows.Nodup := by
  unfold pendingRows
  have indices : (tableau.rows.zipIdx.map Prod.snd).Nodup := by
    rw [List.zipIdx_map_snd]
    exact List.nodup_range'
  exact indices.sublist (List.filter_sublist.map Prod.snd)

/-! ### Orienting one row -/

/-- One row is replaced by an equivalent one that mentions no further columns. -/
structure Rewrites (tableau next : Tableau Rat) (index : Nat) (row replaced : TableauRow Rat) :
    Prop where
  frame : next.frame = tableau.frame
  constant : next.constant = tableau.constant
  reduced : next.reduced = tableau.reduced
  framed : next.Framed
  holds : ∀ x, next.Holds x ↔ tableau.Holds x
  here : next.rows[index]? = some replaced
  elsewhere : ∀ other, other ≠ index → next.rows[other]? = tableau.rows[other]?
  length : replaced.coefs.length = row.coefs.length
  basic : replaced.basic = row.basic
  zeros : ∀ column, entry row column = 0 → entry replaced column = 0

section Orient

variable {tableau : Tableau Rat} {index : Nat} {row : TableauRow Rat}

theorem Rewrites.refl (framed : tableau.Framed) (known : tableau.rows[index]? = some row) :
    Rewrites tableau tableau index row row :=
  ⟨rfl, rfl, rfl, framed, fun _ => Iff.rfl, known, fun _ _ => rfl, rfl, rfl, fun _ => id⟩

theorem Rewrites.trans {middle next : Tableau Rat} {between replaced : TableauRow Rat}
    (first : Rewrites tableau middle index row between)
    (second : Rewrites middle next index between replaced) :
    Rewrites tableau next index row replaced where
  frame := second.frame.trans first.frame
  constant := second.constant.trans first.constant
  reduced := second.reduced.trans first.reduced
  framed := second.framed
  holds x := (second.holds x).trans (first.holds x)
  here := second.here
  elsewhere other different := (second.elsewhere other different).trans
    (first.elsewhere other different)
  length := second.length.trans first.length
  basic := second.basic.trans first.basic
  zeros column absent := second.zeros column (first.zeros column absent)

theorem rewrites_negateRow (framed : tableau.Framed) (known : tableau.rows[index]? = some row) :
    Rewrites tableau (tableau.negateRow index) index row (negatedRow row) := by
  refine ⟨rfl, rfl, rfl, ⟨framed.limits, framed.bounded⟩, holds_negateRow tableau index, ?_,
    fun other different => ?_, ?_, rfl, fun column absent => ?_⟩
  · rw [getElem?_negateRow, if_pos rfl, known]
    rfl
  · rw [getElem?_negateRow, if_neg (Ne.symm different)]
  · simp [negatedRow]
  · simp only [entry, negatedRow, List.getD_eq_getElem?_getD, List.getElem?_map] at absent ⊢
    cases found : row.coefs[column]? with
    | none => rfl
    | some a =>
      rw [found, Option.getD_some] at absent
      simp [absent]

theorem rewrites_complementBasic {settled : Nat → Prop} {basic : Nat} {upper : Rat}
    (framed : tableau.Framed) (units : UnitColumns settled tableau.rows) (done : settled index)
    (known : tableau.rows[index]? = some row) (named : row.basic = some basic)
    (bound : tableau.upperAt basic = some upper) :
    Rewrites tableau (tableau.complementBasic index) index row
      (complementedRow basic upper row) where
  frame := frame_complementBasic index
  constant := by rw [complementBasic_eq known named bound]
  reduced := by rw [complementBasic_eq known named bound]
  framed := framed_toggle framed (by rw [complementBasic_eq known named bound]) bound
  holds x := holds_complementBasic units done known named bound x
  here := by rw [getElem?_complementBasic known named bound, if_pos rfl]
  elsewhere other different := by
    rw [getElem?_complementBasic known named bound, if_neg different]
  length := by simp [complementedRow]
  basic := rfl
  zeros column absent := by
    rw [entry_complementedRow]
    split
    · rename_i own
      rw [← own, absent]
    · rw [absent, neg_zero]

/-- Orienting a row makes its right-hand side nonnegative. -/
theorem orientRow_spec {settled : Nat → Prop}
    (wide : ∀ row ∈ tableau.rows, row.coefs.length = tableau.columnCount)
    (framed : tableau.Framed) (units : UnitColumns settled tableau.rows) (done : settled index)
    (known : tableau.rows[index]? = some row) :
    ∃ next replaced, tableau.orientRow index = .ok next ∧
      Rewrites tableau next index row replaced ∧ 0 ≤ replaced.rhs := by
  have inside : row.basic.any (tableau.columnCount ≤ ·) = false := by
    rw [Option.any_eq_false]
    intro basic named
    have unit := units.own done known named
    have below : basic < row.coefs.length := lt_length_of_unit unit
    rw [wide row (List.mem_of_getElem? known)] at below
    simpa using below
  -- After a possible complement, a negative right-hand side is negated.
  have finish : ∀ (middle : Tableau Rat) (between : TableauRow Rat),
      Rewrites tableau middle index row between →
      ∃ next replaced, (if middle.rows[index]?.any (Scalar.isNegative ·.rhs) then
          middle.negateRow index else middle) = next ∧
        Rewrites tableau next index row replaced ∧ 0 ≤ replaced.rhs := by
    intro middle between rewrites
    simp only [rewrites.here, Option.any_some, Scalar.isNegative_iff]
    split
    · rename_i negative
      refine ⟨_, negatedRow between, rfl,
        rewrites.trans (rewrites_negateRow rewrites.framed rewrites.here), ?_⟩
      simp only [negatedRow]
      linarith
    · rename_i nonnegative
      exact ⟨_, between, rfl, rewrites, not_lt.mp nonnegative⟩
  unfold orientRow
  simp only [known, inside, Bool.false_eq_true, ↓reduceIte]
  by_cases exceeded : (tableau.basicUpper row).any (Scalar.exceeds row.rhs) = true
  · obtain ⟨upper, limit, -⟩ := Option.any_eq_true _ _ |>.mp exceeded
    obtain ⟨basic, named, bound⟩ := Option.bind_eq_some_iff.mp limit
    obtain ⟨next, replaced, rfl, rewrites, nonneg⟩ := finish _ _
      (rewrites_complementBasic framed units done known named bound)
    refine ⟨_, replaced, ?_, rewrites, nonneg⟩
    simp only [exceeded, ↓reduceIte]
    rfl
  · obtain ⟨next, replaced, rfl, rewrites, nonneg⟩ := finish _ _ (Rewrites.refl framed known)
    refine ⟨_, replaced, ?_, rewrites, nonneg⟩
    simp only [exceeded, Bool.false_eq_true, ↓reduceIte]
    rfl

end Orient

/-! ### Orienting all pending rows -/

/-- The rows of some positions are oriented and the others are untouched. -/
structure Oriented (tableau next : Tableau Rat) (done : List Nat) : Prop where
  frame : next.frame = tableau.frame
  constant : next.constant = tableau.constant
  framed : next.Framed
  wide : ∀ row ∈ next.rows, row.coefs.length = next.columnCount
  holds : ∀ x, next.Holds x ↔ tableau.Holds x
  units : UnitColumns (· ∉ done) next.rows
  untouched : ∀ index, index ∉ done → next.rows[index]? = tableau.rows[index]?
  nonneg : ∀ index ∈ done, ∀ row, next.rows[index]? = some row → 0 ≤ row.rhs
  kept : ∀ index : Nat, next.rows[index]? = none ↔ tableau.rows[index]? = none

theorem Oriented.start {tableau : Tableau Rat} (prepared : tableau.Prepared) :
    Oriented tableau tableau [] where
  frame := rfl
  constant := rfl
  framed := prepared.framed
  wide := prepared.wide.rows
  holds _ := Iff.rfl
  units place other row there basic _ := prepared.units place other row there basic trivial
  untouched _ _ := rfl
  nonneg _ member := by simp at member
  kept _ := Iff.rfl

/-- One row more. -/
theorem Oriented.rewrite {tableau middle next : Tableau Rat} {done : List Nat} {index : Nat}
    {row replaced : TableauRow Rat} (oriented : Oriented tableau middle done)
    (known : middle.rows[index]? = some row) (rewrites : Rewrites middle next index row replaced)
    (nonneg : 0 ≤ replaced.rhs) : Oriented tableau next (index :: done) where
  frame := rewrites.frame.trans oriented.frame
  constant := rewrites.constant.trans oriented.constant
  framed := rewrites.framed
  wide := by
    intro there member
    rw [columnCount_congr rewrites.frame]
    obtain ⟨other, found⟩ := List.mem_iff_getElem?.mp member
    by_cases same : other = index
    · subst same
      obtain rfl : replaced = there := Option.some.inj (rewrites.here.symm.trans found)
      rw [rewrites.length]
      exact oriented.wide row (List.mem_of_getElem? known)
    · rw [rewrites.elsewhere other same] at found
      exact oriented.wide there (List.mem_of_getElem? found)
  holds x := (rewrites.holds x).trans (oriented.holds x)
  units := by
    intro place other here there basic settled foundHere foundThere named
    have apart : place ≠ index := fun same => settled (by simp [same])
    have settled' : place ∉ done := fun member => settled (by simp [member])
    rw [rewrites.elsewhere place apart] at foundHere
    by_cases same : other = index
    · subst same
      obtain rfl : replaced = there := Option.some.inj (rewrites.here.symm.trans foundThere)
      rw [if_neg apart]
      exact rewrites.zeros basic (oriented.units.other settled' foundHere named known apart)
    · rw [rewrites.elsewhere other same] at foundThere
      exact oriented.units place other here there basic settled' foundHere foundThere named
  untouched other outside := by
    have apart : other ≠ index := fun same => outside (by simp [same])
    rw [rewrites.elsewhere other apart]
    exact oriented.untouched other fun member => outside (by simp [member])
  nonneg other member there found := by
    by_cases same : other = index
    · subst same
      obtain rfl : replaced = there := Option.some.inj (rewrites.here.symm.trans found)
      exact nonneg
    · rw [rewrites.elsewhere other same] at found
      refine oriented.nonneg other ?_ there found
      simpa [same] using member
  kept other := by
    rw [← oriented.kept]
    by_cases same : other = index
    · subst same
      simp [rewrites.here, known]
    · rw [rewrites.elsewhere other same]

theorem foldlM_orientRow {tableau middle : Tableau Rat} {done pending : List Nat}
    (oriented : Oriented tableau middle done) (fresh : ∀ index ∈ pending, index ∉ done)
    (distinct : pending.Nodup) (inside : ∀ index ∈ pending, tableau.rows[index]? ≠ none) :
    ∃ next, pending.foldlM orientRow middle = .ok next ∧
      Oriented tableau next (pending.reverse ++ done) := by
  induction pending generalizing middle done with
  | nil => exact ⟨middle, rfl, oriented⟩
  | cons index pending ih =>
    obtain ⟨notLater, distinct⟩ := List.nodup_cons.mp distinct
    obtain ⟨row, known⟩ := Option.ne_none_iff_exists'.mp
      (mt (oriented.kept index).mp (inside index (by simp)))
    obtain ⟨next, replaced, ran, rewrites, nonneg⟩ := orientRow_spec oriented.wide oriented.framed
      oriented.units (fresh index (by simp)) known
    have further := oriented.rewrite known rewrites nonneg
    obtain ⟨final, rest, reached⟩ := ih further
      (fun later member => by
        rw [List.mem_cons, not_or]
        exact ⟨fun same => notLater (same ▸ member), fresh later (by simp [member])⟩)
      distinct fun later member => inside later (by simp [member])
    refine ⟨final, ?_, ?_⟩
    · rw [List.foldlM_cons, ran]
      exact rest
    · simpa using reached

/-! ### Artificial columns -/

theorem getElem?_of_idxOf? {items : List Nat} {item place : Nat}
    (found : items.idxOf? item = some place) : items[place]? = some item := by
  obtain ⟨inside, same, -⟩ := List.findIdx?_eq_some_iff_getElem.mp found
  rw [List.getElem?_eq_getElem inside, beq_iff_eq.mp same]

/-- The entries of a row in the artificial columns. -/
def marks (pending : List Nat) (index : Nat) : List Rat :=
  pending.map fun other => if other = index then 1 else 0

theorem getD_marks {pending : List Nat} {place other : Nat} (found : pending[place]? = some other)
    (index : Nat) : (marks pending index).getD place 0 = if other = index then 1 else 0 := by
  simp [marks, found]

/-- A row of the pending ones mentions its own artificial column only. -/
theorem form_marks {pending : List Nat} (distinct : pending.Nodup) {place index : Nat}
    (found : pending[place]? = some index) (z : Nat → Rat) :
    form (marks pending index) z = z place := by
  rw [form_eq_single place fun other different => ?_, getD_marks found, if_pos rfl, one_mul]
  cases there : pending[other]? with
  | none => simp [marks, there]
  | some item =>
    have apart : item ≠ index := by
      rintro rfl
      obtain ⟨inside, -⟩ := List.getElem?_eq_some_iff.mp there
      exact different ((List.getElem?_inj inside distinct).mp (there.trans found.symm))
    rw [getD_marks there, if_neg apart, zero_mul]

/-- A row with its artificial entries. -/
def extendedRow (columns : Nat) (pending : List Nat) (index : Nat) (row : TableauRow Rat) :
    TableauRow Rat :=
  { row with
    coefs := row.coefs ++ marks pending index
    basic := match pending.idxOf? index with
      | some place => some (columns + place)
      | none => row.basic }

theorem getElem?_addArtificials (tableau : Tableau Rat) (pending : List Nat) (index : Nat) :
    (tableau.addArtificials pending)[index]? =
      (tableau.rows[index]?).map (extendedRow tableau.columnCount pending index) := by
  rw [addArtificials, List.getElem?_mapIdx]
  rfl

theorem entry_extendedRow_left {columns column : Nat} {pending : List Nat} {index : Nat}
    {row : TableauRow Rat} (below : column < row.coefs.length) :
    entry (extendedRow columns pending index row) column = entry row column := by
  simp only [entry, extendedRow, List.getD_eq_getElem?_getD, List.getElem?_append_left below]

theorem entry_extendedRow_right {columns place other : Nat} {pending : List Nat} {index : Nat}
    {row : TableauRow Rat} (length : row.coefs.length = columns)
    (found : pending[place]? = some other) :
    entry (extendedRow columns pending index row) (columns + place) =
      if other = index then 1 else 0 := by
  rw [← getD_marks found index]
  simp only [entry, extendedRow, List.getD_eq_getElem?_getD]
  rw [List.getElem?_append_right (by omega), length, Nat.add_sub_cancel_left]

theorem basic_extendedRow {columns place index : Nat} {pending : List Nat} {row : TableauRow Rat}
    (found : pending.idxOf? index = some place) :
    (extendedRow columns pending index row).basic = some (columns + place) := by
  simp only [extendedRow, found]

theorem basic_extendedRow_of_not_mem {columns index : Nat} {pending : List Nat}
    {row : TableauRow Rat} (outside : index ∉ pending) :
    (extendedRow columns pending index row).basic = row.basic := by
  have none : pending.idxOf? index = none := List.idxOf?_eq_none_iff.mpr outside
  simp only [extendedRow, none]

theorem form_extendedRow (columns : Nat) (pending : List Nat) (index : Nat) (row : TableauRow Rat)
    (z : Nat → Rat) :
    form (extendedRow columns pending index row).coefs z = form row.coefs z +
      form (marks pending index) fun place => z (place + row.coefs.length) :=
  form_append _ _ _

/-- The extended rows have unit basic columns: artificial ones in the pending rows and the
old ones elsewhere. -/
theorem unitColumns_addArtificials {tableau : Tableau Rat} {pending : List Nat}
    (wide : ∀ row ∈ tableau.rows, row.coefs.length = tableau.columnCount)
    (units : UnitColumns (· ∉ pending) tableau.rows) :
    UnitColumns (fun _ => True) (tableau.addArtificials pending) := by
  intro place other here there basic _ foundHere foundThere named
  rw [getElem?_addArtificials, Option.map_eq_some_iff] at foundHere foundThere
  obtain ⟨old, foundOld, rfl⟩ := foundHere
  obtain ⟨row, foundRow, rfl⟩ := foundThere
  have length := wide row (List.mem_of_getElem? foundRow)
  cases marked : pending.idxOf? place with
  | some position =>
    obtain rfl : tableau.columnCount + position = basic := by
      simpa [basic_extendedRow marked] using named
    exact entry_extendedRow_right length (getElem?_of_idxOf? marked)
  | none =>
    have outside : place ∉ pending := List.idxOf?_eq_none_iff.mp marked
    rw [basic_extendedRow_of_not_mem outside] at named
    have unit := units.own outside foundOld named
    have below : basic < old.coefs.length := lt_length_of_unit unit
    rw [wide old (List.mem_of_getElem? foundOld)] at below
    rw [entry_extendedRow_left (by rw [length]; exact below)]
    exact units place other old row basic outside foundOld foundRow named

/-! ### The sum of the artificial columns -/

theorem form_zipWith_sub {first second : List Rat} (same : first.length = second.length)
    (z : Nat → Rat) : form (first.zipWith (· - ·) second) z = form first z - form second z := by
  induction first generalizing second z with
  | nil =>
    obtain rfl : second = [] := List.length_eq_zero_iff.mp same.symm
    simp
  | cons a first ih =>
    cases second with
    | nil => cases same
    | cons b second =>
      simp only [List.zipWith_cons_cons, form_cons, ih (Nat.succ.inj same)]
      ring

theorem foldl_subtract_rows {sources : List (TableauRow Rat)} {columns : Nat} {start : List Rat}
    (wide : ∀ row ∈ sources, columns ≤ row.coefs.length) (length : start.length = columns) :
    (sources.foldl (fun reduced row => reduced.zipWith (· - ·) (row.coefs.take columns))
        start).length = columns ∧
      ∀ z, form (sources.foldl (fun reduced row =>
          reduced.zipWith (· - ·) (row.coefs.take columns)) start) z =
        form start z - (sources.map fun row => form (row.coefs.take columns) z).sum := by
  induction sources generalizing start with
  | nil => exact ⟨length, by simp⟩
  | cons row sources ih =>
    have reach := wide row (by simp)
    have same : start.length = (row.coefs.take columns).length := by simp [length, reach]
    obtain ⟨size, value⟩ := ih (fun other member => wide other (by simp [member]))
      (show (start.zipWith (· - ·) (row.coefs.take columns)).length = columns by
        simp [length, reach])
    refine ⟨size, fun z => ?_⟩
    rw [List.foldl_cons, value, form_zipWith_sub same, List.map_cons, List.sum_cons]
    ring

theorem sum_map_sub_sum_map (sources : List (TableauRow Rat)) (first second : TableauRow Rat → Rat) :
    (sources.map first).sum - (sources.map second).sum =
      (sources.map fun row => first row - second row).sum := by
  induction sources with
  | nil => simp
  | cons row sources ih =>
    rw [List.map_cons, List.map_cons, List.map_cons, List.sum_cons, List.sum_cons, List.sum_cons,
      ← ih]
    ring

theorem sum_map_range (count : Nat) (value : Nat → Rat) :
    ((List.range count).map value).sum = ∑ place ∈ Finset.range count, value place := by
  induction count with
  | zero => rfl
  | succ count ih => simp [List.range_succ, Finset.sum_range_succ, ih]

theorem foldl_add_rhs (sources : List (TableauRow Rat)) :
    sources.foldl (fun value row => value + row.rhs) 0 = (sources.map TableauRow.rhs).sum := by
  rw [← List.foldl_map, List.sum_eq_foldl]

/-- Rows of `width` entries see the first `width` columns of a point. -/
theorem meets_congr {row : TableauRow Rat} {z w : Nat → Rat}
    (same : ∀ column < row.coefs.length, z column = w column) : row.Meets z ↔ row.Meets w := by
  unfold TableauRow.Meets
  rw [form_congr fun column below => by rw [same column below]]

theorem reading_of_le {tableau : Tableau Rat} {index : Nat} (outside : tableau.columnCount ≤ index)
    (x : Nat → Rat) : tableau.reading x index = x index := by
  simp only [reading, readThrough, List.getElem?_eq_none outside]

/-- A vertex whose artificial columns measure how far a point is from solving a tableau. -/
structure Auxiliary (tableau start : Tableau Rat) (artificial : Nat) : Prop where
  vertex : start.AtVertex (tableau.columnCount + artificial)
  frame : start.frame = tableau.frame
  constant : start.constant = tableau.constant
  /-- Without artificial columns the two have the same solutions. -/
  holds : ∀ x, (∀ index, tableau.columnCount ≤ index → x index = 0) →
    (start.Holds x ↔ tableau.Holds x)
  /-- The objective is the sum of the artificial columns. -/
  price : ∀ x, start.Holds x → start.priceAt x =
    ∑ place ∈ Finset.range artificial, x (tableau.columnCount + place)

section Begin

variable {tableau middle : Tableau Rat} {pending : List Nat}

/-- The tableau of phase one, after the orientation. -/
def auxiliary (tableau : Tableau Rat) (pending : List Nat) : Tableau Rat :=
  let rows := tableau.addArtificials pending
  { tableau with
    rows
    reduced := (artificialCosts tableau.columnCount pending rows).1
    value := (artificialCosts tableau.columnCount pending rows).2
    costReady := false }

theorem mem_addArtificials {row : TableauRow Rat} (member : row ∈ middle.addArtificials pending) :
    ∃ (index : Nat) (old : TableauRow Rat), middle.rows[index]? = some old ∧
      row = extendedRow middle.columnCount pending index old := by
  obtain ⟨index, found⟩ := List.mem_iff_getElem?.mp member
  rw [getElem?_addArtificials, Option.map_eq_some_iff] at found
  obtain ⟨old, there, same⟩ := found
  exact ⟨index, old, there, same.symm⟩

/-- The rows that phase one sums up. -/
theorem sources_eq (inside : ∀ index ∈ pending, middle.rows[index]? ≠ none) :
    pending.filterMap ((middle.addArtificials pending)[·]?) = pending.map fun index =>
      ((middle.addArtificials pending)[index]?).getD ⟨[], 0, none⟩ := by
  rw [← List.filterMap_eq_map]
  refine List.filterMap_congr fun index member => ?_
  obtain ⟨row, found⟩ := Option.ne_none_iff_exists'.mp (inside index member)
  simp [getElem?_addArtificials, found]

theorem mem_sources {row : TableauRow Rat}
    (member : row ∈ pending.filterMap ((middle.addArtificials pending)[·]?)) :
    ∃ index ∈ pending, ∃ old, middle.rows[index]? = some old ∧
      row = extendedRow middle.columnCount pending index old := by
  obtain ⟨index, listed, found⟩ := List.mem_filterMap.mp member
  rw [getElem?_addArtificials, Option.map_eq_some_iff] at found
  obtain ⟨old, there, same⟩ := found
  exact ⟨index, listed, old, there, same.symm⟩

variable (wide : ∀ row ∈ middle.rows, row.coefs.length = middle.columnCount)

include wide

theorem take_extendedRow {index : Nat} {old : TableauRow Rat} (found : middle.rows[index]? = some old) :
    (extendedRow middle.columnCount pending index old).coefs.take middle.columnCount = old.coefs := by
  rw [← wide old (List.mem_of_getElem? found)]
  exact List.take_left

theorem auxiliary_reduced :
    (auxiliary middle pending).reduced.length = middle.columnCount + pending.length ∧
      ∀ z, form (auxiliary middle pending).reduced z =
        -((pending.filterMap ((middle.addArtificials pending)[·]?)).map fun row =>
          form (row.coefs.take middle.columnCount) z).sum := by
  have reach : ∀ row ∈ pending.filterMap ((middle.addArtificials pending)[·]?),
      middle.columnCount ≤ row.coefs.length := by
    intro row member
    obtain ⟨index, -, old, found, rfl⟩ := mem_sources member
    rw [← wide old (List.mem_of_getElem? found)]
    simp [extendedRow]
  obtain ⟨length, value⟩ := foldl_subtract_rows reach
    (List.length_replicate : (List.replicate middle.columnCount (0 : Rat)).length = _)
  constructor
  · simp only [auxiliary, artificialCosts, List.length_append, length, List.length_replicate]
  · intro z
    simp only [auxiliary, artificialCosts, form_append, value, form_replicate_zero, zero_sub,
      add_zero]

theorem auxiliary_holds (x : Nat → Rat) (zero : ∀ index, middle.columnCount ≤ index → x index = 0) :
    (auxiliary middle pending).Holds x ↔ middle.Holds x := by
  have reading : (auxiliary middle pending).reading x = middle.reading x := rfl
  have same : ∀ (index : Nat) (old : TableauRow Rat), middle.rows[index]? = some old →
      ((extendedRow middle.columnCount pending index old).Meets (middle.reading x) ↔
        old.Meets (middle.reading x)) := by
    intro index old found
    have length := wide old (List.mem_of_getElem? found)
    have nothing : (form (marks pending index) fun place =>
        middle.reading x (place + old.coefs.length)) = 0 := by
      refine form_eq_zero fun place => ?_
      rw [reading_of_le (by omega), zero _ (by omega), mul_zero]
    unfold TableauRow.Meets
    rw [form_extendedRow, nothing, add_zero]
    rfl
  rw [holds_iff, holds_iff, reading]
  simp only [auxiliary, getElem?_addArtificials, Option.map_eq_some_iff]
  constructor
  · intro held index old found
    exact (same index old found).mp (held index _ ⟨old, found, rfl⟩)
  · rintro held index _ ⟨old, found, rfl⟩
    exact (same index old found).mpr (held index old found)

/-- The reduced costs of phase one stand for the sum of the artificial columns. -/
theorem auxiliary_price (distinct : pending.Nodup)
    (inside : ∀ index ∈ pending, middle.rows[index]? ≠ none) {x : Nat → Rat}
    (held : (auxiliary middle pending).Holds x) :
    (auxiliary middle pending).priceAt x =
      ∑ place ∈ Finset.range pending.length, x (middle.columnCount + place) := by
  have reading : (auxiliary middle pending).reading x = middle.reading x := rfl
  have rest : ∀ place index, pending[place]? = some index →
      (((middle.addArtificials pending)[index]?).getD ⟨[], 0, none⟩).rhs -
        form ((((middle.addArtificials pending)[index]?).getD ⟨[], 0, none⟩).coefs.take
          middle.columnCount) (middle.reading x) = x (middle.columnCount + place) := by
    intro place index found
    obtain ⟨old, there⟩ := Option.ne_none_iff_exists'.mp
      (inside index (List.mem_of_getElem? found))
    have length := wide old (List.mem_of_getElem? there)
    have extended : (middle.addArtificials pending)[index]? =
        some (extendedRow middle.columnCount pending index old) := by
      rw [getElem?_addArtificials, there]
      rfl
    have met : form (extendedRow middle.columnCount pending index old).coefs (middle.reading x) =
        old.rhs := held _ (List.mem_of_getElem? extended)
    rw [form_extendedRow, form_marks distinct found, reading_of_le (by omega), length,
      Nat.add_comm] at met
    rw [extended, Option.getD_some, take_extendedRow wide there]
    simp only [extendedRow]
    linarith
  have sum : (auxiliary middle pending).priceAt x = (pending.map fun index =>
      (((middle.addArtificials pending)[index]?).getD ⟨[], 0, none⟩).rhs -
        form ((((middle.addArtificials pending)[index]?).getD ⟨[], 0, none⟩).coefs.take
          middle.columnCount) (middle.reading x)).sum := by
    have value : (auxiliary middle pending).value =
        ((pending.filterMap ((middle.addArtificials pending)[·]?)).map TableauRow.rhs).sum :=
      foldl_add_rhs _
    rw [priceAt, (auxiliary_reduced wide).2, value, ← sub_eq_add_neg, sum_map_sub_sum_map,
      sources_eq inside, reading, List.map_map]
    rfl
  have listed : (pending.map fun index =>
      (((middle.addArtificials pending)[index]?).getD ⟨[], 0, none⟩).rhs -
        form ((((middle.addArtificials pending)[index]?).getD ⟨[], 0, none⟩).coefs.take
          middle.columnCount) (middle.reading x)) =
      (List.range pending.length).map fun place => x (middle.columnCount + place) := by
    refine List.ext_getElem (by simp) fun place below _ => ?_
    have found := List.getElem?_eq_getElem (by simpa using below : place < pending.length)
    simpa using rest place _ found
  rw [sum, listed, sum_map_range]

/-- With artificial columns in the pending rows every basic column is within bounds. -/
theorem auxiliary_vertex (framed : middle.Framed) (units : UnitColumns (· ∉ pending) middle.rows)
    (nonneg : ∀ index ∈ pending, ∀ row, middle.rows[index]? = some row → 0 ≤ row.rhs)
    (settled : ∀ index, index ∉ pending → ∀ row, middle.rows[index]? = some row →
      row.basic ≠ none ∧ middle.Within row row.rhs) :
    (auxiliary middle pending).AtVertex (middle.columnCount + pending.length) := by
  have allUnits := unitColumns_addArtificials wide units
  refine ⟨⟨fun row member => ?_, (auxiliary_reduced wide).1, Nat.le_add_right _ _⟩,
    ⟨framed.limits, framed.bounded⟩, allUnits, fun row member => ?_, fun row member => ?_,
    fun row member basic named => ?_⟩
  · obtain ⟨index, old, found, rfl⟩ := mem_addArtificials member
    simp [extendedRow, marks, wide old (List.mem_of_getElem? found)]
  · obtain ⟨index, old, found, rfl⟩ := mem_addArtificials member
    cases marked : pending.idxOf? index with
    | some place => simp [basic_extendedRow marked]
    | none =>
      have outside := List.idxOf?_eq_none_iff.mp marked
      rw [basic_extendedRow_of_not_mem outside]
      exact (settled index outside old found).1
  · obtain ⟨index, old, found, rfl⟩ := mem_addArtificials member
    cases marked : pending.idxOf? index with
    | some place =>
      have listed := List.mem_of_getElem? (getElem?_of_idxOf? marked)
      refine ⟨nonneg index listed old found, fun upper bound => ?_⟩
      have limitless : (auxiliary middle pending).upperAt (middle.columnCount + place) = none :=
        upperAt_eq_none (Nat.le_add_right middle.columnCount place)
      rw [basicUpper, basic_extendedRow marked, Option.bind_some, limitless] at bound
      cases bound
    | none =>
      have outside := List.idxOf?_eq_none_iff.mp marked
      exact (within_congr rfl (basic_extendedRow_of_not_mem outside) _).mpr
        (settled index outside old found).2
  · obtain ⟨index, old, found, rfl⟩ := mem_addArtificials member
    rw [← form_unit, (auxiliary_reduced wide).2, neg_eq_zero]
    refine List.sum_eq_zero fun term listed => ?_
    obtain ⟨source, inSources, rfl⟩ := List.mem_map.mp listed
    obtain ⟨other, pended, there, foundThere, rfl⟩ := mem_sources inSources
    rw [take_extendedRow wide foundThere, form_unit]
    cases marked : pending.idxOf? index with
    | some place =>
      obtain rfl : middle.columnCount + place = basic := by
        simpa [basic_extendedRow marked] using named
      have past : there.coefs.length ≤ middle.columnCount + place := by
        rw [wide there (List.mem_of_getElem? foundThere)]
        exact Nat.le_add_right _ _
      simp [past]
    | none =>
      have outside := List.idxOf?_eq_none_iff.mp marked
      rw [basic_extendedRow_of_not_mem outside] at named
      exact units.other outside found named foundThere fun same => outside (same ▸ pended)

end Begin

/-- Phase one starts at a vertex that measures the distance from the tableau's solutions. -/
theorem beginPhaseOne_spec {tableau : Tableau Rat} (prepared : tableau.Prepared) :
    ∃ start, tableau.beginPhaseOne tableau.pendingRows = .ok start ∧
      Auxiliary tableau start tableau.pendingRows.length := by
  have distinct := nodup_pendingRows tableau
  have inside : ∀ index ∈ tableau.pendingRows, tableau.rows[index]? ≠ none := by
    intro index member
    obtain ⟨row, found, -⟩ := mem_pendingRows.mp member
    simp [found]
  obtain ⟨middle, ran, oriented⟩ := foldlM_orientRow (Oriented.start prepared)
    (fun _ _ => List.not_mem_nil) distinct inside
  rw [List.append_nil] at oriented
  have count : middle.columnCount = tableau.columnCount := columnCount_congr oriented.frame
  have inside' : ∀ index ∈ tableau.pendingRows, middle.rows[index]? ≠ none :=
    fun index member => mt (oriented.kept index).mp (inside index member)
  have units : UnitColumns (· ∉ tableau.pendingRows) middle.rows := by
    intro place other row there basic outside
    exact oriented.units place other row there basic (by simpa using outside)
  refine ⟨auxiliary middle tableau.pendingRows, ?_, ?_, oriented.frame, oriented.constant, ?_, ?_⟩
  · unfold beginPhaseOne
    rw [ran]
    rfl
  · rw [← count]
    refine auxiliary_vertex oriented.wide oriented.framed units ?_ ?_
    · intro index member
      exact oriented.nonneg index (by simpa using member)
    · intro index outside row found
      rw [oriented.untouched index (by simpa using outside)] at found
      have settled : tableau.isPending row = false := by
        by_contra pending
        exact outside (mem_pendingRows.mpr ⟨row, found, by simpa using pending⟩)
      obtain ⟨named, within⟩ := isPending_eq_false settled
      exact ⟨named, (within_congr oriented.frame rfl _).mpr within⟩
  · intro x zero
    rw [← oriented.holds]
    exact auxiliary_holds oriented.wide x (by rw [count]; exact zero)
  · intro x held
    rw [← count]
    exact auxiliary_price oriented.wide distinct inside' held

end MixedInteger.Simplex.Tableau
