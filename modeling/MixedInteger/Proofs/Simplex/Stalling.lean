import Mathlib.Order.Lattice.Nat
import MixedInteger.Proofs.Simplex.Selection

/-! Why iterations cannot go round in circles. Steps of length zero leave the vertex where it is,
so a column that comes into the basis during a circle reads zero all the way round and keeps its
orientation; columns without width are never exchanged, only reflected. Take the highest column
that comes in. Where it leaves for another one, the direction of the column coming in lowers the
objective; where it comes in itself, no column before it does. The two price rows agree on the
direction, which is only possible if a lower column could have left instead. -/
namespace MixedInteger.Simplex.Tableau

/-! ### Resting points -/

/-- A solution at which every nonbasic column reads zero. -/
structure RestsAt (tableau : Tableau Rat) (x : Nat → Rat) : Prop where
  holds : tableau.Holds x
  still : ∀ column, some column ∉ tableau.basis → tableau.reading x column = 0

section Resting

variable {tableau next : Tableau Rat} {width : Nat} {x : Nat → Rat}

theorem restsAt_vertexPoint (vertex : tableau.AtVertex width) :
    tableau.RestsAt tableau.vertexPoint := by
  refine ⟨holds_vertexPoint vertex, fun column absent => ?_⟩
  rw [vertexPoint, reading_pointOf]
  refine basicReading_nonbasic fun row member named => ?_
  exact absent (mem_basis_iff.mpr ⟨row, member, named⟩)

/-- At rest, a basic column reads the right-hand side of its row. -/
theorem RestsAt.reading_basic (rests : tableau.RestsAt x) (vertex : tableau.AtVertex width)
    {row : TableauRow Rat} (member : row ∈ tableau.rows) {basic : Nat}
    (named : row.basic = some basic) : tableau.reading x basic = row.rhs := by
  obtain ⟨place, found⟩ := List.mem_iff_getElem?.mp member
  have unit : row.coefs.getD basic 0 = 1 := vertex.units.own trivial found named
  have met : form row.coefs (tableau.reading x) = row.rhs := rests.holds row member
  rw [← met, form_eq_single basic fun column different => ?_, unit, one_mul]
  by_cases there : some column ∈ tableau.basis
  · obtain ⟨other, memberOther, namedOther⟩ := mem_basis_iff.mp there
    obtain ⟨elsewhere, foundOther⟩ := List.mem_iff_getElem?.mp memberOther
    have apart : elsewhere ≠ place := by
      rintro rfl
      obtain rfl := Option.some.inj (foundOther.symm.trans found)
      exact different (Option.some.inj (namedOther.symm.trans named))
    have zero : row.coefs.getD column 0 = 0 :=
      vertex.units.other trivial foundOther namedOther found apart
    rw [zero, zero_mul]
  · rw [rests.still column there, mul_zero]

/-- At rest, the objective is the value. -/
theorem RestsAt.price (rests : tableau.RestsAt x) (vertex : tableau.AtVertex width) :
    tableau.priceAt x = tableau.value := by
  rw [priceAt, form_eq_zero fun column => ?_, add_zero]
  by_cases there : some column ∈ tableau.basis
  · obtain ⟨row, member, named⟩ := mem_basis_iff.mp there
    rw [vertex.free row member column named, zero_mul]
  · rw [rests.still column there, mul_zero]

theorem reading_congr {index : Nat} (same : next.columns[index]? = tableau.columns[index]?)
    {y : Nat → Rat} (value : y index = x index) :
    next.reading y index = tableau.reading x index := by
  simp only [reading, readThrough, same, value]

theorem eq_of_reading_eq {index : Nat} {y : Nat → Rat}
    (same : tableau.reading y index = tableau.reading x index) : y index = x index := by
  simp only [reading, readThrough] at same
  split at same
  · rename_i column _
    obtain ⟨cost, upper, lower, integral, complemented⟩ := column
    cases upper <;> cases complemented <;> simpa [TableauColumn.orient] using same
  · exact same

/-- Vertices of one problem with the same basis and orientations have the same value. -/
theorem value_eq_of_basis_eq (vertex : tableau.AtVertex width) (reached : next.AtVertex width)
    (same : SameProblem tableau next) (basis : next.basis = tableau.basis)
    (columns : next.columns = tableau.columns) : next.value = tableau.value := by
  have rests := restsAt_vertexPoint vertex
  have restsNext : next.RestsAt tableau.vertexPoint := by
    refine ⟨(same.holds _).mpr rests.holds, fun column absent => ?_⟩
    rw [basis] at absent
    exact (reading_congr (by rw [columns]) rfl).trans (rests.still column absent)
  rw [← restsNext.price reached, same.price _ rests.holds, rests.price vertex]

/-! ### Steps of length zero -/

/-- An iteration of length zero under the lowest-index rule. -/
structure Stall (count : Nat) (tableau next : Tableau Rat) (column : Nat) : Prop where
  lowest : tableau.Lowest count column
  moves : Flips tableau next column 0 ∨
    ∃ index source leaving, Exchanges tableau next column 0 index source leaving

variable {count column : Nat}

theorem getElem?_toggle_of_ne {index : Nat} (different : index ≠ column) :
    (tableau.toggle column)[index]? = tableau.columns[index]? := by
  rw [toggle, List.getElem?_modify_ne _ _ (Ne.symm different)]

/-- The basic column of the row that gives way reads zero or its upper bound. -/
theorem Exchanges.rhs {index leaving : Nat} {source : TableauRow Rat}
    (exchanges : Exchanges tableau next column 0 index source leaving) :
    (next.columns = tableau.columns ∧ 0 < entry source column ∧ source.rhs = 0) ∨
      (next.columns = tableau.toggle leaving ∧ entry source column < 0 ∧
        tableau.upperAt leaving = some source.rhs) := by
  simpa using exchanges.blocks

/-- A step of length zero stays at its point. -/
theorem RestsAt.stall (rests : tableau.RestsAt x) (vertex : tableau.AtVertex width)
    (same : SameProblem tableau next) (stall : Stall count tableau next column) :
    next.RestsAt x := by
  refine ⟨(same.holds x).mpr rests.holds, fun other absent => ?_⟩
  rcases stall.moves with flips | ⟨index, source, leaving, exchanges⟩
  · rw [flips.basis] at absent
    by_cases own : other = column
    · subst own
      rw [reading_toggle flips.columns flips.bound, Function.update_self,
        rests.still other absent, sub_zero]
    · have kept : next.columns[other]? = tableau.columns[other]? := by
        rw [flips.columns, getElem?_toggle_of_ne own]
      exact (reading_congr kept rfl).trans (rests.still other absent)
  · have member := List.mem_of_getElem? exchanges.known
    have reads := rests.reading_basic vertex member exchanges.named
    by_cases own : other = leaving
    · subst own
      rcases exchanges.rhs with ⟨columns, -, zero⟩ | ⟨columns, -, bound⟩
      · exact (reading_congr (by rw [columns]) rfl).trans (reads.trans zero)
      · rw [reading_toggle columns bound, Function.update_self, reads, sub_self]
    · have before : some other ∉ tableau.basis := by
        intro there
        obtain ⟨place, found⟩ := List.mem_iff_getElem?.mp there
        refine absent ?_
        rw [exchanges.basis]
        refine List.mem_iff_getElem?.mpr ⟨place, ?_⟩
        rw [List.getElem?_set_ne, found]
        rintro rfl
        rw [getElem?_basis exchanges.known, exchanges.named] at found
        exact own (Option.some.inj (Option.some.inj found)).symm
      have kept : next.columns[other]? = tableau.columns[other]? := by
        rcases exchanges.rhs with ⟨columns, -, -⟩ | ⟨columns, -, -⟩
        · rw [columns]
        · rw [columns, getElem?_toggle_of_ne own]
      exact (reading_congr kept rfl).trans (rests.still other before)

/-- A column with some width that reads zero keeps its orientation in a step of length zero. -/
theorem RestsAt.keeps_column (rests : tableau.RestsAt x) (vertex : tableau.AtVertex width)
    (stall : Stall count tableau next column) {other : Nat}
    (wide : tableau.upperAt other ≠ some 0) (zero : tableau.reading x other = 0) :
    next.columns[other]? = tableau.columns[other]? := by
  rcases stall.moves with flips | ⟨index, source, leaving, exchanges⟩
  · rw [flips.columns, getElem?_toggle_of_ne]
    rintro rfl
    exact wide flips.bound
  · rcases exchanges.rhs with ⟨columns, -, -⟩ | ⟨columns, -, bound⟩
    · rw [columns]
    · rw [columns, getElem?_toggle_of_ne]
      rintro rfl
      have reads := rests.reading_basic vertex (List.mem_of_getElem? exchanges.known) exchanges.named
      rw [← reads, zero] at bound
      exact wide bound

/-- A column that is basic after a step was so before, or has come in. -/
theorem Stall.mem_basis_before (stall : Stall count tableau next column) {other : Nat}
    (after : some other ∈ next.basis) : some other ∈ tableau.basis ∨
      (tableau.Lowest count other ∧
        ∃ index source leaving, Exchanges tableau next other 0 index source leaving) := by
  rcases stall.moves with flips | ⟨index, source, leaving, exchanges⟩
  · exact .inl (flips.basis ▸ after)
  · rw [exchanges.basis] at after
    rcases List.mem_or_eq_of_mem_set after with old | new
    · exact .inl old
    · obtain rfl := Option.some.inj new
      exact .inr ⟨stall.lowest, index, source, leaving, exchanges⟩

/-- A column that is basic before a step stays so, or has left. -/
theorem Stall.mem_basis_after (stall : Stall count tableau next column) {other : Nat}
    (before : some other ∈ tableau.basis) : some other ∈ next.basis ∨
      ∃ index source, Exchanges tableau next column 0 index source other := by
  rcases stall.moves with flips | ⟨index, source, leaving, exchanges⟩
  · exact .inl (flips.basis ▸ before)
  · by_cases own : other = leaving
    · subst own
      exact .inr ⟨index, source, exchanges⟩
    · left
      rw [exchanges.basis]
      obtain ⟨place, found⟩ := List.mem_iff_getElem?.mp before
      refine List.mem_iff_getElem?.mpr ⟨place, ?_⟩
      rw [List.getElem?_set_ne, found]
      rintro rfl
      rw [getElem?_basis exchanges.known, exchanges.named] at found
      exact own (Option.some.inj (Option.some.inj found)).symm

end Resting

/-! ### Circles -/

/-- A round of steps of length zero that comes back to its basis and orientations. -/
structure Circle (count width : Nat) (turn : Nat → Tableau Rat) (period : Nat) : Prop where
  positive : 0 < period
  vertex : ∀ k ≤ period, (turn k).AtVertex width
  same : ∀ k ≤ period, SameProblem (turn 0) (turn k)
  value : ∀ k ≤ period, (turn k).value = (turn 0).value
  stalls : ∀ k < period, ∃ column, Stall count (turn k) (turn (k + 1)) column
  basis : (turn period).basis = (turn 0).basis
  columns : (turn period).columns = (turn 0).columns

/-- The column comes into the basis during the round. -/
def ComesIn (count : Nat) (turn : Nat → Tableau Rat) (period column : Nat) : Prop :=
  ∃ k < period, (turn k).Lowest count column ∧ ∃ index source leaving,
    Exchanges (turn k) (turn (k + 1)) column 0 index source leaving

/-- What a step passes on from one place of a round to the next holds everywhere, once it
holds somewhere: the round closes. -/
theorem holds_round {held : Nat → Prop} {period : Nat}
    (steps : ∀ k < period, held k → held (k + 1)) (closes : held period → held 0) {k : Nat}
    (inside : k ≤ period) (somewhere : held k) {other : Nat} (there : other ≤ period) :
    held other := by
  have onward : ∀ first last, first ≤ last → last ≤ period → held first → held last := by
    intro first last order
    induction last, order using Nat.le_induction with
    | base => exact fun _ => id
    | succ last order ih => exact fun below start => steps last below (ih (Nat.le_of_lt below) start)
  exact onward 0 other (Nat.zero_le _) there (closes (onward k period inside le_rfl somewhere))

namespace Circle

variable {count width period : Nat} {turn : Nat → Tableau Rat}

theorem sameProblem (circle : Circle count width turn period) {first last : Nat}
    (start : first ≤ period) (stop : last ≤ period) : SameProblem (turn first) (turn last) := by
  have before := circle.same first start
  have after := circle.same last stop
  refine ⟨after.frame.trans before.frame.symm, after.constant.trans before.constant.symm,
    after.costReady.trans before.costReady.symm, fun x => (after.holds x).trans (before.holds x).symm,
    fun x held => ?_⟩
  have origin := (before.holds x).mp held
  rw [after.price x origin, before.price x origin]

theorem restsAt (circle : Circle count width turn period) {k : Nat} (inside : k ≤ period) :
    (turn k).RestsAt (turn 0).vertexPoint := by
  induction k with
  | zero => exact restsAt_vertexPoint (circle.vertex 0 inside)
  | succ k ih =>
    obtain ⟨column, stall⟩ := circle.stalls k inside
    exact (ih (Nat.le_of_lt inside)).stall (circle.vertex k (Nat.le_of_lt inside))
      (circle.sameProblem (Nat.le_of_lt inside) inside) stall

/-- A column that is basic at one place of the round and not at another comes in. -/
theorem comesIn (circle : Circle count width turn period) {k other column : Nat}
    (inside : k ≤ period) (basic : some column ∈ (turn k).basis) (there : other ≤ period)
    (absent : some column ∉ (turn other).basis) : ComesIn count turn period column := by
  by_contra stays
  have steps : ∀ k < period, some column ∉ (turn k).basis → some column ∉ (turn (k + 1)).basis := by
    intro k below missing now
    obtain ⟨entering, stall⟩ := circle.stalls k below
    rcases stall.mem_basis_before now with before | exchanged
    · exact missing before
    · exact stays ⟨k, below, exchanged⟩
  exact holds_round steps (fun missing => circle.basis ▸ missing) there absent inside basic

/-- A column that comes in during the round leaves again during the round. -/
theorem leaves (circle : Circle count width turn period) {column : Nat}
    (comes : ComesIn count turn period column) : ∃ k < period, ∃ entering index source,
      (turn k).Lowest count entering ∧
        Exchanges (turn k) (turn (k + 1)) entering 0 index source column := by
  obtain ⟨k, inside, lowest, index, source, leaving, exchanges⟩ := comes
  by_contra stays
  have present : some column ∈ (turn (k + 1)).basis := by
    rw [exchanges.basis]
    refine List.mem_iff_getElem?.mpr ⟨index, List.getElem?_set_self ?_⟩
    exact (List.getElem?_eq_some_iff.mp (getElem?_basis exchanges.known)).1
  have steps : ∀ k < period, some column ∈ (turn k).basis → some column ∈ (turn (k + 1)).basis := by
    intro k below now
    obtain ⟨entering, stall⟩ := circle.stalls k below
    refine (stall.mem_basis_after now).resolve_right fun ⟨index, source, gone⟩ => ?_
    exact stays ⟨k, below, entering, index, source, stall.lowest, gone⟩
  have basic := holds_round steps (fun now => circle.basis ▸ now) inside present (Nat.le_of_lt inside)
  obtain ⟨row, member, named⟩ := mem_basis_iff.mp basic
  exact (circle.vertex k inside.le).not_basic lowest.improving member named

/-- A column that comes in has some width. -/
theorem upperAt_ne_zero (circle : Circle count width turn period) {column : Nat}
    (comes : ComesIn count turn period column) {k : Nat} (inside : k ≤ period) :
    (turn k).upperAt column ≠ some 0 := by
  obtain ⟨other, there, -, index, source, leaving, exchanges⟩ := comes
  rw [upperAt_congr (circle.sameProblem there.le inside).frame]
  exact fun zero => lt_irrefl 0 (exchanges.short 0 zero)

/-- A column that comes in reads zero all the way round. -/
theorem reading_eq_zero (circle : Circle count width turn period) {column : Nat}
    (comes : ComesIn count turn period column) {k : Nat} (inside : k ≤ period) :
    (turn k).columns[column]? = (turn 0).columns[column]? ∧
      (turn k).reading (turn 0).vertexPoint column = 0 := by
  have ⟨start, below, lowest, _⟩ := comes
  have absent : some column ∉ (turn start).basis := by
    rw [mem_basis_iff]
    rintro ⟨row, member, named⟩
    exact (circle.vertex start below.le).not_basic lowest.improving member named
  have kept : ∀ k < period, (turn k).reading (turn 0).vertexPoint column = 0 →
      (turn (k + 1)).columns[column]? = (turn k).columns[column]? := by
    intro k below zero
    obtain ⟨entering, stall⟩ := circle.stalls k below
    exact (circle.restsAt below.le).keeps_column (circle.vertex k below.le) stall
      (circle.upperAt_ne_zero comes below.le) zero
  have steps : ∀ k < period, (turn k).reading (turn 0).vertexPoint column = 0 →
      (turn (k + 1)).reading (turn 0).vertexPoint column = 0 :=
    fun k below zero => (reading_congr (kept k below zero) rfl).trans zero
  have closes : (turn period).reading (turn 0).vertexPoint column = 0 →
      (turn 0).reading (turn 0).vertexPoint column = 0 :=
    fun zero => (reading_congr (by rw [circle.columns]) rfl).trans zero
  have zero : ∀ k ≤ period, (turn k).reading (turn 0).vertexPoint column = 0 := fun k inside =>
    holds_round steps closes below.le ((circle.restsAt below.le).still column absent) inside
  refine ⟨?_, zero k inside⟩
  induction k with
  | zero => rfl
  | succ k ih => exact (kept k inside (zero k (Nat.le_of_lt inside))).trans (ih (Nat.le_of_lt inside))

/-- Reflections alone do not close a round: the column reflected first costs more than nothing
from then on. -/
theorem exists_comesIn (circle : Circle count width turn period) :
    ∃ column, ComesIn count turn period column := by
  by_contra none
  have flips : ∀ k < period, ∃ column, (turn k).Lowest count column ∧
      Flips (turn k) (turn (k + 1)) column 0 := by
    intro k below
    obtain ⟨column, lowest, flips | exchanges⟩ := circle.stalls k below
    · exact ⟨column, lowest, flips⟩
    · exact absurd ⟨column, k, below, lowest, exchanges⟩ none
  obtain ⟨first, lowest, flip⟩ := flips 0 circle.positive
  obtain ⟨data, known, -⟩ := Option.bind_eq_some_iff.mp flip.bound
  have onward : ∀ k, 1 ≤ k → k ≤ period → 0 < (turn k).reduced.getD first 0 ∧
      (turn k).columns[first]? = ((turn 0).toggle first)[first]? := by
    intro k positive
    induction k, positive using Nat.le_induction with
    | base =>
      intro _
      rw [flip.reduced, flip.columns]
      have inside : first < (turn 0).reduced.length := by
        by_contra outside
        have negative := lowest.improving
        simp [not_lt.mp outside] at negative
      have negative := lowest.improving
      simp only [List.getD_eq_getElem?_getD, List.getElem?_set_self inside, Option.getD_some] at negative ⊢
      exact ⟨by linarith, trivial⟩
    | succ k _ ih =>
      intro below
      obtain ⟨costs, kept⟩ := ih (Nat.le_of_lt below)
      obtain ⟨other, lowestOther, flipOther⟩ := flips k below
      have apart : first ≠ other := by
        rintro rfl
        exact lt_asymm costs lowestOther.improving
      rw [flipOther.reduced, flipOther.columns, getElem?_toggle_of_ne apart]
      refine ⟨?_, kept⟩
      rwa [List.getD_eq_getElem?_getD, List.getElem?_set_ne (Ne.symm apart),
        ← List.getD_eq_getElem?_getD]
  obtain ⟨-, toggled⟩ := onward period circle.positive le_rfl
  rw [circle.columns, toggle, List.getElem?_modify_eq, known] at toggled
  have same := congrArg TableauColumn.complemented (Option.some.inj toggled)
  simp at same

/-! ### No round closes -/

/-- The terms of the price row where the highest column comes in, at the direction in which it
left. -/
theorem term_nonneg (circle : Circle count width turn period) {highest entering index : Nat}
    {source : TableauRow Rat} (comes : ComesIn count turn period highest)
    (greatest : ∀ column, ComesIn count turn period column → column ≤ highest) {out back : Nat}
    (outside : out < period) (lowest : (turn out).Lowest count entering)
    (exchanges : Exchanges (turn out) (turn (out + 1)) entering 0 index source highest)
    (backside : back < period) (lowestBack : (turn back).Lowest count highest) (column : Nat) :
    0 ≤ (turn back).reduced.getD column 0 *
      (turn back).reading ((turn out).movedPoint entering 1) column := by
  have vertex := circle.vertex out outside.le
  have vertexBack := circle.vertex back backside.le
  -- A column that comes in has the same orientation at both places.
  have alike : ∀ column, ComesIn count turn period column →
      (turn back).reading ((turn out).movedPoint entering 1) column =
        (turn out).reading ((turn out).movedPoint entering 1) column := fun column comes =>
    reading_congr ((circle.reading_eq_zero comes backside.le).1.trans
      (circle.reading_eq_zero comes outside.le).1.symm) rfl
  have moved : (turn out).reading ((turn out).movedPoint entering 1) = Function.update
      ((turn out).basicReading fun row => row.rhs - 1 * entry row entering) entering 1 := by
    rw [movedPoint, reading_pointOf]
  by_cases basicBack : some column ∈ (turn back).basis
  · obtain ⟨row, member, named⟩ := mem_basis_iff.mp basicBack
    rw [vertexBack.free row member column named, zero_mul]
  by_cases own : column = entering
  · subst own
    have comesOwn : ComesIn count turn period column := ⟨out, outside, lowest, _, _, _, exchanges⟩
    have apart : column ≠ highest := by
      rintro rfl
      exact vertex.not_basic lowest.improving (List.mem_of_getElem? exchanges.known) exchanges.named
    have before := lowestBack.before column (lt_of_le_of_ne (greatest column comesOwn) apart)
    rw [alike column comesOwn, moved, Function.update_self, mul_one]
    exact before
  by_cases basicOut : some column ∈ (turn out).basis
  · have comesOwn := circle.comesIn outside.le basicOut backside.le basicBack
    obtain ⟨row, member, named⟩ := mem_basis_iff.mp basicOut
    have zero : row.rhs = 0 :=
      ((circle.restsAt outside.le).reading_basic vertex member named).symm.trans
        (circle.reading_eq_zero comesOwn outside.le).2
    rw [alike column comesOwn, moved, Function.update_of_ne own,
      basicReading_basic vertex.units member named, zero, one_mul, zero_sub]
    rcases (greatest column comesOwn).lt_or_eq with less | rfl
    · refine mul_nonneg (lowestBack.before column less) (neg_nonneg.mpr ?_)
      by_contra positive
      exact absurd (exchanges.first row member (not_le.mp positive) (by rw [zero, zero_mul])
        column named) (not_le.mpr less)
    · refine mul_nonneg_of_nonpos_of_nonpos lowestBack.improving.le (neg_nonpos.mpr ?_)
      obtain rfl := vertex.units.unique member (List.mem_of_getElem? exchanges.known) named
        exchanges.named
      rcases exchanges.rhs with ⟨-, positive, -⟩ | ⟨-, -, bound⟩
      · exact positive.le
      · rw [zero] at bound
        exact absurd bound (circle.upperAt_ne_zero comes outside.le)
  · have still := (circle.restsAt outside.le).still column basicOut
    have zero : (turn out).reading ((turn out).movedPoint entering 1) column = 0 := by
      rw [moved, Function.update_of_ne own]
      exact basicReading_nonbasic fun row member named =>
        basicOut (mem_basis_iff.mpr ⟨row, member, named⟩)
    have same := eq_of_reading_eq (zero.trans still.symm)
    rw [reading_congr rfl same, (circle.restsAt backside.le).still column basicBack, mul_zero]

/-- Iterations of length zero never close a round. -/
theorem elim (circle : Circle count width turn period) : False := by
  let comers := {column | ComesIn count turn period column}
  have bounded : BddAbove comers := by
    refine ⟨count, ?_⟩
    rintro column ⟨k, -, lowest, -⟩
    exact lowest.below.le
  have comes : ComesIn count turn period (sSup comers) :=
    Nat.sSup_mem circle.exists_comesIn bounded
  obtain ⟨out, outside, entering, index, source, lowest, exchanges⟩ := circle.leaves comes
  have ⟨back, backside, lowestBack, _⟩ := comes
  have vertex := circle.vertex out outside.le
  have price : (turn back).priceAt ((turn out).movedPoint entering 1) =
      (turn out).value + (turn out).reduced.getD entering 0 * 1 := by
    rw [(circle.sameProblem outside.le backside.le).price _
      (holds_movedPoint vertex lowest.improving), priceAt_movedPoint vertex lowest.improving]
  have gain : 0 ≤ form (turn back).reduced
      ((turn back).reading ((turn out).movedPoint entering 1)) := by
    refine form_nonneg fun column _ => ?_
    exact circle.term_nonneg comes (fun column there => le_csSup bounded there) outside lowest
      exchanges backside lowestBack column
  rw [priceAt, circle.value back backside.le, circle.value out outside.le] at price
  have improving := lowest.improving
  linarith

end Circle

end MixedInteger.Simplex.Tableau
