import MixedInteger.Proofs.Mps.Shape

/-! Steps that can change places. Right-hand sides, ranges and bounds replace what was there, and
two of them are independent if they are of different rows or columns. Coefficients add up, in the
order of the file: two of them are independent if they are of different places, or if every sum they
can enter is exact. Only the list of entries remembers the order of two such lines, and the matrix
that it fills does not. -/
namespace MixedInteger

namespace Number

theorem isExact_add {p q : Number} (first : p.isExact) (second : q.isExact) : (p.add q).isExact := by
  cases p <;> cases q <;> simp_all [isExact, add]

theorem add_comm_of_isExact {p q : Number} (first : p.isExact) (second : q.isExact) :
    p.add q = q.add p := by
  cases p <;> cases q <;> simp_all [isExact, add, Rat.add_comm]

theorem add_right_comm_of_isExact {p q r : Number} (first : p.isExact) (second : q.isExact)
    (third : r.isExact) : (p.add q).add r = (p.add r).add q := by
  cases p <;> cases q <;> cases r <;> simp_all [isExact, add, add_right_comm]

end Number

namespace Mps

namespace Draft

/-! ### Entries -/

/-- The matrix that entries fill, of a number of rows and columns. -/
def fill (rows columns : Nat) (entries : List (Nat × Nat × Number)) : List (List Number) :=
  entries.foldl addEntry (List.replicate rows (List.replicate columns .zero))

theorem fill_append (rows columns : Nat) (entries more : List (Nat × Nat × Number)) :
    fill rows columns (entries ++ more) = more.foldl addEntry (fill rows columns entries) :=
  List.foldl_append

theorem matrix_eq_fill (draft : Draft) :
    draft.matrix = fill draft.rows.length draft.columns.length draft.entries := by
  simp [matrix, fill]

theorem addEntry_comm {matrix : List (List Number)} {one other : Nat × Nat × Number}
    (agree : one.1 = other.1 → one.2.1 = other.2.1 → ∀ row ∈ matrix, ∀ x ∈ row,
      (x.add one.2.2).add other.2.2 = (x.add other.2.2).add one.2.2) :
    addEntry (addEntry matrix one) other = addEntry (addEntry matrix other) one :=
  modify_comm fun sameRow row member =>
    modify_comm fun sameColumn x inside => agree sameRow sameColumn row member x inside

/-- Every entry of a matrix is exact. -/
def ExactMatrix (matrix : List (List Number)) : Prop := ∀ row ∈ matrix, ∀ x ∈ row, x.isExact

theorem exactMatrix_addEntry {matrix : List (List Number)} {entry : Nat × Nat × Number}
    (exact : ExactMatrix matrix) (value : entry.2.2.isExact) :
    ExactMatrix (addEntry matrix entry) :=
  forall_mem_modify exact
    (fun _ held => forall_mem_modify held (fun _ x => Number.isExact_add x value) _) _

theorem exactMatrix_fill {entries : List (Nat × Nat × Number)}
    (exact : ∀ entry ∈ entries, entry.2.2.isExact) (rows columns : Nat) :
    ExactMatrix (fill rows columns entries) := by
  refine List.foldlRecOn entries addEntry ?_ fun matrix held entry member =>
    exactMatrix_addEntry held (exact entry member)
  intro row member x inside
  rw [List.eq_of_mem_replicate member] at inside
  rw [List.eq_of_mem_replicate inside]
  rfl

theorem fill_exchange {entries one other : List (Nat × Nat × Number)}
    (apart : (∀ a ∈ one, ∀ b ∈ other, a.1 = b.1 → a.2.1 ≠ b.2.1) ∨
      ∀ a ∈ entries ++ (one ++ other), a.2.2.isExact) (rows columns : Nat) :
    fill rows columns (entries ++ (one ++ other)) = fill rows columns (entries ++ (other ++ one)) := by
  rw [fill_append, fill_append]
  rcases apart with distinct | exact
  · refine foldl_exchange (fun _ => True) (fun _ _ _ _ => trivial) ?_ trivial
    intro matrix _ a first b second
    exact addEntry_comm fun sameRow sameColumn => absurd sameColumn (distinct a first b second sameRow)
  · rw [List.forall_mem_append, List.forall_mem_append] at exact
    obtain ⟨before, first, second⟩ := exact
    refine foldl_exchange ExactMatrix ?_ ?_ ?_
    · intro matrix entry member held
      exact exactMatrix_addEntry held (List.forall_mem_append.mpr ⟨first, second⟩ entry member)
    · intro matrix held a one b other
      exact addEntry_comm fun _ _ row member x inside =>
        Number.add_right_comm_of_isExact (held row member x inside) (first a one) (second b other)
    · exact exactMatrix_fill before rows columns

/-! ### Costs -/

theorem mem_costsOf {items : List (Target × Number)} {value : Number} :
    value ∈ costsOf items ↔ (.objective, value) ∈ items := by
  simp only [costsOf, List.mem_filterMap, Prod.exists]
  constructor
  · rintro ⟨_ | _, _, member, same⟩
    · cases same
      exact member
    · cases same
  · intro member
    exact ⟨_, _, member, rfl⟩

/-- Every cost is exact. -/
def ExactCosts (columns : List ColumnEntry) : Prop :=
  ∀ entry ∈ columns, ∀ cost ∈ entry.cost, cost.isExact

theorem exactCosts_addCost {columns : List ColumnEntry} (exact : ExactCosts columns) {value : Number}
    (summand : value.isExact) (column : Nat) : ExactCosts (addCost column columns value) := by
  refine forall_mem_modify exact (fun entry held => ?_) column
  rintro _ ⟨⟩
  cases known : entry.cost with
  | none => exact summand
  | some cost => exact Number.isExact_add (held cost known) summand

theorem addCost_comm {columns : List ColumnEntry} {one other : Nat × Number}
    (apart : one.1 = other.1 → ExactCosts columns ∧ one.2.isExact ∧ other.2.isExact) :
    addCost other.1 (addCost one.1 columns one.2) other.2 =
      addCost one.1 (addCost other.1 columns other.2) one.2 := by
  refine modify_comm fun same entry member => ?_
  obtain ⟨exact, first, second⟩ := apart same
  cases known : entry.cost with
  | none => simp [Number.add_comm_of_isExact first second]
  | some cost =>
    simp [Number.add_right_comm_of_isExact (exact entry member cost known) first second]

theorem addCost_exchange {columns : List ColumnEntry} {i j : Nat} {one other : List Number}
    (apart : (i = j → one = [] ∨ other = []) ∨
      ExactCosts columns ∧ ∀ value ∈ one ++ other, value.isExact) :
    other.foldl (addCost j) (one.foldl (addCost i) columns) =
      one.foldl (addCost i) (other.foldl (addCost j) columns) := by
  let step : List ColumnEntry → Nat × Number → List ColumnEntry :=
    fun columns item => addCost item.1 columns item.2
  have blocks : (one.map (i, ·) ++ other.map (j, ·)).foldl step columns =
      (other.map (j, ·) ++ one.map (i, ·)).foldl step columns := by
    rcases apart with distinct | ⟨exact, summands⟩
    · refine foldl_exchange (fun _ => True) (fun _ _ _ _ => trivial) ?_ trivial
      intro columns _ a first b second
      obtain ⟨_, one, rfl⟩ := List.mem_map.mp first
      obtain ⟨_, other, rfl⟩ := List.mem_map.mp second
      refine addCost_comm fun same => ?_
      rcases distinct same with rfl | rfl
      · cases one
      · cases other
    · rw [List.forall_mem_append] at summands
      refine foldl_exchange ExactCosts ?_ ?_ exact
      · intro columns item member held
        rcases List.mem_append.mp member with first | second
        · obtain ⟨value, inside, rfl⟩ := List.mem_map.mp first
          exact exactCosts_addCost held (summands.1 value inside) i
        · obtain ⟨value, inside, rfl⟩ := List.mem_map.mp second
          exact exactCosts_addCost held (summands.2 value inside) j
      · intro columns held a first b second
        obtain ⟨value, one, rfl⟩ := List.mem_map.mp first
        obtain ⟨other, two, rfl⟩ := List.mem_map.mp second
        exact addCost_comm fun _ => ⟨held, summands.1 value one, summands.2 other two⟩
  simpa only [List.foldl_append, List.foldl_map] using blocks

/-! ### Drafts that differ in the order of entries -/

def withEntries (draft : Draft) (entries : List (Nat × Nat × Number)) : Draft :=
  { draft with entries }

/-- Two drafts that agree but for their entries, which fill the same matrix. -/
structure Alike (draft other : Draft) : Prop where
  rest : other = draft.withEntries other.entries
  filled : ∀ rows columns, fill rows columns draft.entries = fill rows columns other.entries

theorem Alike.refl (draft : Draft) : Alike draft draft := ⟨rfl, fun _ _ => rfl⟩

theorem Alike.finish_eq {draft other : Draft} (alike : Alike draft other) :
    draft.finish = other.finish := by
  have matrix : draft.matrix = other.matrix := by
    rw [matrix_eq_fill, matrix_eq_fill, alike.rest]
    exact alike.filled _ _
  have model : draft.toModel = other.toModel := by
    unfold toModel
    rw [matrix, alike.rest]
    rfl
  have named : draft.named = other.named := by
    unfold Draft.named
    rw [model, alike.rest]
    rfl
  unfold finish
  rw [named, alike.rest]
  rfl

/-- Two blocks of coefficients change places if no place is in both, or if all sums are exact. -/
theorem addItems_exchange {draft : Draft} {i j : Nat} {one other : List (Target × Number)}
    (apart : (i = j → ∀ a ∈ one, ∀ b ∈ other, a.1 ≠ b.1) ∨
      ((∀ entry ∈ draft.entries, entry.2.2.isExact) ∧ ExactCosts draft.columns ∧
        ∀ item ∈ one ++ other, item.2.isExact)) :
    Alike ((draft.addItems i one).addItems j other) ((draft.addItems j other).addItems i one) := by
  have columns : (costsOf other).foldl (addCost j) ((costsOf one).foldl (addCost i) draft.columns) =
      (costsOf one).foldl (addCost i) ((costsOf other).foldl (addCost j) draft.columns) := by
    refine addCost_exchange (apart.imp (fun distinct same => ?_) fun ⟨_, costs, items⟩ => ?_)
    · by_contra both
      rw [not_or] at both
      obtain ⟨value, first⟩ := List.exists_mem_of_ne_nil _ both.1
      obtain ⟨cost, second⟩ := List.exists_mem_of_ne_nil _ both.2
      exact distinct same _ (mem_costsOf.mp first) _ (mem_costsOf.mp second) rfl
    · rw [List.forall_mem_append] at items ⊢
      exact ⟨costs, fun value member => items.1 _ (mem_costsOf.mp member),
        fun value member => items.2 _ (mem_costsOf.mp member)⟩
  refine ⟨?_, fun rows width => ?_⟩
  · simp only [addItems, withEntries, columns]
  · simp only [addItems, List.append_assoc]
    refine fill_exchange (apart.imp (fun distinct a first b second sameRow sameColumn => ?_)
      fun ⟨entries, _, items⟩ => ?_) rows width
    · obtain ⟨here, inOne⟩ := mem_entriesOf.mp first
      obtain ⟨there, inOther⟩ := mem_entriesOf.mp second
      exact distinct (here.symm.trans (sameColumn.trans there)) _ inOne _ inOther
        (congrArg Target.row sameRow)
    · rw [List.forall_mem_append] at items
      rw [List.forall_mem_append, List.forall_mem_append]
      exact ⟨entries, fun entry member => items.1 _ (mem_entriesOf.mp member).2,
        fun entry member => items.2 _ (mem_entriesOf.mp member).2⟩

/-! ### Later lines -/

theorem setRhs_withEntries (draft : Draft) (entries : List (Nat × Nat × Number))
    (item : Target × Number) :
    (draft.withEntries entries).setRhs item = (draft.setRhs item).withEntries entries := by
  obtain ⟨_ | _, _⟩ := item <;> rfl

theorem putRange_withEntries (draft : Draft) (entries : List (Nat × Nat × Number))
    (item : Target × Number) :
    (draft.withEntries entries).putRange item = (draft.putRange item).withEntries entries := by
  obtain ⟨_ | _, _⟩ := item <;> rfl

theorem foldl_withEntries {step : Draft → Target × Number → Draft}
    (frame : ∀ draft entries item,
      step (withEntries draft entries) item = (step draft item).withEntries entries)
    (draft : Draft) (entries : List (Nat × Nat × Number)) (items : List (Target × Number)) :
    items.foldl step (draft.withEntries entries) = (items.foldl step draft).withEntries entries :=
  List.foldl_hom (·.withEntries entries) fun draft item => frame draft entries item

theorem declareColumn_withEntries (draft : Draft) (entries : List (Nat × Nat × Number))
    (name : String) : (draft.withEntries entries).declareColumn name =
      ((draft.declareColumn name).1, (draft.declareColumn name).2.withEntries entries) := by
  unfold declareColumn
  simp only [withEntries]
  split <;> rfl

end Draft

/-- A data line appends to the entries and does not look at them. -/
theorem Takes.frame {draft next : Draft} {words : List String} (takes : Takes draft words next) :
    ∃ new, next.entries = draft.entries ++ new ∧
      ∀ entries, Takes (draft.withEntries entries) words (next.withEntries (entries ++ new)) := by
  have silent : next.entries = draft.entries →
      (∀ entries, Takes (draft.withEntries entries) words (next.withEntries entries)) →
      ∃ new, next.entries = draft.entries ++ new ∧
        ∀ entries, Takes (draft.withEntries entries) words (next.withEntries (entries ++ new)) :=
    fun same framed => ⟨[], by rw [same, List.append_nil], fun entries => by
      rw [List.append_nil]
      exact framed entries⟩
  cases takes with
  | sense place read => exact silent rfl fun entries => .sense place read
  | objective place first => exact silent rfl fun entries => .objective place first
  | freeRow place later => exact silent rfl fun entries => .freeRow place later
  | row place fresh => exact silent rfl fun entries => .row place fresh
  | marker place marks read => exact silent rfl fun entries => .marker place marks read
  | @column name words items place plain paired resolved =>
    refine ⟨Draft.entriesOf (draft.declareColumn name).1 items, ?_, fun entries => ?_⟩
    · rw [Draft.addItems, Draft.entries_declareColumn]
    · have framed : Takes (draft.withEntries entries) (name :: words) _ :=
        .column place plain paired resolved
      rw [Draft.declareColumn_withEntries] at framed
      exact framed
  | @rhs words items place read =>
    refine silent (Draft.entries_of_bare (foldl_keeps Draft.bare Draft.bare_setRhs _ draft)) fun entries => ?_
    rw [← Draft.foldl_withEntries Draft.setRhs_withEntries]
    exact .rhs place read
  | @range words items place read rows =>
    refine silent (Draft.entries_of_bare (foldl_keeps Draft.bare Draft.bare_putRange _ draft)) fun entries => ?_
    rw [← Draft.foldl_withEntries Draft.putRange_withEntries]
    exact .range place read rows
  | bound place stated found known read applied =>
    exact silent rfl fun entries => .bound place stated found known read applied

namespace Draft

theorem take_header_withEntries {draft next : Draft} {name : String} {arguments : List String}
    (taken : draft.take (.header name arguments) = .ok (some next))
    (entries : List (Nat × Nat × Number)) :
    (draft.withEntries entries).take (.header name arguments) =
      .ok (some (next.withEntries entries)) := by
  simp only [take, openSection] at taken ⊢
  split at taken
  · cases taken
    rfl
  · split at taken
    · obtain ⟨_, set, same⟩ := except_map_eq_ok.mp taken
      cases same
      obtain ⟨sense, rfl, stated⟩ := setSense_eq_ok set
      simp only [stated]
      rfl
    · cases taken
      rfl
  all_goals
    cases taken
    try rfl

namespace Alike

variable {draft other : Draft}

theorem take {line : Statement} {next : Draft} (alike : Alike draft other)
    (taken : draft.take line = .ok (some next)) :
    ∃ state, other.take line = .ok (some state) ∧ Alike next state := by
  rw [alike.rest]
  cases line with
  | nothing =>
    cases taken
    exact ⟨_, rfl, alike.rest ▸ alike⟩
  | header name arguments =>
    refine ⟨_, take_header_withEntries taken other.entries, rfl, fun rows columns => ?_⟩
    obtain ⟨title, sense, rfl⟩ := take_header taken
    exact alike.filled rows columns
  | data words =>
    obtain ⟨new, grown, framed⟩ := (take_data_eq_some_iff.mp taken).frame
    refine ⟨_, take_data_eq_some_iff.mpr (framed other.entries), rfl, fun rows columns => ?_⟩
    rw [grown, fill_append, alike.filled]
    exact (fill_append rows columns other.entries new).symm

theorem leads {lines : List Statement} {last : Draft} (alike : Alike draft other)
    (walk : Leads draft lines last) : ∃ final, Leads other lines final ∧ Alike last final := by
  induction walk generalizing other with
  | nil draft => exact ⟨other, .nil other, alike⟩
  | cons first _ ih =>
    obtain ⟨state, taken, next⟩ := alike.take first
    obtain ⟨final, onward, same⟩ := ih next
    exact ⟨final, .cons taken onward, same⟩

theorem settles {lines : List Statement} {last : Draft} (alike : Alike draft other)
    (settled : Settles draft lines last) : ∃ final, Settles other lines final ∧ Alike last final := by
  obtain ⟨body, rest, rfl, walk, ends⟩ := settled
  obtain ⟨final, onward, same⟩ := alike.leads walk
  refine ⟨final, ⟨body, rest, rfl, onward, ends.imp_right ?_⟩, same⟩
  rintro ⟨marker, more, rfl, stops⟩
  exact ⟨marker, more, rfl, take_eq_none_iff.mpr (take_eq_none_iff.mp stops)⟩

end Alike

end Draft

end Mps

end MixedInteger
