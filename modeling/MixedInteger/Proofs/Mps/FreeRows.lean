import MixedInteger.Proofs.Mps.DataLines

/-! Free rows. The first free row of a file is its objective; each later one is dropped and leaves
no trace in the draft. Not even its name is kept, so that a line which gives the dropped row a
value is not passed over: it is rejected for an unknown row. -/
namespace MixedInteger.Mps

/-- A well-formed line of values for rows, with its pairs of a row and a value. -/
inductive Pairing : Section → List String → List (String × String) → Prop where
  | column {name : String} {words : List String} (plain : words.head? ≠ some "'MARKER'")
      (paired : 2 ≤ words.length ∧ words.length % 2 = 0) :
      Pairing .columns (name :: words) (Draft.pairs words)
  | rhs {words : List String} (stated : Draft.withoutSet words ≠ []) :
      Pairing .rhs words (Draft.pairs (Draft.withoutSet words))
  | range {words : List String} (stated : Draft.withoutSet words ≠ []) :
      Pairing .ranges words (Draft.pairs (Draft.withoutSet words))

namespace Draft

/-- Every value can be read and every row is known, but for one name that is among the rows. -/
structure Strays (draft : Draft) (name : String) (stated : List (String × String)) : Prop where
  named : name ∈ stated.map Prod.fst
  readable : ∀ pair ∈ stated, ∃ value, readNumber pair.2 = .ok value
  others : ∀ pair ∈ stated, pair.1 ≠ name → ∃ target, draft.target pair.1 = .ok target

variable {draft : Draft} {name : String} {stated : List (String × String)}

theorem target_of_undeclared (objective : draft.objectiveRow ≠ some name)
    (undeclared : name ∉ draft.rows.map RowEntry.name) :
    draft.target name = .error (.unknownRow name) := by
  have absent : draft.rows.findIdx? (·.name == name) = none := by
    rw [List.findIdx?_eq_none_iff]
    intro row member
    exact beq_false_of_ne fun same => undeclared (List.mem_map.mpr ⟨row, member, same⟩)
  rw [target, if_neg objective, absent]

/-- Past a pair of another row, the stray name is still ahead. -/
theorem Strays.tail {pair : String × String} (strays : draft.Strays name (pair :: stated))
    (other : pair.1 ≠ name) : draft.Strays name stated where
  named := (List.mem_cons.mp strays.named).resolve_left fun same => other same.symm
  readable := fun later member => strays.readable later (List.mem_cons_of_mem pair member)
  others := fun later member => strays.others later (List.mem_cons_of_mem pair member)

theorem foldlM_addCoefficient_strays (unknown : draft.target name = .error (.unknownRow name))
    (strays : draft.Strays name stated) (column : Nat) :
    stated.foldlM (addCoefficient column) draft = .error (.unknownRow name) := by
  induction stated generalizing draft with
  | nil => cases strays.named
  | cons pair stated ih =>
    obtain ⟨value, read⟩ := strays.readable pair (List.mem_cons_self ..)
    rw [List.foldlM_cons]
    by_cases here : pair.1 = name
    · simp only [addCoefficient, read, here, unknown, bind, Except.bind]
    · obtain ⟨target, found⟩ := strays.others pair (List.mem_cons_self ..) here
      have added : addCoefficient column draft pair = .ok (draft.addItems column [(target, value)]) :=
        addCoefficient_eq_ok_iff.mpr ⟨(target, value), ⟨found, read⟩, rfl⟩
      -- a coefficient does not change what names refer to
      have later := strays.tail here
      rw [added]
      exact ih unknown ⟨later.named, later.readable, later.others⟩

theorem mapM_readPair_strays (unknown : draft.target name = .error (.unknownRow name))
    (strays : draft.Strays name stated) :
    stated.mapM draft.readPair = .error (.unknownRow name) := by
  induction stated with
  | nil => cases strays.named
  | cons pair stated ih =>
    rw [List.mapM_cons]
    by_cases here : pair.1 = name
    · simp only [readPair, here, unknown, bind, Except.bind]
    · obtain ⟨value, read⟩ := strays.readable pair (List.mem_cons_self ..)
      obtain ⟨target, found⟩ := strays.others pair (List.mem_cons_self ..) here
      have first : draft.readPair pair = .ok (target, value) := readPair_eq_ok_iff.mpr ⟨found, read⟩
      rw [first, ih (strays.tail here)]
      rfl

theorem readPairs_strays {words : List String} (unknown : draft.target name = .error (.unknownRow name))
    (stated : withoutSet words ≠ []) (strays : draft.Strays name (pairs (withoutSet words))) :
    draft.readPairs words = .error (.unknownRow name) := by
  rw [readPairs_eq, if_neg stated, mapM_readPair_strays unknown strays]

/-- A line that gives a value to a row that is not known is rejected. -/
theorem take_strays {words : List String} (unknown : draft.target name = .error (.unknownRow name))
    (pairing : Pairing draft.place words stated) (strays : draft.Strays name stated) :
    draft.take (.data words) = .error (.unknownRow name) := by
  generalize here : draft.place = place at pairing
  cases pairing with
  | @column column words plain paired =>
    have rejected : (pairs words).foldlM (addCoefficient (draft.declareColumn column).1)
        (draft.declareColumn column).2 = .error (.unknownRow name) :=
      foldlM_addCoefficient_strays (by rwa [target_declareColumn])
        ⟨strays.named, strays.readable, by simpa only [target_declareColumn] using strays.others⟩ _
    simp only [take, readData, here, readColumn_cons plain paired, rejected, Except.map]
  | rhs stated => simp [take, readData, here, readPairs_strays unknown stated strays, Except.map]
  | range stated =>
    simp [take, readData, here, readPairs_strays unknown stated strays, Except.map, bind,
      Except.bind]

end Draft

/-- A further free row changes nothing by itself; a value for it, in any later line, is rejected. -/
theorem parse_freeRow {before after : List String} {text name : String} {draft : Draft}
    {named : NamedModel} (accepted : (parse ((before ++ after).map some)).outcome = .ok named)
    (leads : Leads {} (before.map statement) draft) (place : draft.place = .rows)
    (objective : draft.objectiveRow ≠ none) (row : statement text = .data ["N", name]) :
    (parse ((before ++ text :: after).map some)).outcome = .ok named ∧
    ∀ between line later state words stated,
      Leads draft (between.map statement) state →
      draft.objectiveRow ≠ some name → name ∉ state.rows.map RowEntry.name →
      statement line = .data words → Pairing state.place words stated → state.Strays name stated →
      (parse ((before ++ text :: between ++ line :: later).map some)).outcome =
        .error (.parse (before.length + between.length + 2) (.unknownRow name)) := by
  have dropped : draft.take (statement text) = .ok (some draft) := by
    rw [row]
    exact Draft.take_data_eq_some_iff.mpr (.freeRow place objective)
  constructor
  · obtain ⟨last, settles, finished⟩ := parse_eq_ok_iff.mp accepted
    rw [List.map_append, leads.settles_append_iff] at settles
    refine parse_eq_ok_iff.mpr ⟨last, ?_, finished⟩
    rw [List.map_append, leads.settles_append_iff, List.map_cons, settles_cons_iff dropped]
    exact settles
  · intro between line later state words stated onward other undeclared data pairing strays
    have walk : Leads {} ((before ++ text :: between).map statement) state := by
      rw [List.map_append, List.map_cons]
      exact leads.append (.cons dropped onward)
    have kept : state.objectiveRow = draft.objectiveRow := onward.objectiveRow_eq objective
    have unknown : state.target name = .error (.unknownRow name) :=
      Draft.target_of_undeclared (by rwa [kept]) undeclared
    have rejects : Rejects {} ((before ++ text :: between ++ line :: later).map statement)
        (before ++ text :: between).length (.unknownRow name) :=
      ⟨(before ++ text :: between).map statement, statement line, later.map statement, state,
        by rw [List.map_append, List.map_cons], List.length_map .., walk,
        by rw [data]; exact Draft.take_strays unknown pairing strays⟩
    rw [outcome_parse, rejects.outcome_readLines 1 ((List.take_prefix _ _).map some)]
    simp only [List.length_append, List.length_cons, bind, Except.bind]
    congr 2
    omega

/-- Minimise `x` over `2 x ≤ 4`. -/
def hamper : NamedModel where
  name := ""
  model := {
    objective := [.ofInt 1]
    rows := [⟨[.ofInt 2], .le, .ofInt 4⟩]
    columns := [{}] }
  maximize := false

theorem hamper_weight_unknown :
    (parse (["ROWS", " N cost", " L cap", " N weight", "COLUMNS", " x cost 1 cap 2",
      "RHS", " cap 4"].map some)).outcome = .ok hamper ∧
    (parse (["ROWS", " N cost", " L cap", " N weight", "COLUMNS", " x cost 1 cap 2",
      "RHS", " cap 4 weight 9"].map some)).outcome = .error (.parse 8 (.unknownRow "weight")) := by
  have accepted : (parse ((["ROWS", " N cost", " L cap"] ++
      ["COLUMNS", " x cost 1 cap 2", "RHS", " cap 4"]).map some)).outcome = .ok hamper := by
    with_unfolding_all rfl
  have row : statement " N weight" = .data ["N", "weight"] := rfl
  obtain ⟨dropped, rejected⟩ := parse_freeRow accepted (.cons rfl (.cons rfl (.cons rfl (.nil _))))
    rfl (by decide) row
  refine ⟨dropped, rejected ["COLUMNS", " x cost 1 cap 2", "RHS"] " cap 4 weight 9" [] _ _ _
    (.cons rfl (.cons rfl (.cons rfl (.nil _)))) (by decide) (by decide) rfl (.rhs (by decide))
    ⟨by decide, ?_, ?_⟩⟩
  · exact List.forall_mem_cons.mpr ⟨⟨.ofInt 4, rfl⟩, List.forall_mem_singleton.mpr ⟨.ofInt 9, rfl⟩⟩
  · exact List.forall_mem_cons.mpr ⟨fun _ => ⟨.row 0, rfl⟩,
      List.forall_mem_singleton.mpr fun other => absurd rfl other⟩

/-- The message says that the row is dropped, and then its coefficient is not. -/
theorem hamper_weight_rejected :
    (parse (["ROWS", " N cost", " L cap", "COLUMNS", " x cost 1 cap 2",
      "RHS", " cap 4"].map some)).outcome = .ok hamper ∧
    parse (["ROWS", " N cost", " L cap", " N weight", "COLUMNS", " x cost 1 cap 2", " x weight 3",
      "RHS", " cap 4"].map some) =
        ⟨.error (.parse 7 (.unknownRow "weight")), [⟨.warn, "line 4: dropping free row weight"⟩]⟩ :=
  ⟨by with_unfolding_all rfl, by with_unfolding_all rfl⟩

end MixedInteger.Mps
