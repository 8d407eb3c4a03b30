import MixedInteger.Proofs.Ending
import MixedInteger.Proofs.Mps.Rendering
import Mathlib.Data.List.Forall2

/-! Reading as a walk from draft to draft. A line is a comment, a header or a list of words, and
what it makes of a draft depends on nothing else: its number only shows in messages. A file is
therefore read by a walk that goes on line by line until the end marker, the end of the file, or
the first line that is rejected. -/
namespace MixedInteger

section Results

variable {ε β γ : Type}

theorem except_map_eq_ok {result : Except ε β} {f : β → γ} {final : γ} :
    result.map f = .ok final ↔ ∃ value, result = .ok value ∧ f value = final := by
  cases result with
  | error cause => simp [Except.map]
  | ok value => simp [Except.map]

theorem mapM_eq_ok_iff {f : β → Except ε γ} {items : List β} {results : List γ} :
    items.mapM f = .ok results ↔
      List.Forall₂ (fun item result => f item = .ok result) items results := by
  induction items generalizing results with
  | nil =>
    rw [List.mapM_nil, List.forall₂_nil_left_iff]
    exact ⟨fun same => (Except.ok.inj same).symm, fun same => congrArg _ same.symm⟩
  | cons item items ih =>
    rw [List.mapM_cons, except_bind_eq_ok, List.forall₂_cons_left_iff]
    constructor
    · rintro ⟨first, head, tail⟩
      obtain ⟨rest, others, same⟩ := except_bind_eq_ok.mp tail
      exact ⟨first, rest, head, ih.mp others, (Except.ok.inj same).symm⟩
    · rintro ⟨first, rest, head, others, rfl⟩
      exact ⟨first, head, except_bind_eq_ok.mpr ⟨rest, ih.mpr others, rfl⟩⟩

end Results

namespace Mps

/-! ### Lines -/

/-- What a line is to the reader. -/
inductive Statement where
  /-- A blank line or a comment. -/
  | nothing
  | header (name : String) (arguments : List String)
  | data (words : List String)
  deriving DecidableEq

def statement (text : String) : Statement :=
  match (Text.words text.toList).map String.ofList, text.toList with
  | [], _ => .nothing
  | _, '*' :: _ => .nothing
  | first :: rest, start :: _ =>
    if Text.isBlank start then .data (first :: rest) else .header first rest
  | _, [] => .nothing

namespace Draft

/-- What a line makes of a draft, apart from messages; there is no next draft at the end marker. -/
def take (draft : Draft) : Statement → Except Complaint (Option Draft)
  | .nothing => .ok (some draft)
  | .header name arguments => draft.openSection name arguments
  | .data words => (draft.readData 0 words).map fun read => some read.1

theorem readRow_number (number : Nat) (draft : Draft) (words : List String) :
    (draft.readRow number words).map Prod.fst = (draft.readRow 0 words).map Prod.fst := by
  unfold readRow
  split
  · cases draft.objectiveRow <;> rfl
  all_goals rfl

theorem readBound_number (number : Nat) (draft : Draft) (words : List String) :
    (draft.readBound number words).map Prod.fst = (draft.readBound 0 words).map Prod.fst := by
  unfold readBound
  cases boundWords words with
  | error cause => rfl
  | ok stated =>
    obtain ⟨name, word⟩ := stated
    simp only [bind, Except.bind]
    split
    · cases word.mapM readNumber with
      | error cause => rfl
      | ok value =>
        dsimp only
        split <;> rfl
    · rfl

/-- The number of a line shows in messages only. -/
theorem readData_number (number : Nat) (draft : Draft) (words : List String) :
    (draft.readData number words).map Prod.fst = (draft.readData 0 words).map Prod.fst := by
  unfold readData
  cases draft.place with
  | rows => exact readRow_number number draft words
  | bounds => exact readBound_number number draft words
  | start | name | sense | columns | rhs | ranges => rfl

theorem feed_eq_take (number : Nat) (draft : Draft) (text : String) :
    (draft.feed number text.toList).map Prod.fst = draft.take (statement text) := by
  unfold feed statement
  generalize (Text.words text.toList).map String.ofList = words
  rcases words with _ | ⟨first, rest⟩
  · rfl
  · rcases text.toList with _ | ⟨start, tail⟩
    · rfl
    · by_cases comment : start = '*'
      · subst comment
        rfl
      · simp only
        split
        · have read := congrArg (Except.map some) (readData_number number draft (first :: rest))
          calc
            _ = ((draft.readData number (first :: rest)).map Prod.fst).map some := by
              cases draft.readData number (first :: rest) <;> rfl
            _ = ((draft.readData 0 (first :: rest)).map Prod.fst).map some := read
            _ = _ := by
              simp only [take]
              cases draft.readData 0 (first :: rest) <;> rfl
        · simp only [take]
          cases draft.openSection first rest <;> rfl

end Draft

/-- Reading goes on line by line. -/
theorem outcome_readLines_cons (draft : Draft) (number : Nat) (text : String)
    (rest : List (Option String)) :
    (readLines draft number (some text :: rest)).outcome =
      match draft.take (statement text) with
      | .error cause => .error (.parse number cause)
      | .ok none => .ok draft
      | .ok (some next) => (readLines next (number + 1) rest).outcome := by
  have fed := draft.feed_eq_take number text
  rw [← fed, readLines]
  cases draft.feed number text.toList with
  | error cause => rfl
  | ok read =>
    obtain ⟨_ | next, journal⟩ := read
    · rfl
    · simp only [Run.outcome_bind, Run.outcome_note]
      rfl

/-! ### The walk -/

/-- Each line of a list is accepted in the draft that the lines before it have led to, and none of
them is the end marker. -/
inductive Leads : Draft → List Statement → Draft → Prop where
  | nil (draft : Draft) : Leads draft [] draft
  | cons {draft middle last : Draft} {line : Statement} {lines : List Statement}
      (first : draft.take line = .ok (some middle)) (rest : Leads middle lines last) :
      Leads draft (line :: lines) last

namespace Leads

variable {draft middle last : Draft} {lines more : List Statement}

theorem append (first : Leads draft lines middle) (second : Leads middle more last) :
    Leads draft (lines ++ more) last := by
  induction first with
  | nil draft => exact second
  | cons taken _ ih => exact .cons taken (ih second)

theorem outcome_readLines {texts : List String} (leads : Leads draft (texts.map statement) last)
    (number : Nat) (rest : List (Option String)) :
    (readLines draft number (texts.map some ++ rest)).outcome =
      (readLines last (number + texts.length) rest).outcome := by
  induction texts generalizing draft number with
  | nil =>
    cases leads
    rfl
  | cons text texts ih =>
    cases leads with
    | cons first later =>
      rw [List.map_cons, List.cons_append, outcome_readLines_cons, first]
      simp only
      rw [ih later, List.length_cons, Nat.add_right_comm, Nat.add_assoc number]

end Leads

/-! ### The end of a walk -/

theorem Draft.take_eq_none_iff {draft : Draft} {line : Statement} :
    draft.take line = .ok none ↔ ∃ arguments, line = .header "ENDATA" arguments := by
  cases line with
  | nothing => simp [Draft.take]
  | header name arguments =>
    simp only [Draft.take, Draft.openSection, Statement.header.injEq, exists_and_left, exists_eq',
      and_true]
    split
    · simp
    · split
      · simp only [String.reduceEq, iff_false]
        intro impossible
        obtain ⟨_, -, same⟩ := except_map_eq_ok.mp impossible
        cases same
      · simp
    all_goals simp_all
  | data words =>
    simp only [Draft.take, reduceCtorEq, exists_false, iff_false]
    intro impossible
    obtain ⟨_, -, same⟩ := except_map_eq_ok.mp impossible
    cases same

/-- The lines up to the end marker, or all lines if there is none, lead to a draft. -/
def Settles (draft : Draft) (lines : List Statement) (last : Draft) : Prop :=
  ∃ body rest, lines = body ++ rest ∧ Leads draft body last ∧
    (rest = [] ∨ ∃ marker more, rest = marker :: more ∧ last.take marker = .ok none)

/-- A number of lines is accepted, and the line after them is not. -/
def Rejects (draft : Draft) (lines : List Statement) (count : Nat) (cause : Complaint) : Prop :=
  ∃ body line rest last, lines = body ++ line :: rest ∧ body.length = count ∧
    Leads draft body last ∧ last.take line = .error cause

theorem settles_cons_iff {draft next last : Draft} {line : Statement} {lines : List Statement}
    (taken : draft.take line = .ok (some next)) :
    Settles draft (line :: lines) last ↔ Settles next lines last := by
  constructor
  · rintro ⟨_ | ⟨first, body⟩, rest, split, leads, ends⟩
    · obtain rfl : rest = line :: lines := split.symm
      cases leads
      rcases ends with none | ⟨marker, more, same, stops⟩
      · cases none
      · cases same
        cases taken.symm.trans stops
    · obtain ⟨rfl, rfl⟩ : line = first ∧ lines = body ++ rest := List.cons.inj split
      cases leads with
      | cons read leads =>
        cases taken.symm.trans read
        exact ⟨body, rest, rfl, leads, ends⟩
  · rintro ⟨body, rest, rfl, leads, ends⟩
    exact ⟨line :: body, rest, rfl, .cons taken leads, ends⟩

theorem Leads.settles_append_iff {draft middle last : Draft} {lines more : List Statement}
    (leads : Leads draft lines middle) :
    Settles draft (lines ++ more) last ↔ Settles middle more last := by
  induction leads with
  | nil draft => rfl
  | cons taken _ ih => exact (settles_cons_iff taken).trans ih

theorem settles_or_rejects (draft : Draft) (lines : List Statement) :
    (∃ last, Settles draft lines last) ∨ ∃ count cause, Rejects draft lines count cause := by
  induction lines generalizing draft with
  | nil => exact .inl ⟨draft, [], [], rfl, .nil draft, .inl rfl⟩
  | cons line lines ih =>
    cases taken : draft.take line with
    | error cause => exact .inr ⟨0, cause, [], line, lines, draft, rfl, rfl, .nil draft, taken⟩
    | ok read =>
      cases read with
      | none => exact .inl ⟨draft, [], line :: lines, rfl, .nil draft, .inr ⟨line, lines, rfl, taken⟩⟩
      | some next =>
        rcases ih next with ⟨last, body, rest, rfl, leads, ends⟩ |
          ⟨count, cause, body, bad, rest, last, rfl, rfl, leads, rejected⟩
        · exact .inl ⟨last, line :: body, rest, rfl, .cons taken leads, ends⟩
        · exact .inr ⟨_, cause, line :: body, bad, rest, last, rfl, rfl, .cons taken leads, rejected⟩

theorem Settles.outcome_readLines {draft last : Draft} {texts : List String}
    (settles : Settles draft (texts.map statement) last) (number : Nat) :
    (readLines draft number (texts.map some)).outcome = .ok last := by
  obtain ⟨_, _, split, leads, ends⟩ := settles
  obtain ⟨body, rest, rfl, rfl, rfl⟩ := List.map_eq_append_iff.mp split
  rw [List.map_append, leads.outcome_readLines]
  rcases ends with none | ⟨marker, more, same, taken⟩
  · rw [List.map_eq_nil_iff.mp none]
    rfl
  · obtain ⟨text, texts, rfl, rfl, rfl⟩ := List.map_eq_cons_iff.mp same
    rw [List.map_cons, outcome_readLines_cons, taken]

/-- A rejected line ends the reading with its number, whatever comes after it. -/
theorem Rejects.outcome_readLines {draft : Draft} {texts : List String} {count : Nat}
    {cause : Complaint} (rejects : Rejects draft (texts.map statement) count cause) (number : Nat)
    {others : List (Option String)} (shared : (texts.take (count + 1)).map some <+: others) :
    (readLines draft number others).outcome = .error (.parse (number + count) cause) := by
  obtain ⟨_, _, _, last, split, rfl, leads, rejected⟩ := rejects
  obtain ⟨body, rest, rfl, rfl, tail⟩ := List.map_eq_append_iff.mp split
  obtain ⟨text, more, rfl, rfl, rfl⟩ := List.map_eq_cons_iff.mp tail
  obtain ⟨later, rfl⟩ := shared
  have start : (body ++ text :: more).take ((body.map statement).length + 1) = body ++ [text] := by
    rw [List.append_cons, List.length_map]
    exact List.take_left' (by simp)
  rw [start, List.map_append, List.append_assoc, leads.outcome_readLines]
  simp only [List.map_cons, List.map_nil, List.cons_append, outcome_readLines_cons, rejected,
    List.length_map]

theorem outcome_parse (lines : List (Option String)) :
    (parse lines).outcome =
      (readLines {} 1 lines).outcome >>= fun draft => draft.finish.mapError .refused := by
  rw [parse, Run.outcome_bind]
  rfl

theorem parse_eq_ok_iff {texts : List String} {named : NamedModel} :
    (parse (texts.map some)).outcome = .ok named ↔
      ∃ last, Settles {} (texts.map statement) last ∧ last.finish = .ok named := by
  have finished : ∀ last : Draft, last.finish.mapError Failure.refused = .ok named ↔
      last.finish = .ok named := by
    intro last
    cases last.finish <;> simp [Except.mapError]
  rw [outcome_parse]
  constructor
  · intro accepted
    rcases settles_or_rejects {} (texts.map statement) with ⟨last, settles⟩ | ⟨count, cause, rejects⟩
    · rw [settles.outcome_readLines] at accepted
      exact ⟨last, settles, (finished last).mp accepted⟩
    · rw [rejects.outcome_readLines 1 ((List.take_prefix _ _).map some)] at accepted
      cases accepted
  · rintro ⟨last, settles, same⟩
    rw [settles.outcome_readLines]
    exact (finished last).mpr same

end Mps

end MixedInteger
