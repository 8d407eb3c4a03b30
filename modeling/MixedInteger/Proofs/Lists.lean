import Mathlib.Data.List.Forall2

/-! Lists that change in one place, and folds over lists: what a change or a step leaves alone, and
when two of them can change places. -/
namespace MixedInteger

variable {β γ σ : Type}

/-! ### Changes in one place -/

/-- A view that a change of an element keeps does not see the change. -/
theorem map_modify {change : β → β} {view : β → γ} (kept : ∀ item, view (change item) = view item)
    (items : List β) (index : Nat) : (items.modify index change).map view = items.map view := by
  refine List.ext_getElem? fun position => ?_
  rw [List.getElem?_map, List.getElem?_map, List.getElem?_modify]
  cases items[position]? with
  | none => rfl
  | some item =>
    by_cases here : index = position <;> simp [here, kept]

theorem map_set {view : β → γ} {items : List β} {index : Nat} {item replacement : β}
    (known : items[index]? = some item) (kept : view replacement = view item) :
    (items.set index replacement).map view = items.map view := by
  have seen : (items.map view)[index]? = some (view item) := by
    rw [List.getElem?_map, known, Option.map_some]
  obtain ⟨inside, same⟩ := List.getElem?_eq_some_iff.mp seen
  rw [List.map_set, kept, ← same, List.set_getElem_self]

theorem modify_comm {first second : β → β} {i j : Nat} {items : List β}
    (agree : i = j → ∀ item ∈ items, second (first item) = first (second item)) :
    (items.modify i first).modify j second = (items.modify j second).modify i first := by
  refine List.ext_getElem? fun position => ?_
  simp only [List.getElem?_modify]
  cases known : items[position]? with
  | none => rfl
  | some item =>
    by_cases one : i = position <;> by_cases two : j = position
    · simp [one, two, agree (one.trans two.symm) item (List.mem_of_getElem? known)]
    all_goals simp [one, two]

theorem forall_mem_modify {good : β → Prop} {change : β → β} {items : List β}
    (before : ∀ item ∈ items, good item) (kept : ∀ item, good item → good (change item))
    (index : Nat) : ∀ item ∈ items.modify index change, good item := by
  intro item member
  obtain ⟨position, found⟩ := List.mem_iff_getElem?.mp member
  rw [List.getElem?_modify] at found
  obtain ⟨old, known, same⟩ := Option.map_eq_some_iff.mp found
  have held := before old (List.mem_of_getElem? known)
  subst same
  split
  · exact kept old held
  · exact held

/-! ### Lists that match element by element -/

theorem forall₂_eraseIdx {matched : β → γ → Prop} {items : List β} {others : List γ}
    (all : List.Forall₂ matched items others) (index : Nat) :
    List.Forall₂ matched (items.eraseIdx index) (others.eraseIdx index) := by
  induction all generalizing index with
  | nil => exact .nil
  | cons here later ih =>
    cases index with
    | zero => exact later
    | succ index => exact .cons here (ih index)

theorem forall₂_modify {matched : β → γ → Prop} {items : List β} {others : List γ}
    (all : List.Forall₂ matched items others) {index : Nat} {other : γ}
    (known : others[index]? = some other) {change : γ → γ}
    (kept : ∀ item, matched item other → matched item (change other)) :
    List.Forall₂ matched items (others.modify index change) := by
  induction all generalizing index with
  | nil => cases known
  | cons here later ih =>
    cases index with
    | zero =>
      cases known
      exact .cons (kept _ here) later
    | succ index => exact .cons here (ih known)

/-- What matches the elements of one list matches those of a list that agrees with it. -/
theorem forall₂_trans {matched : β → γ → Prop} {agree : γ → γ → Prop} {items : List β}
    {others replaced : List γ} (all : List.Forall₂ matched items others)
    (agreed : List.Forall₂ agree replaced others)
    (kept : ∀ item new old, agree new old → matched item old → matched item new) :
    List.Forall₂ matched items replaced := by
  induction all generalizing replaced with
  | nil =>
    cases agreed
    exact .nil
  | cons here later ih =>
    cases agreed with
    | cons same rest => exact .cons (kept _ _ _ same here) (ih rest)

/-- An antisymmetric relation is antisymmetric place by place. -/
theorem forall₂_antisymm {order : β → β → Prop} {first second : List β}
    (inner : List.Forall₂ order first second) (outer : List.Forall₂ order second first)
    (antisymm : ∀ x y, order x y → order y x → x = y) : first = second := by
  induction inner with
  | nil => rfl
  | cons head _ ih =>
    cases outer with
    | cons back rest => rw [antisymm _ _ head back, ih rest]

/-- The elements of a list match what their positions hold. -/
theorem forall₂_range (items : List β) :
    List.Forall₂ (fun position item => items[position]? = some item)
      (List.range items.length) items := by
  refine List.forall₂_iff_get.mpr ⟨List.length_range, fun position _ inside => ?_⟩
  simp

/-! ### Folds -/

/-- A view that each step of a fold keeps is kept by the fold. -/
theorem foldl_keeps (view : σ → γ) {step : σ → β → σ}
    (kept : ∀ state item, view (step state item) = view state) (items : List β) (start : σ) :
    view (items.foldl step start) = view start := by
  induction items generalizing start with
  | nil => rfl
  | cons item items ih => rw [List.foldl_cons, ih, kept]

/-- One step moves past a block of steps. -/
theorem foldl_slide {step : β → γ → β} (good : β → Prop) {first : γ} {later : List γ}
    (kept : ∀ state, ∀ item ∈ later, good state → good (step state item))
    (commute : ∀ state, good state → ∀ second ∈ later,
      step (step state first) second = step (step state second) first)
    {state : β} (begins : good state) :
    later.foldl step (step state first) = step (later.foldl step state) first := by
  induction later generalizing state with
  | nil => rfl
  | cons second later ih =>
    have here : second ∈ second :: later := List.mem_cons_self ..
    rw [List.foldl_cons, List.foldl_cons, commute state begins second here]
    exact ih (fun state item inside => kept state item (List.mem_cons_of_mem _ inside))
      (fun state held item inside => commute state held item (List.mem_cons_of_mem _ inside))
      (kept state second here begins)

/-- Two blocks of steps change places if each step of one does with each step of the other, in
every state that the steps can lead to. -/
theorem foldl_exchange {step : β → γ → β} (good : β → Prop) {one other : List γ}
    (kept : ∀ state, ∀ item ∈ one ++ other, good state → good (step state item))
    (commute : ∀ state, good state → ∀ first ∈ one, ∀ second ∈ other,
      step (step state first) second = step (step state second) first)
    {state : β} (begins : good state) :
    (one ++ other).foldl step state = (other ++ one).foldl step state := by
  induction one generalizing state with
  | nil => rw [List.nil_append, List.append_nil]
  | cons first one ih =>
    have member : first ∈ first :: one := List.mem_cons_self ..
    calc
      _ = (one ++ other).foldl step (step state first) := rfl
      _ = (other ++ one).foldl step (step state first) :=
        ih (fun state item inside => kept state item (List.mem_cons_of_mem _ inside))
          (fun state held item inside => commute state held item (List.mem_cons_of_mem _ inside))
          (kept state first (List.mem_append_left _ member) begins)
      _ = one.foldl step (other.foldl step (step state first)) := List.foldl_append ..
      _ = one.foldl step (step (other.foldl step state) first) := by
        rw [foldl_slide good
          (fun state item inside => kept state item (List.mem_append_right _ inside))
          (fun state held => commute state held first member) begins]
      _ = _ := by rw [List.foldl_append, List.foldl_cons]

end MixedInteger
