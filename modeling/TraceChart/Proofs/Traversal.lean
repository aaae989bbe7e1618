import Mathlib

/-!
Computations that stop at their first error, and traversals of lists by them: a traversal returns
exactly what its steps return one by one, and fails with the first step that fails.
-/

namespace TraceChart

variable {ε α β : Type}

@[simp] theorem pure_eq_ok (value : α) : (pure value : Except ε α) = .ok value := rfl

@[simp] theorem throw_eq_error (problem : ε) : (throw problem : Except ε α) = .error problem := rfl

@[simp] theorem ok_bind (value : α) (next : α → Except ε β) :
    (Except.ok value >>= next) = next value := rfl

@[simp] theorem error_bind (problem : ε) (next : α → Except ε β) :
    (Except.error problem >>= next) = .error problem := rfl

theorem bind_ok_iff (first : Except ε α) (next : α → Except ε β) (result : β) :
    (first >>= next) = .ok result ↔ ∃ value, first = .ok value ∧ next value = .ok result := by
  cases first <;> simp

theorem bind_error_iff (first : Except ε α) (next : α → Except ε β) (problem : ε) :
    (first >>= next) = .error problem ↔
      first = .error problem ∨ ∃ value, first = .ok value ∧ next value = .error problem := by
  cases first <;> simp

/-- A check returns no more than that it has passed. -/
theorem check_bind_ok_iff (check : Except ε Unit) (next : Unit → Except ε β) (result : β) :
    (check >>= next) = .ok result ↔ check = .ok () ∧ next () = .ok result := by
  cases check <;> simp

/-- What does not fail with any error returns. -/
theorem exists_ok_iff (computed : Except ε α) :
    (∃ value, computed = .ok value) ↔ ∀ problem, computed ≠ .error problem := by
  cases computed <;> simp

/-- Whether something returns can be found out without what it returns. -/
theorem exists_ok_iff_isOk (computed : Except ε α) :
    (∃ value, computed = .ok value) ↔ computed.isOk = true := by
  cases computed <;> simp [Except.isOk, Except.toBool]

theorem forall₂_exists {γ δ : Type} {related : γ → δ → Prop} {items : List γ} {others : List δ}
    (pairs : List.Forall₂ related items others) (item : γ) (member : item ∈ items) :
    ∃ other ∈ others, related item other := by
  induction pairs with
  | nil => cases member
  | cons first _ ih =>
    rcases List.mem_cons.mp member with rfl | member
    · exact ⟨_, List.mem_cons_self, first⟩
    · obtain ⟨other, included, found⟩ := ih member
      exact ⟨other, List.mem_cons_of_mem _ included, found⟩

theorem exists_forall₂ {γ δ : Type} {related : γ → δ → Prop} {items : List γ}
    (each : ∀ item ∈ items, ∃ other, related item other) :
    ∃ others, List.Forall₂ related items others := by
  induction items with
  | nil => exact ⟨[], .nil⟩
  | cons item items ih =>
    obtain ⟨found, rest⟩ := List.forall_mem_cons.mp each
    obtain ⟨other, first⟩ := found
    obtain ⟨others, pairs⟩ := ih rest
    exact ⟨other :: others, .cons first pairs⟩

/-- Two pairings of lists make one, through the list between them. -/
theorem forall₂_through {γ δ ζ : Type} {first : γ → δ → Prop} {second : δ → ζ → Prop}
    {items : List γ} {middle : List δ} {others : List ζ} (left : List.Forall₂ first items middle)
    (right : List.Forall₂ second middle others) :
    List.Forall₂ (fun item other => ∃ between, first item between ∧ second between other) items
      others := by
  induction left generalizing others with
  | nil =>
    cases right
    exact .nil
  | cons pair _ ih =>
    cases right with
    | cons next rest => exact .cons ⟨_, pair, next⟩ (ih rest)

theorem mapM_ok_iff (step : α → Except ε β) (items : List α) (results : List β) :
    items.mapM step = .ok results ↔
      List.Forall₂ (fun item result => step item = .ok result) items results := by
  induction items generalizing results with
  | nil => cases results <;> simp
  | cons item items ih =>
    simp only [List.mapM_cons, bind_ok_iff, ih, List.forall₂_cons_left_iff]
    constructor
    · rintro ⟨result, stepped, rest, traversed, returned⟩
      cases returned
      exact ⟨result, rest, stepped, traversed, rfl⟩
    · rintro ⟨result, rest, stepped, traversed, rfl⟩
      exact ⟨result, stepped, rest, traversed, rfl⟩

/-- Items that are stepped to the same are traversed to the same. -/
theorem mapM_congr_forall₂ {m : Type → Type} [Monad m] [LawfulMonad m] {γ : Type} {step : α → m β}
    {otherStep : γ → m β} {items : List α} {others : List γ}
    (same : List.Forall₂ (fun item other => step item = otherStep other) items others) :
    items.mapM step = others.mapM otherStep := by
  induction same with
  | nil => rfl
  | cons first _ ih => rw [List.mapM_cons, List.mapM_cons, first, ih]

/-- The results of steps that fail without an error. -/
theorem mapM_eq_some_iff (step : α → Option β) (items : List α) (results : List β) :
    items.mapM step = some results ↔
      List.Forall₂ (fun item result => step item = some result) items results := by
  induction items generalizing results with
  | nil => cases results <;> simp
  | cons item items ih =>
    simp only [List.mapM_cons, Option.bind_eq_bind, Option.bind_eq_some_iff, ih,
      List.forall₂_cons_left_iff]
    constructor
    · rintro ⟨result, stepped, rest, traversed, returned⟩
      cases returned
      exact ⟨result, rest, stepped, traversed, rfl⟩
    · rintro ⟨result, rest, stepped, traversed, rfl⟩
      exact ⟨result, stepped, rest, traversed, rfl⟩

/-- Nothing comes of a traversal with an item of which nothing comes. -/
theorem mapM_eq_none {step : α → Option β} {items : List α} {item : α} (member : item ∈ items)
    (nothing : step item = none) : items.mapM step = none := by
  refine Option.eq_none_iff_forall_ne_some.mpr fun results traversed => ?_
  obtain ⟨result, _, found⟩ :=
    forall₂_exists ((mapM_eq_some_iff step items results).mp traversed) item member
  rw [nothing] at found
  cases found

/-- A traversal by a step that decides a relation pairs the items with the results. -/
theorem mapM_eq_some_iff_of {step : α → Option β} {related : β → α → Prop}
    (decides : ∀ item result, step item = some result ↔ related result item) (items : List α)
    (results : List β) : items.mapM step = some results ↔ List.Forall₂ related results items := by
  rw [mapM_eq_some_iff]
  constructor
  · intro pairs
    exact List.Forall₂.flip (pairs.imp fun item result => (decides item result).mp)
  · intro pairs
    exact List.Forall₂.flip (pairs.imp fun result item => (decides item result).mpr)

/-- To look at each result is to look at the results of the traversal. -/
theorem mapM_view {γ : Type} (step : α → Except ε β) (view : β → γ) (items : List α) :
    items.mapM (fun item => step item >>= fun result => pure (view result)) =
      items.mapM step >>= fun results => pure (results.map view) := by
  induction items with
  | nil => rfl
  | cons item items ih =>
    rw [List.mapM_cons, List.mapM_cons, ih]
    cases step item with
    | error problem => rfl
    | ok result => cases items.mapM step <;> rfl

/-- The step at which a traversal fails: all before it return. -/
def FirstError (step : α → Except ε β) (items : List α) (problem : ε) : Prop :=
  ∃ before item after, items = before ++ item :: after ∧
    (∀ earlier ∈ before, ∃ result, step earlier = .ok result) ∧ step item = .error problem

private theorem firstError_cons_iff (step : α → Except ε β) (item : α) (items : List α)
    (problem : ε) : FirstError step (item :: items) problem ↔
      step item = .error problem ∨
        (∃ result, step item = .ok result) ∧ FirstError step items problem := by
  constructor
  · rintro ⟨before, failing, after, split, returned, failed⟩
    -- Either nothing stands before the step that fails, or the first step is one that returns.
    cases before with
    | nil =>
      obtain ⟨rfl, rfl⟩ := List.cons.inj split
      exact Or.inl failed
    | cons first before =>
      obtain ⟨rfl, rfl⟩ := List.cons.inj split
      have rest := fun earlier member => returned earlier (List.mem_cons_of_mem _ member)
      exact Or.inr ⟨returned item List.mem_cons_self, before, failing, after, rfl, rest, failed⟩
  · rintro (failed | ⟨first, before, failing, after, rfl, returned, failed⟩)
    · exact ⟨[], item, items, rfl, by simp, failed⟩
    · refine ⟨item :: before, failing, after, rfl, ?_, failed⟩
      intro earlier member
      rcases List.mem_cons.mp member with rfl | member
      · exact first
      · exact returned earlier member

theorem mapM_error_iff (step : α → Except ε β) (items : List α) (problem : ε) :
    items.mapM step = .error problem ↔ FirstError step items problem := by
  induction items with
  | nil => simp [FirstError]
  | cons item items ih =>
    simp only [List.mapM_cons, bind_error_iff, firstError_cons_iff, ← ih]
    constructor
    · rintro (failed | ⟨result, stepped, failed | ⟨rest, _, returned⟩⟩)
      · exact Or.inl failed
      · exact Or.inr ⟨⟨result, stepped⟩, failed⟩
      · cases returned
    · rintro (failed | ⟨⟨result, stepped⟩, failed⟩)
      · exact Or.inl failed
      · exact Or.inr ⟨result, stepped, Or.inl failed⟩

/-- A traversal returns where all its steps do. -/
theorem exists_mapM_ok {step : α → Except ε β} {items : List α}
    (returns : ∀ item ∈ items, ∃ result, step item = .ok result) :
    ∃ results, items.mapM step = .ok results := by
  rw [exists_ok_iff]
  intro problem failed
  obtain ⟨before, item, after, rfl, _, failing⟩ := (mapM_error_iff _ _ _).mp failed
  obtain ⟨result, stepped⟩ := returns item (by simp)
  rw [stepped] at failing
  cases failing

/-- A run returns, and keeps what its steps keep, where each of its steps does. -/
theorem exists_foldlM_ok {γ : Type} {step : γ → α → Except ε γ} {kept : γ → Prop} {items : List α}
    (each : ∀ state, kept state → ∀ item ∈ items, ∃ next, step state item = .ok next ∧ kept next)
    {state : γ} (before : kept state) :
    ∃ last, items.foldlM step state = .ok last ∧ kept last := by
  induction items generalizing state with
  | nil => exact ⟨state, rfl, before⟩
  | cons item items ih =>
    obtain ⟨next, stepped, after⟩ := each state before item List.mem_cons_self
    obtain ⟨last, returned, ends⟩ :=
      ih (fun state holds later member =>
        each state holds later (List.mem_cons_of_mem _ member)) after
    exact ⟨last, by rw [List.foldlM_cons, stepped, ok_bind, returned], ends⟩

end TraceChart
