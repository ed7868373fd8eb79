import Mathlib.Data.List.Forall2

/-!
Results that may be failures: a sequence of steps succeeds exactly when each of its steps does.
-/

namespace GaslessRelay.Outcome

variable {ε ε' α β : Type}

@[simp] theorem ok_bind (value : α) (next : α → Except ε β) :
    (Except.ok value >>= next) = next value := rfl

@[simp] theorem error_bind (error : ε) (next : α → Except ε β) :
    (Except.error error >>= next) = .error error := rfl

@[simp] theorem map_ok (change : α → β) (value : α) :
    change <$> (Except.ok value : Except ε α) = .ok (change value) := rfl

@[simp] theorem map_error (change : α → β) (error : ε) :
    change <$> (Except.error error : Except ε α) = .error error := rfl

@[simp] theorem pure_eq_ok (value : α) : (pure value : Except ε α) = .ok value := rfl

theorem bind_eq_ok {step : Except ε α} {next : α → Except ε β} {result : β} :
    (step >>= next) = .ok result ↔ ∃ value, step = .ok value ∧ next value = .ok result := by
  cases step with
  | ok value => simp
  | error error => simp

theorem map_eq_ok {change : α → β} {step : Except ε α} {result : β} :
    change <$> step = .ok result ↔ ∃ value, step = .ok value ∧ change value = result := by
  cases step with
  | ok value => simp
  | error error => simp

theorem map_eq_error {change : α → β} {step : Except ε α} {error : ε} :
    change <$> step = .error error ↔ step = .error error := by
  cases step with
  | ok value => simp
  | error other => simp

theorem check_eq_ok {condition : Prop} [Decidable condition] {error : ε} {value result : α} :
    (if condition then pure value else .error error : Except ε α) = .ok result ↔
      condition ∧ result = value := by
  by_cases holds : condition
  · simp [holds, eq_comm]
  · simp [holds]

theorem mapError_eq_ok {change : ε → ε'} {step : Except ε α} {value : α} :
    step.mapError change = .ok value ↔ step = .ok value := by
  cases step with
  | ok other =>
    constructor
    · intro same
      cases same
      rfl
    · intro same
      cases same
      rfl
  | error error =>
    constructor
    · intro same
      cases same
    · intro same
      cases same

theorem mapError_eq_error {change : ε → ε'} {step : Except ε α} {error : ε'} :
    step.mapError change = .error error ↔ ∃ cause, step = .error cause ∧ change cause = error := by
  cases step with
  | ok value =>
    constructor
    · intro same
      cases same
    · rintro ⟨cause, same, -⟩
      cases same
  | error cause =>
    constructor
    · intro same
      exact ⟨cause, rfl, Except.error.inj same⟩
    · rintro ⟨other, same, changed⟩
      cases same
      exact congrArg Except.error changed

theorem mapError_bind {change : ε → ε'} {step : Except ε α} {next : α → Except ε β} :
    (step >>= next).mapError change
      = step.mapError change >>= fun value => (next value).mapError change := by
  cases step with
  | ok value => rfl
  | error error => rfl

theorem mapError_map {change : ε → ε'} {step : Except ε α} {view : α → β} :
    (view <$> step).mapError change = view <$> step.mapError change := by
  cases step with
  | ok value => rfl
  | error error => rfl

theorem toOption_eq_some {result : Except ε α} {value : α} :
    result.toOption = some value ↔ result = .ok value := by
  cases result with
  | ok other => simp [Except.toOption]
  | error error => simp [Except.toOption]

theorem forM_eq_ok {items : List α} {step : α → Except ε Unit} :
    forM items step = .ok () ↔ ∀ item ∈ items, step item = .ok () := by
  induction items with
  | nil => simp
  | cons item rest ih =>
    rw [List.forM_cons, bind_eq_ok, List.forall_mem_cons, ← ih]
    exact ⟨fun ⟨_, first, others⟩ => ⟨first, others⟩, fun ⟨first, others⟩ => ⟨(), first, others⟩⟩

theorem mapM_eq_ok {items : List α} {step : α → Except ε β} {values : List β} :
    items.mapM step = .ok values ↔
      List.Forall₂ (fun item value => step item = .ok value) items values := by
  induction items generalizing values with
  | nil => simp [eq_comm]
  | cons item rest ih =>
    rw [List.mapM_cons, bind_eq_ok, List.forall₂_cons_left_iff]
    constructor
    · rintro ⟨first, ran, others⟩
      obtain ⟨later, ranLater, made⟩ := bind_eq_ok.1 others
      exact ⟨first, later, ran, ih.1 ranLater, (Except.ok.inj made).symm⟩
    · rintro ⟨first, later, ran, ranLater, rfl⟩
      exact ⟨first, ran, bind_eq_ok.2 ⟨later, ih.2 ranLater, rfl⟩⟩

/-- Steps that succeed just on what describes a shape succeed on what describes a list of shapes. -/
theorem mapM_eq_ok_of_each {γ : Type} {items : List α} {step : α → Except ε β}
    {shapes : α → γ → Prop} {view : γ → β}
    (each : ∀ item ∈ items, ∀ result, step item = .ok result ↔
      ∃ shape, shapes item shape ∧ view shape = result) {results : List β} :
    items.mapM step = .ok results ↔
      ∃ found, List.Forall₂ shapes items found ∧ found.map view = results := by
  induction items generalizing results with
  | nil => simp [eq_comm]
  | cons item rest ih =>
    have others (results : List β) := @ih
      (fun other member => each other (List.mem_cons_of_mem _ member)) results
    rw [mapM_eq_ok, List.forall₂_cons_left_iff]
    constructor
    · rintro ⟨result, later, ran, ranLater, rfl⟩
      obtain ⟨shape, described, rfl⟩ := (each item List.mem_cons_self result).1 ran
      obtain ⟨found, describes, rfl⟩ := (others later).1 (mapM_eq_ok.2 ranLater)
      exact ⟨shape :: found, .cons described describes, rfl⟩
    · rintro ⟨_, ⟨⟩ | @⟨_, shape, _, found, described, describes⟩, rfl⟩
      exact ⟨view shape, found.map view, (each item List.mem_cons_self _).2 ⟨shape, described, rfl⟩,
        mapM_eq_ok.1 ((others _).2 ⟨found, describes, rfl⟩), rfl⟩

theorem bind_isError {first : Except ε α} {next : α → Except ε β} :
    (∃ error, (first >>= next) = .error error) ↔ (∃ error, first = .error error) ∨
      ∃ value, first = .ok value ∧ ∃ error, next value = .error error := by
  cases first with
  | error error => simp
  | ok value => simp

theorem mapError_isError {change : ε → ε'} {result : Except ε α} :
    (∃ error, result.mapError change = .error error) ↔ ∃ error, result = .error error := by
  simp only [mapError_eq_error]
  constructor
  · rintro ⟨_, cause, failed, -⟩
    exact ⟨cause, failed⟩
  · rintro ⟨cause, failed⟩
    exact ⟨change cause, cause, failed, rfl⟩

/-- A sequence of steps fails when one of them does. -/
theorem mapM_isError {items : List α} {step : α → Except ε β} :
    (∃ error, items.mapM step = .error error) ↔
      ∃ item ∈ items, ∃ error, step item = .error error := by
  induction items with
  | nil => simp
  | cons item rest ih =>
    rw [List.mapM_cons, List.exists_mem_cons_iff, ← ih]
    cases step item with
    | error error => simp
    | ok value => simp [bind_isError]

end GaslessRelay.Outcome
