import Mathlib.Data.List.Forall2

/-!
# Outcomes of steps that can fail

An operation of this library either gives a result or says in an error why it does not.  The
statements here take a chain of such steps apart: a chain succeeds exactly if all of its steps do,
and it fails with the error of the first step that fails.
-/

namespace DeviceBlob

variable {ε α β : Type}

/-- Two steps succeed exactly if the first does and the second does on its result. -/
theorem bind_eq_ok {x : Except ε α} {f : α → Except ε β} {b : β} :
    (x >>= f) = .ok b ↔ ∃ a, x = .ok a ∧ f a = .ok b := by
  cases x <;> simp [bind, Except.bind]

/-- Two steps fail exactly if the first does, or if the second does on its result. -/
theorem bind_eq_error {x : Except ε α} {f : α → Except ε β} {e : ε} :
    (x >>= f) = .error e ↔ x = .error e ∨ ∃ a, x = .ok a ∧ f a = .error e := by
  cases x <;> simp [bind, Except.bind]

/-- A value is its own result. -/
theorem pure_eq_ok {a b : α} : (pure a : Except ε α) = .ok b ↔ a = b := by
  simp [pure, Except.pure]

/-- What is seen of a result says that there is one. -/
theorem map_eq_ok {x : Except ε α} {f : α → β} {b : β} :
    x.map f = .ok b ↔ ∃ a, x = .ok a ∧ f a = b := by
  cases x <;> simp [Except.map]

/-- What is seen of a failure is the failure. -/
theorem map_eq_error {x : Except ε α} {f : α → β} {e : ε} :
    x.map f = .error e ↔ x = .error e := by
  cases x <;> simp [Except.map]

/-- After a step that succeeds the next one follows. -/
@[simp] theorem ok_bind (a : α) (f : α → Except ε β) : (Except.ok a >>= f) = f a := rfl

/-- After a step that fails none follows. -/
@[simp] theorem error_bind (e : ε) (f : α → Except ε β) : (Except.error e >>= f) = .error e := rfl

/-! ### Steps that keep a state -/

section State

variable {σ : Type} {step : ExceptT ε (StateM σ) α} {later : α → ExceptT ε (StateM σ) β}
  {state next : σ}

/-- The second of two steps starts in the state that the first one leaves. -/
theorem run_bind_of_ok {a : α} (h : step.run.run state = (.ok a, next)) :
    (step >>= later).run.run state = (later a).run.run next := by
  rw [ExceptT.run_bind, StateT.run_bind, h]
  rfl

/-- A step that fails keeps the state that it has reached. -/
theorem run_bind_of_error {e : ε} (h : step.run.run state = (.error e, next)) :
    (step >>= later).run.run state = (.error e, next) := by
  rw [ExceptT.run_bind, StateT.run_bind, h]
  rfl

end State

/-! ### Steps for the items of a list -/

/-- A step for each item of a list succeeds exactly if it succeeds for each of them. -/
theorem mapM_eq_ok {f : α → Except ε β} : ∀ {items : List α} {results : List β},
    items.mapM f = .ok results ↔ List.Forall₂ (fun a b => f a = .ok b) items results
  | [], results => by
    simp [pure, Except.pure, eq_comm]
  | a :: rest, results => by
    simp only [List.mapM_cons, bind_eq_ok, pure_eq_ok, List.forall₂_cons_left_iff]
    constructor
    · rintro ⟨b, here, others, there, rfl⟩
      exact ⟨b, others, here, mapM_eq_ok.1 there, rfl⟩
    · rintro ⟨b, others, here, there, rfl⟩
      exact ⟨b, here, others, mapM_eq_ok.2 there, rfl⟩

/-- A step for each item of a list fails with the error of the first item that it fails for. -/
theorem mapM_eq_error_iff {f : α → Except ε β} {e : ε} : ∀ {items : List α},
    items.mapM f = .error e ↔ ∃ front a back, items = front ++ a :: back ∧
      (∀ b ∈ front, ∃ result, f b = .ok result) ∧ f a = .error e
  | [] => by simp [pure, Except.pure]
  | first :: rest => by
    rw [List.mapM_cons, bind_eq_error]
    constructor
    · rintro (here | ⟨result, here, later⟩)
      · exact ⟨[], first, rest, rfl, by simp, here⟩
      · rw [bind_eq_error] at later
        obtain there | ⟨others, -, none⟩ := later
        · obtain ⟨front, a, back, rfl, fine, fails⟩ := mapM_eq_error_iff.1 there
          refine ⟨first :: front, a, back, rfl, ?_, fails⟩
          exact List.forall_mem_cons.2 ⟨⟨result, here⟩, fine⟩
        · cases none
    · rintro ⟨front, a, back, split, fine, fails⟩
      cases front with
      | nil =>
        cases split
        exact Or.inl fails
      | cons head front =>
        cases split
        obtain ⟨⟨result, here⟩, others⟩ := List.forall_mem_cons.1 fine
        refine Or.inr ⟨result, here, ?_⟩
        rw [bind_eq_error]
        exact Or.inl (mapM_eq_error_iff.2 ⟨front, a, back, rfl, others, fails⟩)

/-- A step that may give nothing gives results for a list exactly if it gives one for each item. -/
theorem mapM_eq_some_iff {f : α → Option β} : ∀ {items : List α} {results : List β},
    items.mapM f = some results ↔ List.Forall₂ (fun a b => f a = some b) items results
  | [], results => by
    simp [eq_comm]
  | a :: rest, results => by
    simp only [List.mapM_cons, Option.bind_eq_bind, Option.bind_eq_some_iff, Option.pure_def,
      Option.some.injEq, List.forall₂_cons_left_iff]
    constructor
    · rintro ⟨b, here, others, there, rfl⟩
      exact ⟨b, others, here, mapM_eq_some_iff.1 there, rfl⟩
    · rintro ⟨b, others, here, there, rfl⟩
      exact ⟨b, here, others, mapM_eq_some_iff.2 there, rfl⟩

/-- Where each item has a result there are results for all of them. -/
theorem mapM_eq_some {f : α → Option β} {g : α → β} {items : List α}
    (each : ∀ a ∈ items, f a = some (g a)) : items.mapM f = some (items.map g) := by
  rw [mapM_eq_some_iff, List.forall₂_map_right_iff, List.forall₂_same]
  exact each

/-- What was written item by item is read back item by item. -/
theorem mapM_map_eq_some {f : β → Option α} {g : α → β} {items : List α}
    (each : ∀ a ∈ items, f (g a) = some a) : (items.map g).mapM f = some items := by
  rw [mapM_eq_some_iff, List.forall₂_map_left_iff, List.forall₂_same]
  exact each

/-- In lists that are related one by one each item is related to one of the other list. -/
theorem exists_of_mem_left {r : α → β → Prop} : ∀ {items : List α} {results : List β},
    List.Forall₂ r items results → ∀ {a : α}, a ∈ items → ∃ b, b ∈ results ∧ r a b
  | _, _, .nil, _, mem => absurd mem List.not_mem_nil
  | _, _, .cons here others, _, mem => by
    rcases List.mem_cons.1 mem with rfl | mem
    · exact ⟨_, List.mem_cons_self, here⟩
    · obtain ⟨b, held, there⟩ := exists_of_mem_left others mem
      exact ⟨b, List.mem_cons_of_mem _ held, there⟩

/-- Each item of the other list is related to one of the first. -/
theorem exists_of_mem_right {r : α → β → Prop} {items : List α} {results : List β}
    (each : List.Forall₂ r items results) {b : β} (mem : b ∈ results) :
    ∃ a, a ∈ items ∧ r a b :=
  exists_of_mem_left each.flip mem

/-- Each item has a result. -/
theorem exists_of_mem_items {f : α → Except ε β} {items : List α} {results : List β}
    (h : items.mapM f = .ok results) {a : α} (mem : a ∈ items) :
    ∃ b, b ∈ results ∧ f a = .ok b :=
  exists_of_mem_left (mapM_eq_ok.1 h) mem

/-- Each result is that of an item. -/
theorem exists_of_mem_results {f : α → Except ε β} {items : List α} {results : List β}
    (h : items.mapM f = .ok results) {b : β} (mem : b ∈ results) :
    ∃ a, a ∈ items ∧ f a = .ok b :=
  exists_of_mem_right (mapM_eq_ok.1 h) mem

/-- Steps that all succeed succeed together. -/
theorem exists_mapM_eq_ok {f : α → Except ε β} : ∀ {items : List α},
    (∀ a ∈ items, ∃ b, f a = .ok b) → ∃ results, items.mapM f = .ok results
  | [], _ => ⟨[], rfl⟩
  | a :: rest, each => by
    obtain ⟨b, here⟩ := each a List.mem_cons_self
    obtain ⟨others, there⟩ :=
      exists_mapM_eq_ok fun other mem => each other (List.mem_cons_of_mem _ mem)
    refine ⟨b :: others, ?_⟩
    rw [List.mapM_cons, here, ok_bind, there]
    rfl

/-- Steps that are the same for all items of a list are the same for the list. -/
theorem mapM_congr {f g : α → Except ε β} : ∀ {items : List α},
    (∀ a ∈ items, f a = g a) → items.mapM f = items.mapM g
  | [], _ => rfl
  | a :: rest, same => by
    rw [List.mapM_cons, List.mapM_cons, same a List.mem_cons_self,
      mapM_congr fun other mem => same other (List.mem_cons_of_mem _ mem)]

/-- What every step keeps, a chain of steps over a list keeps. -/
theorem foldlM_invariant {f : β → α → Except ε β} (P : β → Prop) : ∀ {items : List α},
    (∀ b, ∀ a ∈ items, ∀ next, P b → f b a = .ok next → P next) → ∀ {b last : β}, P b →
      items.foldlM f b = .ok last → P last
  | [], _, b, last, start, h => by
    rw [List.foldlM_nil, pure_eq_ok] at h
    exact h ▸ start
  | a :: rest, step, b, last, start, h => by
    rw [List.foldlM_cons, bind_eq_ok] at h
    obtain ⟨next, here, there⟩ := h
    have kept := step b a List.mem_cons_self next start here
    exact foldlM_invariant P (fun b a mem => step b a (List.mem_cons_of_mem _ mem)) kept there

/-- A chain of steps that all leave things as they are leaves things as they are. -/
theorem foldlM_eq_self {f : β → α → Except ε β} {b : β} : ∀ {items : List α},
    (∀ a ∈ items, f b a = .ok b) → items.foldlM f b = .ok b
  | [], _ => rfl
  | a :: rest, each => by
    rw [List.foldlM_cons, each a List.mem_cons_self, ok_bind]
    exact foldlM_eq_self fun other mem => each other (List.mem_cons_of_mem _ mem)

/-- A chain of steps over a list fails with the error of one of them. -/
theorem exists_of_foldlM_eq_error {f : β → α → Except ε β} {e : ε} : ∀ {items : List α} {b : β},
    items.foldlM f b = .error e → ∃ a ∈ items, ∃ b, f b a = .error e
  | [], _, h => by simp [pure, Except.pure] at h
  | a :: rest, b, h => by
    rw [List.foldlM_cons, bind_eq_error] at h
    rcases h with here | ⟨next, -, there⟩
    · exact ⟨a, List.mem_cons_self, b, here⟩
    · obtain ⟨other, mem, c, fails⟩ := exists_of_foldlM_eq_error there
      exact ⟨other, List.mem_cons_of_mem _ mem, c, fails⟩

/-! ### Kinds of errors -/

/-- Whatever the attempt fails with is an error of the given kind. -/
def FailsOnly (kind : ε → Prop) (attempt : Except ε α) : Prop :=
  ∀ e, attempt = .error e → kind e

namespace FailsOnly

variable {kind other : ε → Prop}

/-- What succeeds does not fail. -/
theorem ok (a : α) : FailsOnly kind (.ok a : Except ε α) := by
  intro e failed
  cases failed

/-- What fails with an error of a kind fails with that kind only. -/
theorem error {e : ε} (h : kind e) : FailsOnly kind (.error e : Except ε α) := by
  intro e' failed
  cases failed
  exact h

/-- So it does with any wider kind. -/
theorem mono {attempt : Except ε α} (h : FailsOnly kind attempt)
    (wider : ∀ e, kind e → other e) : FailsOnly other attempt :=
  fun e failed => wider e (h e failed)

/-- Two steps fail with what one of them fails with. -/
theorem bind {attempt : Except ε α} {next : α → Except ε β}
    (first : FailsOnly kind attempt) (second : ∀ a, FailsOnly kind (next a)) :
    FailsOnly kind (attempt >>= next) := by
  intro e failed
  rcases bind_eq_error.1 failed with here | ⟨a, -, there⟩
  · exact first e here
  · exact second a e there

/-- A chain of steps over a list fails with what one of them fails with. -/
theorem foldlM {step : β → α → Except ε β} (each : ∀ b a, FailsOnly kind (step b a))
    (items : List α) (b : β) : FailsOnly kind (items.foldlM step b) := by
  intro e failed
  obtain ⟨a, -, c, here⟩ := exists_of_foldlM_eq_error failed
  exact each c a e here

end FailsOnly

/-! ### Two attempts with one outcome -/

/-- Both attempts give results that are related, or both fail with the same error. -/
def SameOutcome (r : α → β → Prop) : Except ε α → Except ε β → Prop
  | .ok a, .ok b => r a b
  | .error e, .error other => e = other
  | _, _ => False

namespace SameOutcome

variable {r : α → β → Prop} {x : Except ε α} {y : Except ε β}

/-- An attempt has the same outcome as itself. -/
theorem refl {r : α → α → Prop} (same : ∀ a, r a a) (x : Except ε α) : SameOutcome r x x := by
  cases x with
  | error e => exact rfl
  | ok a => exact same a

/-- Both attempts give results or both fail. -/
theorem elim (h : SameOutcome r x y) :
    (∃ a b, x = .ok a ∧ y = .ok b ∧ r a b) ∨ ∃ e, x = .error e ∧ y = .error e := by
  cases x with
  | error e =>
    cases y with
    | error other => exact Or.inr ⟨e, rfl, congrArg Except.error (Eq.symm h)⟩
    | ok b => exact h.elim
  | ok a =>
    cases y with
    | error other => exact h.elim
    | ok b => exact Or.inl ⟨a, b, rfl, rfl, h⟩

/-- Steps that have one outcome after another have one together. -/
theorem bind {γ δ : Type} {s : γ → δ → Prop} {f : α → Except ε γ} {g : β → Except ε δ}
    (first : SameOutcome r x y) (second : ∀ a b, r a b → SameOutcome s (f a) (g b)) :
    SameOutcome s (x >>= f) (y >>= g) := by
  rcases first.elim with ⟨a, b, rfl, rfl, related⟩ | ⟨e, rfl, rfl⟩
  · exact second a b related
  · exact rfl

/-- So has a chain of steps over a list. -/
theorem foldlM {γ : Type} {f : α → γ → Except ε α} {g : β → γ → Except ε β}
    (step : ∀ a b item, r a b → SameOutcome r (f a item) (g b item)) :
    ∀ (items : List γ) {a : α} {b : β}, r a b →
      SameOutcome r (items.foldlM f a) (items.foldlM g b)
  | [], _, _, related => related
  | item :: rest, a, b, related => by
    rw [List.foldlM_cons, List.foldlM_cons]
    exact (step a b item related).bind fun _ _ next => foldlM step rest next

end SameOutcome

end DeviceBlob
