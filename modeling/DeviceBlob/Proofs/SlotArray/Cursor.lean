import DeviceBlob.Proofs.SlotArray

/-!
# Walking through an array that changes

A cursor is a position, and the array may change between two steps of it: an `Iteration` is the array
with the position, and its steps are those of the cursor and the operations on the array, in any
order.  The position never goes back, and each slot that it passes is passed in one step
(`exists_passing`).  That step returns the slot exactly if it holds an element at that moment
(`returns_iff`); what the slot held before or holds afterwards does not count.  Main statement:
`visited_of_cursor`.
-/

namespace DeviceBlob.SlotArray

/-- An array and a position in it. -/
structure Iteration where
  /-- The array as it is now. -/
  array : SlotArray
  /-- The first slot that the cursor has not passed. -/
  position : Nat

/-- Something that happens to an array or to the cursor in it. -/
inductive Iteration.Step where
  | advance
  | change (operation : Operation)

/-- A new cursor in an array. -/
def cursor (array : SlotArray) : Iteration := ⟨array, 0⟩

variable {array : SlotArray} {slot other position : Nat}

/-! ### One step of the cursor -/

/-- The next step returns the first slot from the position on that holds an element and goes behind
it, or it goes to the end since there is none. -/
theorem advance_cases (array : SlotArray) (position : Nat) :
    (∃ slot, array.advance position = (some slot, slot + 1) ∧ position ≤ slot ∧
      array.isPresent slot = true ∧
      ∀ other, position ≤ other → other < slot → array.isPresent other = false) ∨
    (array.advance position = (none, max position array.capacity) ∧
      ∀ other, position ≤ other → array.isPresent other = false) := by
  unfold advance
  split
  · next slot found =>
    obtain ⟨here, inside, first⟩ := List.find?_range'_eq_some.1 found
    refine Or.inl ⟨slot, rfl, (List.mem_range'_1.1 inside).1, here, ?_⟩
    intro other behind before
    simpa using first other behind before
  · next missing =>
    refine Or.inr ⟨rfl, ?_⟩
    intro other behind
    rw [← Bool.not_eq_true]
    intro here
    obtain ⟨inside, -⟩ := isPresent_iff.1 here
    exact List.find?_eq_none.1 missing other (List.mem_range'_1.2 (by omega)) here

/-- A step returns a slot exactly if that is the first from the position on with an element. -/
theorem advance_eq_some_iff {next : Nat} : array.advance position = (some slot, next) ↔
    (position ≤ slot ∧ array.isPresent slot = true ∧
      ∀ other, position ≤ other → other < slot → array.isPresent other = false) ∧
    next = slot + 1 := by
  constructor
  · intro returned
    obtain ⟨slot, same, here⟩ | ⟨same, -⟩ := advance_cases array position
    · cases same.symm.trans returned
      exact ⟨here, rfl⟩
    · cases same.symm.trans returned
  · rintro ⟨⟨behind, here, first⟩, rfl⟩
    obtain ⟨found, same, from_there, present, least⟩ | ⟨-, none⟩ := advance_cases array position
    · rcases Nat.lt_trichotomy found slot with before | rfl | after
      · rw [first found from_there before] at present
        cases present
      · exact same
      · rw [least slot behind after] at here
        cases here
    · rw [none slot behind] at here
      cases here

/-- A step returns no slot exactly if no slot from the position on holds an element. -/
theorem advance_eq_none_iff {next : Nat} : array.advance position = (none, next) ↔
    (∀ other, position ≤ other → array.isPresent other = false) ∧
    next = max position array.capacity := by
  obtain ⟨slot, same, behind, here, -⟩ | ⟨same, none⟩ := advance_cases array position
  · rw [same]
    constructor
    · intro returned
      cases returned
    · rintro ⟨none, -⟩
      rw [none slot behind] at here
      cases here
  · rw [same, Prod.mk.injEq]
    constructor
    · rintro ⟨-, rfl⟩
      exact ⟨none, rfl⟩
    · rintro ⟨-, rfl⟩
      exact ⟨rfl, rfl⟩

/-- An operation leaves as many slots as there were, on whatever array it is done. -/
theorem capacity_perform (array : SlotArray) (operation : Operation) :
    (array.perform operation).2.capacity = array.capacity := by
  refine perform_induction (motive := fun after => after.capacity = array.capacity)
    ?_ ?_ ?_ id id ?_ rfl operation
  · intro before slot tree after same inserted
    obtain ⟨-, content, -, rfl⟩ := writeSlot_eq_ok_iff.1 inserted
    exact same
  · intro before slot here after same removed
    obtain ⟨-, ⟨-, rfl⟩ | ⟨-, rfl⟩⟩ := remove_eq_ok removed
    · exact same
    · exact same
  · intro before slot after same claimed
    obtain ⟨-, rfl⟩ := nextSlot_eq_ok_iff.1 claimed
    exact same
  · intro before same
    unfold reconcile
    simp only
    split <;> exact same

namespace Iteration

/-- What a step returns if it is one of the cursor, and what is there afterwards. -/
def step (iteration : Iteration) : Step → Option Nat × Iteration
  | .advance =>
    let found := iteration.array.advance iteration.position
    (found.1, ⟨iteration.array, found.2⟩)
  | .change operation => (none, ⟨(iteration.array.perform operation).2, iteration.position⟩)

/-- What is there after steps one behind the other. -/
def after (iteration : Iteration) (steps : List Step) : Iteration :=
  steps.foldl (fun iteration step => (iteration.step step).2) iteration

/-- The slots that steps one behind the other return. -/
def visited (iteration : Iteration) : List Step → List Nat
  | [] => []
  | step :: rest => (iteration.step step).1.toList ++ (iteration.step step).2.visited rest

variable {iteration : Iteration} {step : Step} {steps : List Step}

/-- Without steps an iteration is where it was. -/
@[simp] theorem after_nil (iteration : Iteration) : iteration.after [] = iteration := rfl

/-- A run of steps starts with the first of them. -/
@[simp] theorem after_cons (iteration : Iteration) (step : Step) (rest : List Step) :
    iteration.after (step :: rest) = (iteration.step step).2.after rest := rfl

/-- Two runs of steps are taken one after the other. -/
@[simp] theorem after_append (iteration : Iteration) (before later : List Step) :
    iteration.after (before ++ later) = (iteration.after before).after later :=
  List.foldl_append

/-- What two runs visit is what the first visits and then the second from there. -/
theorem visited_append (later : List Step) : ∀ (before : List Step) (iteration : Iteration),
    iteration.visited (before ++ later) =
      iteration.visited before ++ (iteration.after before).visited later
  | [], _ => rfl
  | step :: rest, iteration => by
    rw [List.cons_append, visited, visited, visited_append later rest, List.append_assoc, after_cons]

/-! ### What a step passes -/

/-- The position never goes back. -/
theorem position_le_step (iteration : Iteration) : ∀ step : Step,
    iteration.position ≤ (iteration.step step).2.position
  | .advance => by
    obtain ⟨slot, same, behind, -⟩ | ⟨same, -⟩ := advance_cases iteration.array iteration.position
    · simp only [step, same]
      omega
    · simp only [step, same]
      omega
  | .change _ => Nat.le_refl _

/-- A step that returns a slot goes just behind it. -/
theorem bounds_of_step (returned : (iteration.step step).1 = some slot) :
    iteration.position ≤ slot ∧ (iteration.step step).2.position = slot + 1 := by
  cases step with
  | advance =>
    have found : iteration.array.advance iteration.position =
        (some slot, (iteration.step .advance).2.position) := Prod.ext returned rfl
    obtain ⟨⟨behind, -, -⟩, next⟩ := advance_eq_some_iff.1 found
    exact ⟨behind, next⟩
  | change operation => cases returned

/-- The step that passes a slot is one of the cursor, and it returns the slot exactly if the slot
holds an element at that moment. -/
theorem returns_iff (ahead : iteration.position ≤ slot)
    (passed : slot < (iteration.step step).2.position) :
    step = .advance ∧
      ((iteration.step step).1 = some slot ↔ iteration.array.isPresent slot = true) := by
  cases step with
  | advance =>
    refine ⟨rfl, ?_⟩
    obtain ⟨found, same, -, here, first⟩ | ⟨same, none⟩ :=
      advance_cases iteration.array iteration.position
    · simp only [Iteration.step, same] at passed ⊢
      rw [Option.some.injEq]
      constructor
      · rintro rfl
        exact here
      · intro present
        rcases Nat.lt_or_eq_of_le (Nat.le_of_lt_succ passed) with before | rfl
        · rw [first slot ahead before] at present
          cases present
        · rfl
    · simp [Iteration.step, same, none slot ahead]
  | change operation => exact absurd passed (Nat.not_lt.2 ahead)

/-- No step changes the number of slots, and the position stays among them. -/
theorem step_inside (iteration : Iteration) (inside : iteration.position ≤ iteration.array.capacity) :
    ∀ step : Step, (iteration.step step).2.array.capacity = iteration.array.capacity ∧
      (iteration.step step).2.position ≤ iteration.array.capacity
  | .advance => by
    refine ⟨rfl, ?_⟩
    obtain ⟨slot, same, -, here, -⟩ | ⟨same, -⟩ :=
      advance_cases iteration.array iteration.position
    · obtain ⟨bound, -⟩ := isPresent_iff.1 here
      simp only [step, same]
      omega
    · simp only [step, same]
      omega
  | .change operation => ⟨capacity_perform iteration.array operation, inside⟩

/-! ### What a run passes -/

/-- A cursor never goes back. -/
theorem position_le_after : ∀ (steps : List Step) (iteration : Iteration),
    iteration.position ≤ (iteration.after steps).position
  | [], _ => Nat.le_refl _
  | step :: rest, iteration =>
    Nat.le_trans (iteration.position_le_step step) (position_le_after rest _)

/-- The capacity stays, and the cursor inside of it. -/
theorem after_inside : ∀ (steps : List Step) (iteration : Iteration),
    iteration.position ≤ iteration.array.capacity →
      (iteration.after steps).array.capacity = iteration.array.capacity ∧
      (iteration.after steps).position ≤ iteration.array.capacity
  | [], _, inside => ⟨rfl, inside⟩
  | step :: rest, iteration, inside => by
    obtain ⟨same, next⟩ := iteration.step_inside inside step
    have last := after_inside rest (iteration.step step).2 (same ▸ next)
    rwa [same] at last

/-- Only slots that are passed are returned. -/
theorem bounds_of_mem_visited : ∀ {steps : List Step} {iteration : Iteration},
    slot ∈ iteration.visited steps →
      iteration.position ≤ slot ∧ slot < (iteration.after steps).position
  | step :: rest, iteration, mem => by
    rcases List.mem_append.1 mem with now | later
    · obtain ⟨ahead, next⟩ := bounds_of_step (Option.mem_toList.1 now)
      have onward := position_le_after rest (iteration.step step).2
      rw [after_cons]
      omega
    · obtain ⟨ahead, passed⟩ := bounds_of_mem_visited later
      exact ⟨Nat.le_trans (iteration.position_le_step step) ahead, passed⟩

/-- The slots that are returned get greater and greater. -/
theorem pairwise_visited : ∀ (steps : List Step) (iteration : Iteration),
    (iteration.visited steps).Pairwise (· < ·)
  | [], _ => .nil
  | step :: rest, iteration => by
    refine List.pairwise_append.2 ⟨?_, pairwise_visited rest _, ?_⟩
    · cases (iteration.step step).1 with
      | none => exact .nil
      | some slot => exact List.pairwise_singleton _ slot
    · intro slot now other later
      obtain ⟨-, next⟩ := bounds_of_step (Option.mem_toList.1 now)
      obtain ⟨behind, -⟩ := bounds_of_mem_visited later
      omega

/-- A slot that is passed is passed by one step of the cursor, and it is returned exactly if it holds
an element at that moment. -/
theorem exists_passing : ∀ {steps : List Step} {iteration : Iteration},
    iteration.position ≤ slot → slot < (iteration.after steps).position →
      ∃ before later, steps = before ++ .advance :: later ∧
        (iteration.after before).position ≤ slot ∧
        slot < (iteration.after (before ++ [.advance])).position ∧
        (slot ∈ iteration.visited steps ↔ (iteration.after before).array.isPresent slot = true)
  | [], iteration, ahead, passed => absurd passed (Nat.not_lt.2 ahead)
  | step :: rest, iteration, ahead, passed => by
    rw [visited, List.mem_append, Option.mem_toList]
    -- The first step passes the slot, or the slot is still ahead for the others.
    by_cases now : slot < (iteration.step step).2.position
    · obtain ⟨rfl, returned⟩ := returns_iff ahead now
      refine ⟨[], rest, rfl, ahead, now, ?_⟩
      have later : slot ∉ (iteration.step .advance).2.visited rest := fun mem =>
        absurd (bounds_of_mem_visited mem).1 (Nat.not_le.2 now)
      simp only [later, or_false, returned, after_nil]
    · obtain ⟨before, later, rfl, still, next, returned⟩ :=
        exists_passing (Nat.le_of_not_lt now) passed
      refine ⟨step :: before, later, rfl, still, next, ?_⟩
      have before : (iteration.step step).1 ≠ some slot := by
        intro here
        obtain ⟨-, behind⟩ := bounds_of_step here
        omega
      simp only [before, false_or, returned, after_cons]

/-- What a slot is from a moment on, until it is passed, decides whether it is returned. -/
theorem mem_visited_iff {before later : List Step} {here : Bool}
    (ahead : (iteration.after before).position ≤ slot)
    (steady : ∀ front, front <+: later → (iteration.after (before ++ front)).position ≤ slot →
      (iteration.after (before ++ front)).array.isPresent slot = here) :
    slot ∈ iteration.visited (before ++ later) ↔
      here = true ∧ slot < (iteration.after (before ++ later)).position := by
  have earlier : slot ∉ iteration.visited before := fun mem =>
    absurd (bounds_of_mem_visited mem).2 (Nat.not_lt.2 ahead)
  rw [visited_append, List.mem_append, after_append]
  simp only [earlier, false_or]
  simp only [after_append] at steady
  by_cases passed : slot < ((iteration.after before).after later).position
  · obtain ⟨front, back, rfl, still, -, returned⟩ := exists_passing ahead passed
    rw [returned, steady front (List.prefix_append _ _) still]
    exact (and_iff_left passed).symm
  · have not_yet : slot ∉ (iteration.after before).visited later := fun mem =>
      passed (bounds_of_mem_visited mem).2
    simp [not_yet, passed]

/-- **What a cursor returns while the array changes.**  At every moment the next step returns the
least slot from the position on that holds an element then, and goes just behind it, or it returns
none and goes to the end.  So the slots that are returned get greater and greater, and a slot is
returned exactly if it holds an element when the cursor passes it.  A slot that is empty from some
moment on until the cursor passes it is not returned; a slot that holds an element from some moment
on until then is returned exactly once, when it is passed. -/
theorem visited_of_cursor (array : SlotArray) (steps : List Step) :
    (∃ now, now = array.cursor.after steps ∧ now.array.capacity = array.capacity ∧
      now.position ≤ array.capacity ∧
      (∀ slot next, now.array.advance now.position = (some slot, next) ↔
        (now.position ≤ slot ∧ now.array.isPresent slot = true ∧
          ∀ other, now.position ≤ other → other < slot → now.array.isPresent other = false) ∧
        next = slot + 1) ∧
      (∀ next, now.array.advance now.position = (none, next) ↔
        (∀ other, now.position ≤ other → now.array.isPresent other = false) ∧
        next = array.capacity)) ∧
    (array.cursor.visited steps).Pairwise (· < ·) ∧
    (∀ slot, slot < (array.cursor.after steps).position → ∃ before later,
      steps = before ++ .advance :: later ∧
      (array.cursor.after before).position ≤ slot ∧
      slot < (array.cursor.after (before ++ [.advance])).position ∧
      (slot ∈ array.cursor.visited steps ↔
        (array.cursor.after before).array.isPresent slot = true)) ∧
    ∀ before later slot, steps = before ++ later → (array.cursor.after before).position ≤ slot →
      ((∀ front, front <+: later → (array.cursor.after (before ++ front)).position ≤ slot →
          (array.cursor.after (before ++ front)).array.isPresent slot = false) →
        slot ∉ array.cursor.visited steps) ∧
      ((∀ front, front <+: later → (array.cursor.after (before ++ front)).position ≤ slot →
          (array.cursor.after (before ++ front)).array.isPresent slot = true) →
        (array.cursor.visited steps).count slot =
          if slot < (array.cursor.after steps).position then 1 else 0) := by
  obtain ⟨same, inside⟩ := after_inside steps array.cursor (Nat.zero_le _)
  have increasing := pairwise_visited steps array.cursor
  refine ⟨⟨_, rfl, same, inside, fun _ _ => advance_eq_some_iff, ?_⟩, increasing,
    fun slot passed => exists_passing (Nat.zero_le slot) passed, ?_⟩
  · intro next
    rw [advance_eq_none_iff, same, Nat.max_eq_right inside]
    rfl
  · rintro before later slot rfl ahead
    constructor
    · intro empty mem
      obtain ⟨here, -⟩ := (mem_visited_iff ahead empty).1 mem
      cases here
    · intro steady
      have returned := mem_visited_iff ahead steady
      split
      · next passed =>
        exact List.count_eq_one_of_mem (increasing.imp Nat.ne_of_lt) (returned.2 ⟨rfl, passed⟩)
      · next ahead =>
        exact List.count_eq_zero.2 fun mem => ahead (returned.1 mem).2

/-- Two particles are claimed; the first is released and claimed again behind the cursor, which
returned it before. -/
def detour : List Step :=
  [.change .nextSlot, .change .nextSlot] ++
    [.advance, .change (.remove 0), .change .nextSlot, .advance, .advance]

/-- The second of two particles is there until the cursor passes it, so it is returned once; the
first is not returned again. -/
theorem visited_of_cursor_particles :
    (twoParticles.cursor.visited detour).count 1 = 1 ∧
      twoParticles.cursor.visited detour = [0, 1] ∧
      (twoParticles.cursor.after detour).array.isPresent 0 = true ∧
      (twoParticles.cursor.after detour).array.advance 2 = (none, 2) := by
  obtain ⟨⟨_, rfl, -, -, -, ends⟩, -, -, steadily⟩ := visited_of_cursor twoParticles detour
  obtain ⟨-, once⟩ := steadily [.change .nextSlot, .change .nextSlot] _ 1 rfl (Nat.zero_le 1)
  have there : ∀ front ∈ List.inits (detour.drop 2),
      (twoParticles.cursor.after (detour.take 2 ++ front)).array.isPresent 1 = true := by decide
  refine ⟨once ?_, rfl, rfl, (ends 2).2 ⟨?_, rfl⟩⟩
  · intro front mem _
    exact there front ((List.mem_inits _ _).2 mem)
  · intro other beyond
    rw [← Bool.not_eq_true, isPresent_iff]
    exact fun here => absurd here.1 (Nat.not_lt.2 beyond)

end Iteration

end DeviceBlob.SlotArray
