import DeviceBlob.Proofs.Name
import DeviceBlob.VectorRun

/-!
# The vectors among the fields of a record

Fields are the components of a vector if they are scalars of one kind whose names have one stem and
name the components of one set in order, and the vector is `Maximal` if the field behind it does not
go on with it.  The vectors that are found are the maximal ones of at least two components
(`mem_ofFields_iff`), and no two of them end at the same field (`Maximal.eq_of_last`).

A field inside a vector is no first component, so no vector starts there (`startingAt?_inside`).
Hence vectors do not overlap (`pairwise_runsFrom`), and a scan that goes on behind each vector it
finds finds all of them (`runsFrom_eq_scanFrom`).
-/

namespace DeviceBlob

namespace Component

/-- Every set has four components. -/
theorem position_lt {name : String} {component : Component}
    (found : ofName? name = some component) : component.position < 4 := by
  have four : ∀ entry ∈ all, entry.2.2 < 4 := by decide
  obtain ⟨entry, mem, here⟩ := List.exists_of_findSome?_eq_some found
  obtain ⟨stem, -, rfl⟩ := Option.map_eq_some_iff.1 here
  exact four entry mem

/-! ### Names that end in a component -/

/-- The components are those of the sets, each with the set and position that it has there. -/
theorem mem_all_iff {component : String} {set position : Nat} :
    (component, set, position) ∈ all ↔
      ∃ names, sets[set]? = some names ∧ names[position]? = some component := by
  simp only [all, List.mem_flatMap, List.mem_map, Prod.exists, List.mem_zipIdx_iff_getElem?,
    Prod.mk.injEq]
  constructor
  · rintro ⟨names, _, here, _, _, there, rfl, rfl, rfl⟩
    exact ⟨names, here, there⟩
  · rintro ⟨names, here, there⟩
    exact ⟨names, set, here, component, position, there, rfl, rfl, rfl⟩

/-- A name has a stem for a component when it is the two joined. -/
theorem stem?_eq_some_iff {component name stem : String} :
    stem? component name = some stem ↔ name = Name.join stem component := by
  unfold stem?
  split
  · next bare =>
    subst bare
    constructor
    · rintro same
      cases same
      rfl
    · intro joined
      have empty : "" = stem := Name.join_right_cancel joined
      rw [empty]
  · next longer =>
    simp only [Option.bind_eq_some_iff, Text.beforeBack?_eq_some_iff]
    constructor
    · rintro ⟨letters, split, named⟩
      split at named
      · cases named
      · next nonempty =>
        obtain rfl := Option.some.inj named
        have named : String.ofList letters ≠ "" := by simpa using nonempty
        rw [← String.toList_inj, split, Name.toList_join named, String.toList_ofList]
    · rintro rfl
      have named : stem ≠ "" := by
        rintro rfl
        exact longer rfl
      refine ⟨stem.toList, Name.toList_join named component, ?_⟩
      rw [if_neg (by simpa using named), String.ofList_toList]

/-- No two components end in the same letter. -/
theorem eq_of_getLast?_eq : ∀ entry ∈ all, ∀ other ∈ all,
    entry.1.toList.getLast? = other.1.toList.getLast? → entry = other := by decide

/-- A name has a component if it is a component put under the stem. -/
theorem ofName?_eq_some_iff {name stem : String} {set position : Nat} :
    ofName? name = some ⟨stem, set, position⟩ ↔ ∃ names component, sets[set]? = some names ∧
      names[position]? = some component ∧ name = Name.join stem component := by
  have mem_all : (∃ names component, sets[set]? = some names ∧ names[position]? = some component ∧
      name = Name.join stem component) ↔
        ∃ component, (component, set, position) ∈ all ∧ name = Name.join stem component := by
    simp only [mem_all_iff]
    constructor
    · rintro ⟨names, component, here, there, joined⟩
      exact ⟨component, ⟨names, here, there⟩, joined⟩
    · rintro ⟨component, ⟨names, here, there⟩, joined⟩
      exact ⟨names, component, here, there, joined⟩
  -- The first entry that fits is the only one, since the last letter tells the entry.
  have found : ∀ {component : Component}, ofName? name = some component →
      ∃ text, (text, component.set, component.position) ∈ all ∧
        name = Name.join component.stem text := by
    intro component found
    obtain ⟨⟨text, _, _⟩, mem, here⟩ := List.exists_of_findSome?_eq_some found
    obtain ⟨_, taken, rfl⟩ := Option.map_eq_some_iff.1 here
    exact ⟨text, mem, stem?_eq_some_iff.1 taken⟩
  rw [mem_all]
  constructor
  · exact found
  · rintro ⟨text, mem, joined⟩
    have some : (ofName? name).isSome := by
      rw [ofName?, List.findSome?_isSome_iff]
      refine ⟨(text, set, position), mem, ?_⟩
      rw [Option.isSome_map, stem?_eq_some_iff.2 joined]
      rfl
    obtain ⟨⟨stem', set', position'⟩, first⟩ := Option.isSome_iff_exists.1 some
    obtain ⟨text', mem', joined'⟩ := found first
    have nonempty : ∀ entry ∈ all, entry.1 ≠ "" := by decide
    have last : text.toList.getLast? = text'.toList.getLast? := by
      rw [← Name.getLast?_toList_join (nonempty _ mem) stem,
        ← Name.getLast?_toList_join (nonempty _ mem') stem', ← joined, ← joined']
    cases eq_of_getLast?_eq _ mem _ mem' last
    rw [first, Name.join_right_cancel (joined.symm.trans joined')]

end Component

namespace VectorRun

variable {fields : List (String × DataType)} {kind : Scalar} {stem : String} {set : Nat}

/-- No set of components has more than four. -/
theorem position_lt {field : String × DataType} {component : Component}
    (found : component? field = some (kind, component)) : component.position < 4 := by
  unfold component? at found
  obtain ⟨_, -, found⟩ := Option.bind_eq_some_iff.1 found
  obtain ⟨_, named, same⟩ := Option.map_eq_some_iff.1 found
  cases same
  exact Component.position_lt named

/-- A field has a component if it is a scalar of that kind and named by the component. -/
theorem component?_eq_some_iff {field : String × DataType} {position : Nat} :
    component? field = some (kind, ⟨stem, set, position⟩) ↔ ∃ names component,
      Component.sets[set]? = some names ∧ names[position]? = some component ∧
        field = (Name.join stem component, .scalar kind) := by
  obtain ⟨name, type⟩ := field
  have scalar : type.scalar? = some kind ↔ type = .scalar kind := by
    cases type <;> simp [DataType.scalar?]
  simp only [component?, Option.bind_eq_some_iff, Option.map_eq_some_iff, Prod.mk.injEq]
  constructor
  · rintro ⟨_, number, _, named, rfl, rfl⟩
    obtain ⟨names, component, here, there, joined⟩ := Component.ofName?_eq_some_iff.1 named
    exact ⟨names, component, here, there, joined, scalar.1 number⟩
  · rintro ⟨names, component, here, there, joined, number⟩
    exact ⟨kind, scalar.2 number, _,
      Component.ofName?_eq_some_iff.2 ⟨names, component, here, there, joined⟩, rfl, rfl⟩

/-! ### Counting components -/

/-- The list starts with as many components of a vector as the length says, the first of which is
at the given position, and the field behind them is not the next one. -/
structure Counts (kind : Scalar) (stem : String) (set position : Nat)
    (fields : List (String × DataType)) (length : Nat) : Prop where
  /-- The components follow one another. -/
  components : ∀ i < length, ∃ field, fields[i]? = some field ∧
    component? field = some (kind, ⟨stem, set, position + i⟩)
  /-- There are no more of them. -/
  stops : ∀ field, fields[length]? = some field →
    component? field ≠ some (kind, ⟨stem, set, position + length⟩)

/-- There is one number of components. -/
theorem Counts.unique {position length other : Nat}
    (here : Counts kind stem set position fields length)
    (there : Counts kind stem set position fields other) : length = other := by
  rcases Nat.lt_trichotomy length other with less | same | more
  · obtain ⟨field, found, next⟩ := there.components length less
    exact absurd next (here.stops field found)
  · exact same
  · obtain ⟨field, found, next⟩ := here.components other more
    exact absurd next (there.stops field found)

/-- The count of the scan is the length that the run has. -/
theorem counts_countFrom : ∀ (fields : List (String × DataType)) (position : Nat),
    Counts kind stem set position fields (countFrom kind ⟨stem, set, position⟩ fields)
  | [], _ => by
    rw [countFrom]
    exact ⟨fun i inside => absurd inside (Nat.not_lt_zero i), fun _ found => nomatch found⟩
  | field :: rest, position => by
    have behind := counts_countFrom rest (position + 1)
    rw [countFrom]
    split
    · next goes =>
      refine ⟨?_, ?_⟩
      · intro i inside
        cases i with
        | zero => exact ⟨field, rfl, goes.2⟩
        | succ i =>
          obtain ⟨other, found, next⟩ := behind.components i (Nat.lt_of_succ_lt_succ inside)
          exact ⟨other, found, by rw [next, Nat.add_right_comm]; rfl⟩
      · intro other found
        rw [List.getElem?_cons_succ] at found
        have ends := behind.stops other found
        rwa [Nat.add_right_comm] at ends
    · next stays =>
      -- The count stops here; a fifth component does not exist, so the bound takes nothing away.
      refine ⟨fun i inside => absurd inside (Nat.not_lt_zero i), ?_⟩
      intro other found next
      cases found
      exact stays ⟨position_lt next, next⟩

/-- The count of the scan is that length and no other. -/
theorem countFrom_eq_iff {position length : Nat} :
    countFrom kind ⟨stem, set, position⟩ fields = length ↔
      Counts kind stem set position fields length := by
  constructor
  · rintro rfl
    exact counts_countFrom fields position
  · exact (counts_countFrom fields position).unique

/-! ### Maximal runs -/

/-- The run is a vector that starts at the field at its start, and the field behind it does not go
on with it. -/
def Maximal (fields : List (String × DataType)) (run : VectorRun) : Prop :=
  2 ≤ run.length ∧ ∃ set,
    (∀ i < run.length, ∃ field, fields[run.start + i]? = some field ∧
      component? field = some (run.kind, ⟨run.stem, set, i⟩)) ∧
    ∀ field, fields[run.start + run.length]? = some field →
      component? field ≠ some (run.kind, ⟨run.stem, set, run.length⟩)

/-- A run is maximal when it has two fields or more and ends where its set stops matching. -/
theorem maximal_iff {run : VectorRun} : run.Maximal fields ↔
    2 ≤ run.length ∧
      ∃ set, Counts run.kind run.stem set 0 (fields.drop run.start) run.length := by
  unfold Maximal
  refine and_congr_right fun _ => exists_congr fun set => ?_
  constructor
  · rintro ⟨components, stops⟩
    exact ⟨by simpa only [List.getElem?_drop, Nat.zero_add] using components,
      by simpa only [List.getElem?_drop, Nat.zero_add] using stops⟩
  · rintro ⟨components, stops⟩
    exact ⟨by simpa only [List.getElem?_drop, Nat.zero_add] using components,
      by simpa only [List.getElem?_drop, Nat.zero_add] using stops⟩

/-- The run that starts at a field is found exactly when there is one. -/
theorem startingAt?_eq_some_iff {start : Nat} {run : VectorRun} :
    startingAt? start fields = some run ↔ run.start = start ∧ 2 ≤ run.length ∧
      ∃ set, Counts run.kind run.stem set 0 fields run.length := by
  constructor
  · intro found
    unfold startingAt? at found
    split at found
    · next kind stem set _ =>
      dsimp only at found
      split at found
      · next long =>
        cases found
        exact ⟨rfl, long, set, counts_countFrom fields 0⟩
      · cases found
    · cases found
  · rintro ⟨rfl, long, set, counts⟩
    obtain ⟨field, first, begins⟩ := counts.components 0 (by omega)
    have head : fields.head?.bind component? = some (run.kind, ⟨run.stem, set, 0⟩) := by
      rw [List.head?_eq_getElem?, first, Option.bind_some, begins]
    have length := countFrom_eq_iff.2 counts
    simp only [startingAt?, head, length, if_pos long]

/-- The scan finds the runs that start at the fields still in front of it. -/
theorem mem_runsFrom_iff {run : VectorRun} : ∀ {fields : List (String × DataType)} {start : Nat},
    run ∈ runsFrom start fields ↔
      ∃ before, run.start = start + before ∧ startingAt? run.start (fields.drop before) = some run
  | [], start => by
    simp only [runsFrom, List.not_mem_nil, List.drop_nil, false_iff]
    rintro ⟨before, -, found⟩
    cases found
  | field :: rest, start => by
    rw [runsFrom, List.mem_append, Option.mem_toList, mem_runsFrom_iff]
    constructor
    · rintro (here | ⟨before, placed, behind⟩)
      · have first := (startingAt?_eq_some_iff.1 here).1
        exact ⟨0, first, first.symm ▸ here⟩
      · exact ⟨before + 1, by omega, behind⟩
    · rintro ⟨_ | before, placed, found⟩
      · rw [Nat.add_zero] at placed
        rw [← placed]
        exact Or.inl found
      · exact Or.inr ⟨before, by omega, found⟩

/-- The vectors of a record are its maximal runs. -/
theorem mem_ofFields_iff {run : VectorRun} : run ∈ ofFields fields ↔ run.Maximal fields := by
  rw [ofFields, mem_runsFrom_iff, maximal_iff]
  constructor
  · rintro ⟨before, placed, found⟩
    rw [Nat.zero_add] at placed
    rw [← placed] at found
    exact (startingAt?_eq_some_iff.1 found).2
  · intro counts
    exact ⟨run.start, (Nat.zero_add _).symm, startingAt?_eq_some_iff.2 ⟨rfl, counts⟩⟩

/-- The vectors of three components have padding if the packing is aligned. -/
theorem mem_padded_iff {run : VectorRun} :
    run ∈ padded .aligned fields ↔ run.Maximal fields ∧ run.length = 3 := by
  rw [padded, List.mem_filter, mem_ofFields_iff, needsPadding, beq_iff_eq]

/-- The field that is the last component tells what vector ends there. -/
theorem Maximal.eq_of_last {run other : VectorRun} (here : run.Maximal fields)
    (there : other.Maximal fields) (ends : run.last = other.last) : run = other := by
  obtain ⟨long, set, components, -⟩ := here
  obtain ⟨long', set', components', -⟩ := there
  unfold VectorRun.last at ends
  obtain ⟨field, found, final⟩ := components (run.length - 1) (by omega)
  obtain ⟨field', found', final'⟩ := components' (other.length - 1) (by omega)
  rw [← Nat.add_sub_assoc (by omega)] at found found'
  rw [ends] at found
  cases found.symm.trans found'
  cases run
  cases other
  obtain ⟨same_kind, same_component⟩ := Prod.mk.inj (Option.some.inj (final.symm.trans final'))
  injection same_component with same_stem _ same_position
  simp only at *
  subst same_kind same_stem
  simp only [VectorRun.mk.injEq, true_and]
  omega

/-! ### Vectors do not overlap -/

/-- A field behind the first component of a vector is no first component itself. -/
theorem startingAt?_inside {start inside : Nat} {run : VectorRun}
    (found : startingAt? start fields = some run) (behind : 0 < inside)
    (before : inside < run.length) (place : Nat) :
    startingAt? place (fields.drop inside) = none := by
  obtain ⟨-, -, set, counts⟩ := startingAt?_eq_some_iff.1 found
  obtain ⟨field, here, component⟩ := counts.components inside before
  rw [Option.eq_none_iff_forall_ne_some]
  intro other starts
  obtain ⟨-, long, set', counts'⟩ := startingAt?_eq_some_iff.1 starts
  obtain ⟨field', here', component'⟩ := counts'.components 0 (by omega)
  rw [List.getElem?_drop, Nat.add_zero] at here'
  cases here.symm.trans here'
  have same := (Prod.mk.inj (Option.some.inj (component.symm.trans component'))).2
  injection same with _ _ position
  omega

/-- The vectors come in the order of their fields, and each starts behind the one before it. -/
theorem pairwise_runsFrom : ∀ (fields : List (String × DataType)) (start : Nat),
    (runsFrom start fields).Pairwise fun run next => run.start + run.length ≤ next.start
  | [], _ => List.Pairwise.nil
  | field :: rest, start => by
    rw [runsFrom, List.pairwise_append]
    refine ⟨?_, pairwise_runsFrom rest (start + 1), ?_⟩
    · cases startingAt? start (field :: rest) <;> simp
    · intro run here next mem
      rw [Option.mem_toList] at here
      obtain ⟨before, placed, later⟩ := mem_runsFrom_iff.1 mem
      have first := (startingAt?_eq_some_iff.1 here).1
      by_contra overlap
      have inside : before + 1 < run.length := by omega
      have none := startingAt?_inside here (Nat.succ_pos before) inside next.start
      rw [List.drop_succ_cons, later] at none
      cases none

/-- The scan that goes on behind a vector as soon as it has found one.  So many fields at the front
of the list are to be passed over. -/
def scanFrom (start : Nat) : Nat → List (String × DataType) → List VectorRun
  | _, [] => []
  | skip + 1, _ :: rest => scanFrom (start + 1) skip rest
  | 0, field :: rest =>
    match startingAt? start (field :: rest) with
    | some run => run :: scanFrom (start + 1) (run.length - 1) rest
    | none => scanFrom (start + 1) 0 rest

/-- The scan misses no vector if none starts at a field that it passes over. -/
theorem runsFrom_eq_scanFrom : ∀ (fields : List (String × DataType)) (start skip : Nat),
    (∀ i < skip, startingAt? (start + i) (fields.drop i) = none) →
      runsFrom start fields = scanFrom start skip fields
  | [], _, _, _ => by rw [runsFrom, scanFrom]
  | field :: rest, start, skip + 1, quiet => by
    have here : startingAt? start (field :: rest) = none := quiet 0 (Nat.succ_pos skip)
    rw [runsFrom, scanFrom, here, Option.toList_none, List.nil_append]
    refine runsFrom_eq_scanFrom rest (start + 1) skip fun i passed => ?_
    rw [Nat.add_right_comm]
    exact quiet (i + 1) (Nat.succ_lt_succ passed)
  | field :: rest, start, 0, _ => by
    rw [runsFrom, scanFrom]
    cases found : startingAt? start (field :: rest) with
    | none => exact runsFrom_eq_scanFrom rest (start + 1) 0 fun i passed => nomatch passed
    | some run =>
      refine congrArg (run :: ·) (runsFrom_eq_scanFrom rest (start + 1) _ fun i passed => ?_)
      have inside : i + 1 < run.length := by omega
      exact startingAt?_inside found (Nat.succ_pos i) inside _

/-! ### The vectors of a record -/

/-- The field at the given place of the vector is the component of the set at that place. -/
def ComponentAt (fields : List (String × DataType)) (run : VectorRun) (names : List String)
    (i : Nat) : Prop :=
  ∃ component, names[i]? = some component ∧
    fields[run.start + i]? = some (Name.join run.stem component, .scalar run.kind)

/-- A field is a component of a run when it has the kind, stem and place of one. -/
theorem componentAt_iff {run : VectorRun} {names : List String} {i : Nat}
    (known : Component.sets[set]? = some names) :
    ComponentAt fields run names i ↔ ∃ field, fields[run.start + i]? = some field ∧
      component? field = some (run.kind, ⟨run.stem, set, i⟩) := by
  unfold ComponentAt
  simp only [component?_eq_some_iff, known, Option.some.injEq]
  constructor
  · rintro ⟨component, here, there⟩
    exact ⟨_, there, names, component, rfl, here, rfl⟩
  · rintro ⟨_, there, _, component, rfl, here, rfl⟩
    exact ⟨component, here, there⟩

/-- The vectors of a record are the runs of at least two fields that name the components of one set
from the first one on and are all the record has of them.  They are listed from front to back
without overlap, and a scan that passes over the fields of each vector finds all of them.  Those of
three components are padded if the packing is aligned. -/
theorem vectors_of_fields (fields : List (String × DataType)) :
    (∀ run, run ∈ ofFields fields ↔ 2 ≤ run.length ∧ ∃ names ∈ Component.sets,
      (∀ i < run.length, ComponentAt fields run names i) ∧
        (run.length = 4 ∨ ¬ ComponentAt fields run names run.length)) ∧
    (ofFields fields).Pairwise (fun run next => run.start + run.length ≤ next.start) ∧
    ofFields fields = scanFrom 0 0 fields ∧
    padded .aligned fields = (ofFields fields).filter (·.length = 3) := by
  refine ⟨fun run => ?_, pairwise_runsFrom fields 0,
    runsFrom_eq_scanFrom fields 0 0 (fun i passed => nomatch passed), ?_⟩
  · have four : ∀ names ∈ Component.sets, names[4]? = none := by decide
    rw [mem_ofFields_iff, Maximal]
    refine and_congr_right fun _ => ?_
    constructor
    · rintro ⟨set, components, stops⟩
      obtain ⟨field, -, first⟩ := components 0 (by omega)
      obtain ⟨names, -, known, -⟩ := component?_eq_some_iff.1 first
      refine ⟨names, List.mem_of_getElem? known,
        fun i inside => (componentAt_iff known).2 (components i inside), Or.inr ?_⟩
      rw [componentAt_iff known]
      rintro ⟨field, found, next⟩
      exact stops field found next
    · rintro ⟨names, mem, components, ends⟩
      obtain ⟨set, known⟩ := List.mem_iff_getElem?.1 mem
      refine ⟨set, fun i inside => (componentAt_iff known).1 (components i inside), ?_⟩
      have stops : ¬ ComponentAt fields run names run.length := by
        rcases ends with full | ends
        · rintro ⟨component, fifth, -⟩
          rw [full, four names mem] at fifth
          cases fifth
        · exact ends
      intro field found next
      exact stops ((componentAt_iff known).2 ⟨field, found, next⟩)
  · refine List.filter_congr fun run _ => ?_
    rw [needsPadding]
    by_cases three : run.length = 3 <;> simp [three]

end VectorRun

end DeviceBlob
