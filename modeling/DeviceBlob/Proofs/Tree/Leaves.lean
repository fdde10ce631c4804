import DeviceBlob.Proofs.Tree.Shape

/-!
# The leaves of a tree and the places of a layout

A fitting tree is cut into parts, one for each place of the layout (`partsAt`), and the leaves of
the tree are those of its parts (`mem_leavesAt_iff`).  A part that belongs to an array has its
leaves in slots: they are the leaves of the items, with the slot in front of their names
(`leavesAt_join`).
-/

namespace DeviceBlob

namespace Value

/-! ### Leaves of lists and maps -/

/-- The leaves of a list are those of its items, each under its position. -/
theorem mem_itemLeaves {address : String} {entry : String × Value} : ∀ {items : List Value}
    {position : Nat}, entry ∈ itemLeaves address position items ↔
      ∃ (i : Nat) (item : Value), items[i]? = some item ∧
        entry ∈ item.leavesAt (Name.join address (toString (position + i)))
  | [], position => by simp [itemLeaves]
  | first :: rest, position => by
    rw [itemLeaves, List.mem_append, mem_itemLeaves]
    constructor
    · rintro (mem | ⟨i, item, found, mem⟩)
      · exact ⟨0, first, rfl, mem⟩
      · refine ⟨i + 1, item, found, ?_⟩
        rwa [Nat.add_assoc, Nat.add_comm 1 i] at mem
    · rintro ⟨i, item, found, mem⟩
      cases i with
      | zero =>
        cases found
        exact Or.inl mem
      | succ i =>
        refine Or.inr ⟨i, item, found, ?_⟩
        rwa [Nat.add_assoc, Nat.add_comm 1 i]

/-- The leaves of a map are those of its entries, each under its key in snake case. -/
theorem mem_entryLeaves {address : String} {entry : String × Value} :
    ∀ {entries : List (String × Value)}, entry ∈ entryLeaves address entries ↔
      ∃ key item, (key, item) ∈ entries ∧
        entry ∈ item.leavesAt (Name.join address (Name.snake key))
  | [] => by simp [entryLeaves]
  | (first, value) :: rest => by
    rw [entryLeaves, List.mem_append, mem_entryLeaves]
    simp only [List.mem_cons, Prod.mk.injEq]
    constructor
    · rintro (mem | ⟨key, item, held, mem⟩)
      · exact ⟨first, value, Or.inl ⟨rfl, rfl⟩, mem⟩
      · exact ⟨key, item, Or.inr held, mem⟩
    · rintro ⟨key, item, ⟨rfl, rfl⟩ | held, mem⟩
      · exact Or.inl mem
      · exact Or.inr ⟨key, item, held, mem⟩

/-! ### Leaves under a longer address -/

/-- An entry with an address in front of its name. -/
def under (address : String) (entry : String × Value) : String × Value :=
  (Name.join address entry.1, entry.2)

mutual

/-- Under a longer address the leaves have longer names. -/
theorem leavesAt_join (outer : String) : ∀ {inner : String} (value : Value), inner ≠ "" →
    value.leavesAt (Name.join outer inner) = (value.leavesAt inner).map (under outer)
  | _, bool _, _ | _, int _, _ | _, float _, _ | _, label _, _ => rfl
  | _, list items, h => itemLeaves_join outer items h
  | _, map entries, h => entryLeaves_join outer entries h

/-- So it is for the items of a list. -/
theorem itemLeaves_join (outer : String) : ∀ {inner : String} {position : Nat}
    (items : List Value), inner ≠ "" →
      itemLeaves (Name.join outer inner) position items =
        (itemLeaves inner position items).map (under outer)
  | _, _, [], _ => rfl
  | inner, position, item :: rest, h => by
    have numbered := Layout.toString_ne_empty position
    rw [itemLeaves, itemLeaves, List.map_append, Name.join_assoc outer inner _ h,
      leavesAt_join outer item (Name.join_ne_empty numbered), itemLeaves_join outer rest h]

/-- So it is for the entries of a map. -/
theorem entryLeaves_join (outer : String) : ∀ {inner : String}
    (entries : List (String × Value)), inner ≠ "" →
      entryLeaves (Name.join outer inner) entries =
        (entryLeaves inner entries).map (under outer)
  | _, [], _ => rfl
  | inner, (key, item) :: rest, h => by
    have longer : Name.join inner (Name.snake key) ≠ "" := by
      rw [Name.join_of_ne_empty h]
      simp
    rw [entryLeaves, entryLeaves, List.map_append, Name.join_assoc outer inner _ h,
      leavesAt_join outer item longer, entryLeaves_join outer rest h]

end

/-- The leaves of a map under an address are its leaves with the address in front of their names. -/
theorem entryLeaves_under (address : String) : ∀ {entries : List (String × Value)},
    (∀ key ∈ entries.map (·.1), Name.snake key ≠ "") →
      entryLeaves address entries = (entryLeaves "" entries).map (under address)
  | [], _ => rfl
  | (key, item) :: rest, named => by
    rw [List.map_cons, List.forall_mem_cons] at named
    rw [entryLeaves, entryLeaves, List.map_append, Name.join_empty,
      leavesAt_join address item named.1, entryLeaves_under address named.2]

end Value

/-! ### Values without parts -/

/-- A value for a number is a leaf. -/
theorem Scalar.Takes.leavesAt {kind : Scalar} {value : Value} (h : kind.Takes value)
    (address : String) : value.leavesAt address = [(address, value)] := by
  cases value with
  | list _ | map _ => exact h.elim
  | _ => rfl

/-- A value for a label is a leaf. -/
theorem EnumType.Takes.leavesAt {type : EnumType} {value : Value} (h : type.Takes value)
    (address : String) : value.leavesAt address = [(address, value)] := by
  cases value with
  | label _ => rfl
  | _ => exact h.elim

namespace Layout

/-! ### The parts of a tree -/

/-- What a tree has for one place of a layout. -/
structure Part where
  /-- The name of the place. -/
  name : String
  /-- What its bytes hold. -/
  content : Layout
  /-- What the tree has for it. -/
  value : Value

mutual

/-- The parts of a tree for the places of a layout at an address, without those of padding. -/
def partsAt (address : String) : Layout → Value → List Part
  | record _ fields, tree => partFields address fields tree
  | padding _, _ => []
  | whole, tree => [⟨address, whole, tree⟩]

/-- The parts of a map for the places of consecutive fields below an address. -/
def partFields (address : String) : List (String × Layout) → Value → List Part
  | [], _ => []
  | (name, layout) :: rest, tree =>
    partsAt (Name.join address name) layout (fieldOf tree name) ++
      partFields address rest tree

end

/-- The parts of the tree of a whole blob. -/
def parts (layout : Layout) (tree : Value) : List Part := layout.partsAt layout.rootAddress tree

mutual

/-- No part belongs to padding. -/
theorem isPadding_of_mem_partsAt {part : Part} : ∀ {layout : Layout} {address : String}
    {tree : Value}, part ∈ partsAt address layout tree → part.content.isPadding = false
  | scalar _, _, _, mem | enum _, _, _, mem | array _ _ _, _, _, mem => by
    simp only [partsAt, List.mem_singleton] at mem
    subst mem
    rfl
  | padding _, _, _, mem => absurd mem List.not_mem_nil
  | record _ _, _, _, mem => isPadding_of_mem_partFields mem

/-- Padding is no part of a record that gets a value. -/
theorem isPadding_of_mem_partFields {part : Part} : ∀ {fields : List (String × Layout)}
    {address : String} {tree : Value}, part ∈ partFields address fields tree →
      part.content.isPadding = false
  | [], _, _, mem => absurd mem List.not_mem_nil
  | (_, _) :: _, _, _, mem => by
    rcases List.mem_append.1 mem with mem | mem
    · exact isPadding_of_mem_partsAt mem
    · exact isPadding_of_mem_partFields mem

end

mutual

/-- The parts are in the order of the places that they belong to. -/
theorem names_partsAt_sublist : ∀ (layout : Layout) (address : String) (offset : Nat)
    (tree : Value), ((partsAt address layout tree).map (·.name)).Sublist
      ((placesAt address offset layout).map (·.name))
  | scalar _, _, _, _ | enum _, _, _, _ | array _ _ _, _, _, _ => List.Sublist.refl _
  | padding _, _, _, _ => List.nil_sublist _
  | record _ fields, address, offset, tree =>
    names_partFields_sublist fields address offset tree

/-- The parts of a record that get values have names of accessors, in their order. -/
theorem names_partFields_sublist : ∀ (fields : List (String × Layout)) (address : String)
    (offset : Nat) (tree : Value), ((partFields address fields tree).map (·.name)).Sublist
      ((placeAccessors address offset fields).map (·.name))
  | [], _, _, _ => List.Sublist.refl _
  | (name, layout) :: rest, address, offset, tree => by
    rw [partFields, placeAccessors, List.map_append, List.map_append]
    exact (names_partsAt_sublist layout _ _ _).append (names_partFields_sublist rest _ _ _)

end

mutual

/-- A part belongs to a place and has the shape of it. -/
theorem place_of_mem_partsAt {part : Part} : ∀ {layout : Layout} {address : String}
    {offset : Nat} {tree : Value}, Fits layout tree → part ∈ partsAt address layout tree →
      Fits part.content part.value ∧
        ∃ place ∈ placesAt address offset layout,
          place.name = part.name ∧ place.content = part.content
  | scalar _, _, _, _, fits, mem | enum _, _, _, _, fits, mem
  | array _ _ _, _, _, _, fits, mem => by
    simp only [partsAt, List.mem_singleton] at mem
    subst mem
    exact ⟨fits, _, List.mem_singleton.2 rfl, rfl, rfl⟩
  | padding _, _, _, _, _, mem => absurd mem List.not_mem_nil
  | record _ _, _, _, _, fits, mem => by
    obtain ⟨_, -, -, -, fit⟩ := fits
    exact place_of_mem_partFields fit mem

/-- Each part of a record has the place of an accessor and a value that fits it. -/
theorem place_of_mem_partFields {part : Part} : ∀ {fields : List (String × Layout)}
    {address : String} {offset : Nat} {tree : Value}, FieldsFit fields tree →
      part ∈ partFields address fields tree →
        Fits part.content part.value ∧
          ∃ place ∈ placeAccessors address offset fields,
            place.name = part.name ∧ place.content = part.content
  | [], _, _, _, _, mem => absurd mem List.not_mem_nil
  | (name, layout) :: rest, address, offset, tree, fit, mem => by
    rcases List.mem_append.1 mem with mem | mem
    · obtain ⟨fits, place, held, same⟩ := place_of_mem_partsAt fit.head mem
      exact ⟨fits, place, List.mem_append_left _ held, same⟩
    · obtain ⟨fits, place, held, same⟩ := place_of_mem_partFields fit.2 mem
      exact ⟨fits, place, List.mem_append_right _ held, same⟩

end

mutual

/-- The leaves of a tree are those of its parts. -/
theorem mem_leavesAt_iff {entry : String × Value} : ∀ {layout : Layout} {address : String}
    {tree : Value}, layout.isPadding = false → Fits layout tree →
      (∀ name ∈ layout.fieldNames, Name.snake name = name) →
        (entry ∈ tree.leavesAt address ↔
          ∃ part ∈ partsAt address layout tree, entry ∈ part.value.leavesAt part.name)
  | scalar _, _, _, _, _, _ | enum _, _, _, _, _, _ | array _ _ _, _, _, _, _, _ => by
    simp [partsAt]
  | record _ fields, address, _, _, fits, names => by
    obtain ⟨entries, rfl, sorted, keys, fit⟩ := fits
    rw [partsAt, mem_partFields_iff fit fun name below =>
      names name (List.mem_append_right _ below), Value.leavesAt, Value.mem_entryLeaves]
    have nodup : (entries.map (·.1)).Nodup := (SortedMap.mk entries sorted).nodup_keys
    constructor
    · rintro ⟨key, item, held, mem⟩
      have declared : key ∈ valueNames fields := (keys key).1 (List.mem_map.2 ⟨_, held, rfl⟩)
      obtain ⟨layout, field, plain⟩ := mem_valueNames.1 declared
      rw [names key (List.mem_append_left _ declared)] at mem
      exact ⟨key, layout, field, plain, item,
        (SortedMap.lookup_eq_some_iff_of_nodup nodup).2 held, mem⟩
    · rintro ⟨key, layout, field, plain, item, found, mem⟩
      have declared : key ∈ valueNames fields := mem_valueNames.2 ⟨layout, field, plain⟩
      refine ⟨key, item, (SortedMap.lookup_eq_some_iff_of_nodup nodup).1 found, ?_⟩
      rwa [names key (List.mem_append_left _ declared)]

/-- The leaves of a record are those of its parts. -/
theorem mem_partFields_iff {entry : String × Value} : ∀ {fields : List (String × Layout)}
    {address : String} {tree : Value}, FieldsFit fields tree →
      (∀ name ∈ fieldNamesBelow fields, Name.snake name = name) →
        ((∃ part ∈ partFields address fields tree, entry ∈ part.value.leavesAt part.name) ↔
          ∃ name layout, (name, layout) ∈ fields ∧ layout.isPadding = false ∧
            ∃ item, tree.item? name = some item ∧ entry ∈ item.leavesAt (Name.join address name))
  | [], _, _, _, _ => by simp [partFields]
  | (first, content) :: rest, address, tree, fit, names => by
    have others := @mem_partFields_iff entry rest address tree fit.2 fun name below =>
      names name (List.mem_append_right _ below)
    have here : (∃ part ∈ partsAt (Name.join address first) content (fieldOf tree first),
        entry ∈ part.value.leavesAt part.name) ↔
          content.isPadding = false ∧ ∃ item, tree.item? first = some item ∧
            entry ∈ item.leavesAt (Name.join address first) := by
      cases padded : content.isPadding with
      | true =>
        cases content <;> cases padded
        simp [partsAt]
      | false =>
        obtain ⟨item, found, shape⟩ := fit.1 padded
        rw [fieldOf_of_entry found, found, ← mem_leavesAt_iff padded shape fun name below =>
          names name (List.mem_append_left _ below)]
        simp
    simp only [partFields, List.mem_append, or_and_right, exists_or]
    rw [here, others]
    constructor
    · rintro (⟨plain, held⟩ | ⟨name, layout, field, plain, held⟩)
      · exact ⟨first, content, List.mem_cons_self, plain, held⟩
      · exact ⟨name, layout, List.mem_cons_of_mem _ field, plain, held⟩
    · rintro ⟨name, layout, field, plain, held⟩
      rcases List.mem_cons.1 field with same | field
      · cases same
        exact Or.inl ⟨plain, held⟩
      · exact Or.inr ⟨name, layout, field, plain, held⟩

end

end Layout

end DeviceBlob
