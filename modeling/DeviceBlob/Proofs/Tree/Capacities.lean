import DeviceBlob.Proofs.Blob.Cached
import DeviceBlob.Proofs.Layout.Routing
import DeviceBlob.Proofs.Tree.Kept

/-!
# Capacities that are found out from a tree

A tree that is written needs no capacities: `withInferred` looks through the names of all leaves and
gives each array whose capacity is missing room for the greatest slot that they name.  It goes down
the type with names as a whole, while the tree is written level by level, with names that begin
anew in every slot.  `slotAlong?` says which slot a name means for the array at the end of a path
in the way of the writer.  Where no number in a name has a leading zero both mean the same
(`slotOf?_below`), so that the capacities cover all slots (`covers_withInferred`); and a slot that
is out of range is one that a name means for an array of the layout (`overruns_of_write`).  Main
statement: `Blob.inferred_capacities_fit`.
-/

namespace DeviceBlob

open LayoutCache (Request runOn)

/-! ### Numbers in names -/

namespace Name

/-- The numbers among the parts of a name have no leading zeros, and the capacities that they ask
for, which are one more, are 64-bit integers. -/
def PlainNumbers (name : String) : Prop :=
  ∀ piece ∈ Text.pieces separator name.toList, ∀ n ∈ Text.natural? piece,
    n < 2 ^ 63 - 1 ∧ (piece.head? = some '0' → piece = ['0'])

instance (name : String) : Decidable (PlainNumbers name) :=
  inferInstanceAs (Decidable (∀ piece ∈ Text.pieces separator name.toList,
    ∀ n ∈ Text.natural? piece, n < 2 ^ 63 - 1 ∧ (piece.head? = some '0' → piece = ['0'])))

/-- The pieces of a name are among those of a longer one. -/
theorem pieces_subset_join (parent child : String) :
    Text.pieces separator child.toList ⊆ Text.pieces separator (join parent child).toList := by
  by_cases root : parent = ""
  · rw [root, join_empty]
    exact List.Subset.refl _
  · rw [toList_join root, Text.pieces_append]
    exact List.subset_append_right _ _

/-- The address below another one.  What has no address of its own has the outer one. -/
def below (outer address : String) : String :=
  if address = "" then outer else join outer address

/-- At the top the address is the outer one. -/
theorem below_empty (outer : String) : below outer "" = outer := if_pos rfl

/-- Further down the address is put behind the outer one. -/
theorem below_of_named {address : String} (named : address ≠ "") (outer : String) :
    below outer address = join outer address := if_neg named

/-- A field is named alike from either end. -/
theorem join_below {name : String} (named : name ≠ "") (outer address : String) :
    join (below outer address) name = below outer (join address name) := by
  rw [below_of_named (join_ne_empty named)]
  by_cases root : address = ""
  · rw [root, below_empty, join_empty]
  · rw [below_of_named root, join_assoc _ _ _ root]

end Name

namespace Layout

open Text

/-- What an array takes below an outer address, it takes under the outer address too. -/
theorem slotOf?_below (outer address name : String) :
    slotOf? (Name.below outer address) (Name.join outer name) = slotOf? address name := by
  have same : ∀ inside, Name.join outer name = Name.join (Name.below outer address) inside ↔
      name = Name.join address inside := by
    intro inside
    by_cases root : address = ""
    · rw [root, Name.below_empty, Name.join_empty]
      exact ⟨Name.join_left_cancel, congrArg _⟩
    · rw [Name.below_of_named root, Name.join_assoc _ _ _ root]
      exact ⟨Name.join_left_cancel, congrArg _⟩
  apply Option.ext
  rintro ⟨slot, field⟩
  simp only [slotOf?_eq_some_iff, same]

/-- A slot that is named without leading zeros is named by its number. -/
theorem slotOf?_of_plainNumbers {address name field : String} {slot : Nat}
    (plain : Name.PlainNumbers name) (taken : slotOf? address name = some (slot, field)) :
    slot < 2 ^ 63 - 1 ∧ name = Name.join (Name.join address (toString slot)) field := by
  obtain ⟨digits, number, rfl⟩ := slotOf?_eq_some_iff.1 taken
  have read : natural? digits = some slot := (Option.filter_eq_some_iff.1 number).1
  have numeral := isNumeral_of_natural? read
  have numbered := numeral.ofList_ne_empty
  have piece : digits ∈
      pieces Name.separator (Name.join (String.ofList digits) field).toList := by
    rw [Name.toList_join numbered, String.toList_ofList, pieces_append_cons numeral.not_mem]
    exact List.mem_cons_self
  obtain ⟨small, noZero⟩ := plain _ (Name.pieces_subset_join _ _ piece) _ read
  refine ⟨small, ?_⟩
  rw [Name.join_assoc _ _ _ (toString_ne_empty slot), Nat.toString_eq_ofList_toDigits,
    ← eq_toDigits_of_natural? read noZero]

/-! ### Slots along paths -/

/-- The slot that a name below the given address means for the array at the end of a path.  In an
element names begin anew. -/
def slotAlong? : List PathStep → String → String → Option Nat
  | [], address, name => (slotOf? address name).map (·.1)
  | .field field :: path, address, name => slotAlong? path (Name.join address field) name
  | .element :: path, address, name =>
    (slotOf? address name).bind fun taken => slotAlong? path "" taken.2

end Layout

/-! ### Capacities that are large enough -/

namespace Params

variable {params : Params} {name : String} {slot : Nat}

/-- The parameter with the given name is the capacity of an array that has the given slot. -/
def Covers (params : Params) (name : String) (slot : Nat) : Prop :=
  ∃ value, params.get? name = some value ∧ (slot : Int) < value.toInt

/-- A capacity that was raised to a value covers all slots below the value. -/
theorem covers_raise {least : Int64} (below : (slot : Int) < least.toInt) (params : Params) :
    (DataType.raise params name least).Covers name slot := by
  have positive : 0 < least := by
    rw [Int64.lt_iff_toInt_lt]
    exact Int.lt_of_le_of_lt (Int.natCast_nonneg slot) below
  unfold DataType.raise
  split
  · exact ⟨least, by rw [get?_insert, if_pos rfl], below⟩
  · next enough =>
    cases found : params.get? name with
    | none => exact absurd ⟨positive, by simpa [found] using positive⟩ enough
    | some value =>
      refine ⟨value, found, Int.lt_of_lt_of_le below ?_⟩
      rw [← Int64.le_iff_toInt_le, ← Int64.not_lt]
      exact fun less => enough ⟨positive, by simpa [found] using less⟩

/-- Raising a capacity uncovers no slot. -/
theorem Covers.raise (covered : params.Covers name slot) (other : String) (least : Int64) :
    (DataType.raise params other least).Covers name slot := by
  obtain ⟨value, found, inside⟩ := covered
  unfold DataType.raise
  split
  · next more =>
    by_cases same : name = other
    · subst same
      have greater : value.toInt < least.toInt := by
        rw [← Int64.lt_iff_toInt_lt]
        simpa [found] using more.2
      exact ⟨least, by rw [get?_insert, if_pos rfl], by omega⟩
    · exact ⟨value, by rw [get?_insert, if_neg same, found], inside⟩
  · exact ⟨value, found, inside⟩

/-- Steps that uncover no slot do not uncover one in a row. -/
theorem Covers.foldl {step : Params → Nat → Params} (covered : params.Covers name slot)
    (keeps : ∀ params inner, params.Covers name slot → (step params inner).Covers name slot)
    (slots : List Nat) : (slots.foldl step params).Covers name slot :=
  List.foldlRecOn (motive := fun params : Params => params.Covers name slot) slots step covered
    fun _ covered _ _ => keeps _ _ covered

end Params

namespace DataType

open Layout (slotOf? slotAlong?)

variable {names : List String} {name : String} {slot : Nat}

/-- The slots that are named are those that some key carries. -/
theorem mem_slotsNamed {address : String} :
    slot ∈ slotsNamed names address ↔
      ∃ name ∈ names, ∃ field, slotOf? address name = some (slot, field) := by
  rw [slotsNamed, SortedMap.mem_keys_ofList]
  simp [Option.map_eq_some_iff]

/-- The last of the slots is the greatest one. -/
theorem exists_last_slotsNamed {address : String} (mem : slot ∈ slotsNamed names address) :
    ∃ last ∈ slotsNamed names address,
      (slotsNamed names address).getLast? = some last ∧ slot ≤ last := by
  have some := List.ne_nil_of_mem mem
  have sorted : (slotsNamed names address).Pairwise (· ≤ ·) :=
    (SortedMap.sorted_keys _).imp Nat.le_of_lt
  exact ⟨_, List.getLast_mem some, List.getLast?_eq_some_getLast some, sorted.rel_getLast mem⟩

mutual

/-- Capacities are only raised, so what is covered stays covered. -/
theorem covers_of_covers : ∀ {type : DataType} {params : Params} (address parent : String),
    params.Covers name slot → (type.raiseCapacities names address parent params).Covers name slot
  | scalar _, _, _, _, covered | enum _, _, _, _, covered => covered
  | record _ _, _, address, parent, covered => covers_of_covers_fields address parent covered
  | array _ _, _, _, _, covered =>
    (covered.raise _ _).foldl (fun _ _ covered => covers_of_covers _ _ covered) _

/-- Raising the capacities of fields uncovers no slot. -/
theorem covers_of_covers_fields : ∀ {fields : List (String × DataType)} {params : Params}
    (address parent : String), params.Covers name slot →
      (raiseFieldCapacities names address parent fields params).Covers name slot
  | [], _, _, _, covered => covered
  | (_, _) :: _, _, address, parent, covered => by
    rw [raiseFieldCapacities]
    exact covers_of_covers_fields address parent (covers_of_covers _ _ covered)

end

/-- What the capacities of one field cover, those of all fields cover. -/
theorem covers_raiseFieldCapacities {field : String × DataType} {address parent : String} :
    ∀ {fields : List (String × DataType)}, field ∈ fields →
      (∀ params, (field.2.raiseCapacities names (Name.join address field.1)
        (Name.join parent field.1) params).Covers name slot) →
        ∀ params, (raiseFieldCapacities names address parent fields params).Covers name slot
  | [], mem, _, _ => absurd mem List.not_mem_nil
  | (_, _) :: rest, mem, here, params => by
    rw [raiseFieldCapacities]
    rcases List.mem_cons.1 mem with rfl | mem
    · exact covers_of_covers_fields _ _ (here params)
    · exact covers_raiseFieldCapacities mem here _

/-- What the capacities for the names in one slot cover, those for all names cover. -/
theorem covers_foldl {element : DataType} {address parent : String} {inner : Nat} {slots : List Nat}
    (mem : inner ∈ slots)
    (here : ∀ params, (element.raiseCapacities names (Name.join address (toString inner)) parent
      params).Covers name slot) (params : Params) :
    (slots.foldl (fun params slot => element.raiseCapacities names
      (Name.join address (toString slot)) parent params) params).Covers name slot := by
  obtain ⟨front, back, rfl⟩ := List.append_of_mem mem
  rw [List.foldl_append, List.foldl_cons]
  exact (here _).foldl (fun _ _ covered => covers_of_covers _ _ covered) back

/-- The capacity of the array at the end of a path covers each slot that a name means for it. -/
theorem covers_raiseCapacities (plain : ∀ name ∈ names, Name.PlainNumbers name)
    {type part : DataType} {path : List PathStep} (reaches : type.HasPart path part) :
    ∀ {label : String} {element : DataType} (outer address parent : String) {key : String},
      part = array label element → type.Buildable → Name.join outer key ∈ names →
      slotAlong? path address key = some slot → ∀ params,
        (type.raiseCapacities names (Name.below outer address) parent params).Covers
          (Name.join parent (capacityName path)) slot := by
  induction reaches with
  | here type =>
    rintro label element outer address parent key rfl - mem means params
    obtain ⟨⟨_, field⟩, taken, rfl⟩ := Option.map_eq_some_iff.1 means
    rw [← Layout.slotOf?_below outer] at taken
    obtain ⟨last, held, greatest, bound⟩ :=
      exists_last_slotsNamed (mem_slotsNamed.2 ⟨_, mem, field, taken⟩)
    obtain ⟨name, mem', field', taken'⟩ := mem_slotsNamed.1 held
    obtain ⟨small, -⟩ := Layout.slotOf?_of_plainNumbers (plain name mem') taken'
    have value : (Int64.ofNat (last + 1)).toInt = (last + 1 : Nat) :=
      Int64.toInt_ofNat_of_lt (by omega)
    rw [raiseCapacities, greatest, Option.map_some, Option.getD_some]
    refine (Params.covers_raise ?_ params).foldl (fun _ _ covered => covers_of_covers _ _ covered) _
    rw [value]
    omega
  | @field _ fields field path part held below ih =>
    intro label element outer address parent key same buildable mem means params
    have named : field.1 ≠ "" := buildable.named field held
    have step : (PathStep.field field.1).name ≠ "" := named
    rw [join_capacityName_cons step, raiseCapacities]
    refine covers_raiseFieldCapacities held (fun params => ?_) params
    rw [Name.join_below named]
    exact ih outer _ _ same (buildable.of_mem_fields field held) mem means params
  | @element _ content part path below ih =>
    intro label element outer address parent key same buildable mem means params
    have item : PathStep.element.name ≠ "" := by decide
    obtain ⟨⟨inner, field⟩, taken, means⟩ := Option.bind_eq_some_iff.1 means
    rw [← Layout.slotOf?_below outer] at taken
    obtain ⟨-, whole⟩ := Layout.slotOf?_of_plainNumbers (plain _ mem) taken
    rw [join_capacityName_cons item, raiseCapacities]
    refine covers_foldl (mem_slotsNamed.2 ⟨_, mem, field, taken⟩) (fun params => ?_) _
    -- Behind the slot names begin anew, so the element has no address of its own.
    have inside := ih (Name.join (Name.below outer address) (toString inner)) ""
      (Name.join parent itemPrefix) same buildable.element (whole ▸ mem) means params
    rwa [Name.below_empty] at inside

/-- A capacity that is not given covers each slot that a name means for its array. -/
theorem covers_withInferred {type : DataType} (buildable : type.Buildable)
    {flat : SortedMap String Value} (plain : ∀ name ∈ flat.keys, Name.PlainNumbers name)
    {params : Params} {path : List PathStep} (mem : path ∈ type.arrayPaths)
    (missing : params.get? (capacityName path) = none) {key : String} (held : key ∈ flat.keys)
    (means : slotAlong? path "" key = some slot) :
    (type.withInferred flat params).Covers (capacityName path) slot := by
  obtain ⟨name, element, reaches⟩ := mem_arrayPaths_iff.1 mem
  obtain ⟨value, found, inside⟩ :=
    covers_raiseCapacities plain reaches "" "" "" rfl buildable held means ∅
  refine ⟨value, ?_, inside⟩
  rw [withInferred, Params.get?_union, missing, Option.none_or]
  exact found

end DataType

/-! ### Slots that are out of range -/

namespace Layout

/-- A name that means a slot has a separator behind its number. -/
theorem separator_mem_of_slotAlong? {path : List PathStep} {address name : String} {slot : Nat}
    (means : slotAlong? path address name = some slot) : Name.separator ∈ name.toList := by
  induction path generalizing address with
  | nil =>
    obtain ⟨_, taken, -⟩ := Option.map_eq_some_iff.1 means
    exact separator_mem_of_slotOf? taken
  | cons step path ih =>
    cases step with
    | field field => exact ih means
    | element =>
      obtain ⟨_, taken, -⟩ := Option.bind_eq_some_iff.1 means
      exact separator_mem_of_slotOf? taken

/-- There is an array of the given capacity for which one of the names means the given slot, and
the array does not have this slot. -/
def Overruns (layout : Layout) (address : String) (names : List String) (slot capacity : Nat) :
    Prop :=
  capacity ≤ slot ∧ ∃ path name element, layout.HasPart path (array name capacity element) ∧
    ∃ key ∈ names, slotAlong? path address key = some slot

/-- What the names for an element mean in it, the names that they are cut from mean in the array.
The index that an element is given by default means no slot. -/
theorem Overruns.of_element {content : Layout} {address label : String} {inner room : Nat}
    {entries : Entries} {slot capacity : Nat}
    (h : content.Overruns "" (withIndex inner
      (SortedMap.ofList (fieldsFor address inner entries))).keys slot capacity) :
    (array label room content).Overruns address (entries.map (·.1)) slot capacity := by
  obtain ⟨beyond, path, name, element, reaches, key, held, means⟩ := h
  refine ⟨beyond, .element :: path, name, element, .element reaches, ?_⟩
  obtain ⟨⟨_, value⟩, given, rfl⟩ := List.mem_map.1 held
  rcases mem_withIndex.1 given with given | ⟨-, index⟩
  · have listed := SortedMap.mem_of_get?_ofList (SortedMap.get?_eq_some_iff.2 given)
    obtain ⟨whole, mem, taken⟩ := mem_fieldsFor.1 listed
    exact ⟨whole, List.mem_map_of_mem mem, by rw [slotAlong?, taken, Option.bind_some, means]⟩
  · cases index
    have plain : Name.separator ∉ DataType.indexField.toList := by decide
    exact absurd (separator_mem_of_slotAlong? means) plain

/-- The names that are left to the arrays are among all names. -/
theorem Overruns.of_remaining {layout : Layout} {flat : SortedMap String Value}
    {slot capacity : Nat}
    (h : layout.Overruns layout.rootAddress ((layout.remaining flat).map (·.1)) slot capacity) :
    layout.Overruns "" flat.keys slot capacity := by
  obtain ⟨beyond, path, name, element, reaches, key, held, means⟩ := h
  have root : layout.rootAddress = "" := by
    cases layout with
    | record _ _ | array _ _ _ => rfl
    | scalar _ | enum _ | padding _ => cases reaches
  obtain ⟨entry, left, rfl⟩ := List.mem_map.1 held
  rw [root] at means
  exact ⟨beyond, path, name, element, reaches, entry.1,
    List.mem_map_of_mem (mem_remaining.1 left).1, means⟩

/-- A slot is out of range in the second pass only. -/
theorem writeArrays_of_write {layout : Layout} {bytes : Bytes} {flat : SortedMap String Value}
    {slot capacity : Nat}
    (failed : layout.write bytes flat = .error (.slotOutOfRange slot capacity)) :
    ∃ leaves, writeArrays layout.rootAddress layout leaves (layout.remaining flat) =
      .error (.slotOutOfRange slot capacity) := by
  rcases bind_eq_error.1 failed with first | ⟨leaves, -, failed⟩
  · exact (writeLeaves_failsOnly layout _ bytes _ first).elim
  · refine ⟨leaves, ?_⟩
    rcases bind_eq_error.1 failed with second | ⟨⟨_, rest⟩, -, failed⟩
    · exact second
    · rcases bind_eq_error.1 failed with last | ⟨_, -, none⟩
      · exact (checkAllTaken_failsOnly rest _ last).elim
      · cases none

mutual

/-- A slot that is out of range is one that a name means for an array of the layout. -/
theorem overruns_of_writeArrays : ∀ {layout : Layout} {address : String} {bytes : Bytes}
    {entries : Entries} {slot capacity : Nat},
      writeArrays address layout bytes entries = .error (.slotOutOfRange slot capacity) →
        layout.Overruns address (entries.map (·.1)) slot capacity
  | scalar _, _, _, _, _, _, failed | enum _, _, _, _, _, _, failed
  | padding _, _, _, _, _, _, failed => by cases failed
  | record _ _, _, _, _, _, _, failed => by
    obtain ⟨beyond, field, mem, path, name, element, reaches, key, held, means⟩ :=
      overruns_of_writeArrayFields failed
    exact ⟨beyond, _, name, element, .field mem reaches, key, held, means⟩
  | array label room content, _, _, _, _, _, failed => by
    rw [writeArrays_array, bind_eq_error] at failed
    rcases failed with failed | ⟨_, -, none⟩
    · obtain ⟨⟨inner, flat⟩, group, _, failed⟩ := exists_of_foldlM_eq_error failed
      obtain ⟨some, rfl⟩ := mem_takenSlots.1 group
      unfold writeSlot at failed
      split at failed
      · next beyond =>
        cases failed
        obtain ⟨⟨field, value⟩, others, cons⟩ := List.exists_cons_of_ne_nil some
        obtain ⟨name, mem, taken⟩ := mem_fieldsFor.1 (cons ▸ List.mem_cons_self)
        exact ⟨beyond, [], label, content, .here _, name, List.mem_map_of_mem mem,
          by rw [slotAlong?, taken, Option.map_some]⟩
      · rcases bind_eq_error.1 failed with failed | ⟨_, -, none⟩
        · obtain ⟨leaves, failed⟩ := writeArrays_of_write failed
          exact (overruns_of_writeArrays failed).of_remaining.of_element
        · cases none
    · cases none

/-- A slot that fields have no room for is one that some key names, in an array below one of them.
-/
theorem overruns_of_writeArrayFields : ∀ {fields : List (String × Layout)} {address : String}
    {bytes : Bytes} {entries : Entries} {slot capacity : Nat},
      writeArrayFields address fields bytes entries = .error (.slotOutOfRange slot capacity) →
        capacity ≤ slot ∧ ∃ field ∈ fields, ∃ path name element,
          field.2.HasPart path (array name capacity element) ∧ ∃ key ∈ entries.map (·.1),
            slotAlong? path (Name.join address field.1) key = some slot
  | [], _, _, _, _, _, failed => by cases failed
  | (name, layout) :: rest, _, _, _, _, _, failed => by
    rcases bind_eq_error.1 failed with first | ⟨⟨_, between⟩, first, failed⟩
    · obtain ⟨beyond, overrun⟩ := overruns_of_writeArrays first
      exact ⟨beyond, (name, layout), List.mem_cons_self, overrun⟩
    · rcases bind_eq_error.1 failed with second | ⟨_, -, none⟩
      · obtain ⟨beyond, field, mem, path, name, element, reaches, key, held, means⟩ :=
          overruns_of_writeArrayFields second
        have fewer := List.map_subset (·.1) (left_subset_of_writeArrays first)
        exact ⟨beyond, field, List.mem_cons_of_mem _ mem, path, name, element, reaches, key,
          fewer held, means⟩
      · cases none

end

/-- A tree that is refused because of a slot names that slot for an array of the layout. -/
theorem overruns_of_write {layout : Layout} {bytes : Bytes} {flat : SortedMap String Value}
    {slot capacity : Nat}
    (failed : layout.write bytes flat = .error (.slotOutOfRange slot capacity)) :
    layout.Overruns "" flat.keys slot capacity := by
  obtain ⟨leaves, failed⟩ := writeArrays_of_write failed
  exact (overruns_of_writeArrays failed).of_remaining

end Layout

/-! ### Blobs made of trees -/

namespace Blob

open Layout (slotAlong?)

variable {type : DataType} {tree : Value} {params : Params}

/-- An array of a type whose capacity is not given has each slot that a name means for it, in each
proper layout. -/
theorem slot_lt_capacity (buildable : type.Buildable)
    (plain : ∀ key ∈ tree.flatten.keys, Name.PlainNumbers key) {layout element : Layout}
    {path : List PathStep} {name key : String} {slot capacity : Nat}
    (proper : layout.Proper (type.withInferred tree.flatten params)) (mem : path ∈ type.arrayPaths)
    (reaches : layout.HasPart path (.array name capacity element))
    (missing : params.get? (capacityName path) = none) (held : key ∈ tree.flatten.keys)
    (means : slotAlong? path "" key = some slot) : slot < capacity := by
  obtain ⟨_, _, leads⟩ := DataType.mem_arrayPaths_iff.1 mem
  obtain ⟨value, found, same⟩ :=
    Layout.Proper.capacity_of_hasPart reaches proper (leads.named buildable) rfl
  obtain ⟨other, found', inside⟩ :=
    DataType.covers_withInferred buildable plain mem missing held means
  cases found.symm.trans found'
  omega

/-- A tree that is refused because of a slot names it for an array of the layout. -/
theorem overruns_of_cachedOfTree {compiler : Compiler} {history : List Request}
    {slot capacity : Nat}
    (failed : (runOn (cachedOfTree compiler type tree params) (Request.serveAll .empty history)).1 =
      .error (.slotOutOfRange slot capacity)) :
    ∃ layout, (runOn (compiler.cachedLayout (type.withInferred tree.flatten params) type)
        (Request.serveAll .empty history)).1 = .ok layout ∧
      layout.Overruns "" tree.flatten.keys slot capacity := by
  have fails := @Compiler.failsOnly_cachedLayout compiler type
    (type.withInferred tree.flatten params) history
  unfold cachedOfTree at failed
  rcases run : runOn (compiler.cachedLayout (type.withInferred tree.flatten params) type)
    (Request.serveAll .empty history) with ⟨e | layout, next⟩
  · rw [LayoutCache.runOn_bind_of_error run] at failed
    rw [run] at fails
    cases failed
    exact (fails _ rfl).elim
  · rw [LayoutCache.runOn_bind_of_ok run] at failed
    cases written : layout.write layout.blank tree.flatten with
    | error e =>
      rw [written] at failed
      cases failed
      exact ⟨layout, rfl, Layout.overruns_of_write written⟩
    | ok bytes =>
      rw [written] at failed
      cases failed

/-- The value that is used for a parameter that is given is the one that is given. -/
theorem exists_given_of_withInferred {name : String} {value : Int64} {capacity : Nat}
    (found : (type.withInferred tree.flatten params).get? name = some value)
    (same : value.toInt = capacity) (given : params.get? name ≠ none) :
    ∃ value, params.get? name = some value ∧ value.toInt = capacity := by
  obtain ⟨other, given⟩ := Option.ne_none_iff_exists'.1 given
  rw [DataType.withInferred, Params.get?_union, given, Option.some_or] at found
  cases found
  exact ⟨value, given, same⟩

end Blob

/-! ### Rows of cells

The second row is longer than the first one, and a single capacity has to do for both. -/

namespace Grid

/-- A row of cells. -/
def rowType : DataType :=
  .record "Row" [("index", .scalar .int32), ("cells", .array "Cells" Board.cellType)]

/-- Rows of cells. -/
def gridType : DataType := .array "Rows" rowType

/-- A row of one cell and a row of three cells. -/
def tree : Value :=
  let cell : Value := .map [("mark", .int 7)]
  .list [.map [("cells", .list [cell])], .map [("cells", .list [cell, cell, cell])]]

/-- Room for five rows. -/
def params : Params := .ofList [("capacity", 5)]

/-- Room for five rows of one cell. -/
def narrowParams : Params := .ofList [("capacity", 5), ("item_cells_capacity", 1)]

/-- The keys of the example tree. -/
theorem keys_tree : tree.flatten.keys =
    ["0_cells_0_mark", "1_cells_0_mark", "1_cells_1_mark", "1_cells_2_mark"] := by
  decide +kernel

/-- Its numbers are written plainly. -/
theorem plainNumbers_tree : ∀ key ∈ tree.flatten.keys, Name.PlainNumbers key := by
  rw [keys_tree]
  decide

/-- The document that declares rows of cells. -/
def schema : Schema where
  types := [
    .record "Cell" [⟨"index", "int32", none⟩, ⟨"mark", "int32", none⟩],
    .array "Cells" "Cell",
    .record "Row" [⟨"index", "int32", none⟩, ⟨"cells", "Cells", none⟩],
    .array "Rows" "Row"]

/-- The types of that document. -/
def registry : Registry where
  types := [Board.cellType, .array "Cells" Board.cellType, rowType, gridType]

/-- A cache is safe for rows of cells, as they are all that was asked of it. -/
theorem safeFor_gridType : (Request.serveAll .empty []).SafeFor gridType := by
  have resolved : schema.toRegistry = .ok registry := rfl
  exact (LayoutCache.usedFor_empty _).safeFor resolved rfl

/-- The second row has no place for its second cell. -/
theorem ofTree_narrowParams :
    (runOn (Blob.cachedOfTree (Compiler.mk .aligned 5000) gridType tree narrowParams)
      (Request.serveAll .empty [])).1 = .error (.slotOutOfRange 1 1) := by
  rw [Blob.runOn_cachedOfTree safeFor_gridType]
  cbv

end Grid

end DeviceBlob
