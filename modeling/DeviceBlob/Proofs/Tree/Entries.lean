import DeviceBlob.Proofs.Tree.Leaves

/-!
# The flat form of a tree

On each level of a regular layout every entry of a flat tree belongs to one place
(`Regular.separate`).  Where a tree is `Spread` over these places, no two of its leaves have one
name (`Spread.functional`), each scalar and label is found under the name of its place
(`Spread.get?_flatten`), and the arrays are served: what an array takes for a slot are the leaves of
the item at that position (`Spread.serves_remaining`).  The trees that fit a layout are of this kind
(`Regular.spread`).
-/

namespace DeviceBlob.Layout

open SortedMap (Functional)

/-! ### Places that do not meet -/

/-- Every entry of a flat tree belongs to at most one place. -/
structure Separate (layout : Layout) : Prop where
  /-- No two places have one name. -/
  names : (layout.places.map (·.name)).Nodup
  /-- No array takes the entry of another place. -/
  plain : ∀ array ∈ layout.places, array.content.isArray = true → ∀ other ∈ layout.places,
    other.content.isArray = false → slotOf? array.name other.name = none
  /-- No two arrays take one entry. -/
  arrays : ∀ array ∈ layout.places, array.content.isArray = true → ∀ other ∈ layout.places,
    other.content.isArray = true → array.name ≠ other.name →
      ∀ name taken, slotOf? array.name name = some taken → slotOf? other.name name = none

mutual

/-- The places in a layout with a name are named. -/
theorem name_of_mem_placesAt {place : Field} : ∀ {layout : Layout} {address : String}
    {offset : Nat}, layout.WellFormed → address ≠ "" → place ∈ placesAt address offset layout →
      place.name ≠ ""
  | scalar _, _, _, _, named, mem | enum _, _, _, _, named, mem | padding _, _, _, _, named, mem
  | array _ _ _, _, _, _, named, mem => by
    simp only [placesAt, List.mem_singleton] at mem
    subst mem
    exact named
  | record _ _, _, _, formed, _, mem => name_of_mem_placeAccessors formed.1 mem

/-- All places of well-formed fields have names. -/
theorem name_of_mem_placeAccessors {place : Field} : ∀ {fields : List (String × Layout)}
    {address : String} {offset : Nat}, FieldsWellFormed fields →
      place ∈ placeAccessors address offset fields → place.name ≠ ""
  | [], _, _, _, mem => absurd mem List.not_mem_nil
  | (_, _) :: _, _, _, formed, mem => by
    rcases List.mem_append.1 mem with mem | mem
    · exact name_of_mem_placesAt formed.2.1 (Name.join_ne_empty formed.1) mem
    · exact name_of_mem_placeAccessors formed.2.2 mem

end

/-- The places of a layout that is one place itself are separate. -/
theorem separate_of_single {layout : Layout} {place : Field} (single : layout.places = [place]) :
    layout.Separate := by
  have only : ∀ other ∈ layout.places, other = place := by
    intro other mem
    rw [single] at mem
    exact List.mem_singleton.1 mem
  refine ⟨by simp [single], ?_, ?_⟩
  · intro array here isArray other there plain
    rw [only other there] at plain
    rw [only array here, plain] at isArray
    cases isArray
  · intro array here _ other there _ different
    rw [only array here, only other there] at different
    exact absurd rfl different

/-- The places of a layout are separate if slots cannot be taken for other places. -/
theorem Unambiguous.separate : ∀ {layout : Layout}, layout.Unambiguous → layout.WellFormed →
    layout.Separate
  | scalar _, _, _ | enum _, _, _ | padding _, _, _ | array _ _ _, _, _ => separate_of_single rfl
  | record name fields, unambiguous, formed => by
    have free := unambiguous (record name fields) List.mem_cons_self
    have named : ∀ place ∈ (record name fields).places, place.name ≠ "" := by
      intro place mem
      exact name_of_mem_placeAccessors formed.1 mem
    refine ⟨formed.2, ?_, ?_⟩
    · intro array here isArray other there _
      exact slotOf?_eq_none_of_free (named array here) (free array here isArray other there)
    · intro array here isArray other there isArray' different name taken found
      exact slotOf?_eq_none_of_taken (named array here) (named other there) different
        (free array here isArray other there) (free other there isArray' array here) found

/-- The places of a regular layout are separate. -/
theorem Regular.separate {layout : Layout} (regular : layout.Regular) : layout.Separate :=
  regular.unambiguous.separate regular.wellFormed

/-! ### Trees that are spread over the places -/

/-- What an array can take back into a slot: a map of which no two leaves have one name. -/
structure IsItem (slot : Nat) (item : Value) : Prop where
  /-- The slot has a number that can be read. -/
  small : slot < 18446744073709551616
  /-- No two leaves have one name. -/
  functional : Functional item.leaves
  /-- The leaves are named after the place of the item. -/
  under : ∀ address, item.leavesAt address = item.leaves.map (Value.under address)

/-- The leaves of the tree are those of parts, each of which belongs to another place. -/
structure Spread (layout : Layout) (parts : List Part) (tree : Value) : Prop where
  /-- The parts are in the order of the places. -/
  names : (parts.map (·.name)).Sublist (layout.places.map (·.name))
  /-- Each part belongs to a place. -/
  place : ∀ part ∈ parts, ∃ place ∈ layout.places,
    place.name = part.name ∧ place.content = part.content
  /-- A part that is not an array is a leaf itself. -/
  plain : ∀ part ∈ parts, part.content.isArray = false →
    part.value.leavesAt part.name = [(part.name, part.value)]
  /-- An array is a list of items. -/
  items : ∀ part ∈ parts, part.content.isArray = true → ∃ items, part.value = .list items ∧
    ∀ (slot : Nat) (item : Value), items[slot]? = some item → IsItem slot item
  /-- There are no other leaves. -/
  leaves : ∀ entry, entry ∈ tree.leaves ↔
    ∃ part ∈ parts, entry ∈ part.value.leavesAt part.name

/-- The leaves of a list of items are those of the items, named after their slots. -/
theorem mem_leavesAt_list {items : List Value}
    (each : ∀ (slot : Nat) (item : Value), items[slot]? = some item → IsItem slot item)
    {address : String} {entry : String × Value} :
    entry ∈ (Value.list items).leavesAt address ↔
      ∃ (slot : Nat) (item : Value), items[slot]? = some item ∧
        ∃ inner ∈ item.leaves, entry = Value.under (Name.join address (toString slot)) inner := by
  rw [Value.leavesAt, Value.mem_itemLeaves]
  simp only [Nat.zero_add]
  constructor
  · rintro ⟨slot, item, found, mem⟩
    rw [(each slot item found).under, List.mem_map] at mem
    obtain ⟨inner, held, rfl⟩ := mem
    exact ⟨slot, item, found, inner, held, rfl⟩
  · rintro ⟨slot, item, found, inner, held, rfl⟩
    refine ⟨slot, item, found, ?_⟩
    rw [(each slot item found).under]
    exact List.mem_map_of_mem held

/-- The name is that of the part, or the part is an array that takes it. -/
def Part.Owns (part : Part) (name : String) : Prop :=
  part.content.isArray = false ∧ name = part.name ∨
    part.content.isArray = true ∧ ∃ taken, slotOf? part.name name = some taken

/-- The entry is a leaf of an item, and the array takes it for the slot of that item. -/
def Part.InSlot (part : Part) (entry : String × Value) : Prop :=
  ∃ items, part.value = .list items ∧ ∃ (slot : Nat) (item : Value), items[slot]? = some item ∧
    ∃ inner ∈ item.leaves, entry.2 = inner.2 ∧ slotOf? part.name entry.1 = some (slot, inner.1)

/-- Two leaves of one name in the slots of an array are the same, if that is so in each item. -/
theorem Part.InSlot.eq {part : Part} {a b : String × Value} (ha : part.InSlot a)
    (hb : part.InSlot b) (same : a.1 = b.1)
    (functional : ∀ items, part.value = .list items → ∀ (slot : Nat) (item : Value),
      items[slot]? = some item → Functional item.leaves) : a = b := by
  obtain ⟨items, value, slot, item, held, inner, inside, equal, found⟩ := ha
  obtain ⟨items', value', slot', item', held', inner', inside', equal', found'⟩ := hb
  cases value.symm.trans value'
  rw [← same, found, Option.some.injEq, Prod.mk.injEq] at found'
  obtain ⟨rfl, sameField⟩ := found'
  cases held.symm.trans held'
  have below := functional items value slot item held inner inside inner' inside' sameField
  exact Prod.ext same (by rw [equal, equal', below])

/-- What an array takes from the entries for its slots are the leaves of the items. -/
def Serves (entries : Entries) (address : String) (items : List Value) : Prop :=
  ∀ (slot : Nat) (field : String) (value : Value),
    (∃ name, (name, value) ∈ entries ∧ slotOf? address name = some (slot, field)) ↔
      ∃ item, items[slot]? = some item ∧ (field, value) ∈ item.leaves

/-- The leaf names are those of the places that are no arrays. -/
theorem mem_leafNames {layout : Layout} {name : String} :
    name ∈ layout.leafNames ↔
      ∃ place ∈ layout.places, place.content.isArray = false ∧ place.name = name := by
  simp [leafNames, places, and_assoc]

/-- What remains are the entries that are named after no leaf. -/
theorem mem_remaining {layout : Layout} {flat : SortedMap String Value}
    {entry : String × Value} :
    entry ∈ layout.remaining flat ↔ entry ∈ flat.entries ∧ entry.1 ∉ layout.leafNames := by
  simp [remaining]

namespace Spread

variable {layout : Layout} {parts : List Part} {tree : Value} (separate : layout.Separate)
  (spread : Spread layout parts tree) {part a b : Part} {entry : String × Value}

include spread

/-! ### One part for each name -/

section Owners

include separate

/-- No two parts have one name. -/
theorem eq_of_name (ha : a ∈ parts) (hb : b ∈ parts) (same : a.name = b.name) : a = b :=
  List.inj_on_of_nodup_map (separate.names.sublist spread.names) ha hb same

/-- No array takes the name of a part that is not an array. -/
theorem not_takes_plain (ha : a ∈ parts) (hb : b ∈ parts) (isArray : a.content.isArray = true)
    (plain : b.content.isArray = false) : slotOf? a.name b.name = none := by
  obtain ⟨place, held, sameName, sameContent⟩ := spread.place a ha
  obtain ⟨place', held', sameName', sameContent'⟩ := spread.place b hb
  rw [← sameContent] at isArray
  rw [← sameContent'] at plain
  rw [← sameName, ← sameName']
  exact separate.plain place held isArray place' held' plain

/-- Two arrays that take one name are the same part. -/
theorem eq_of_taken (ha : a ∈ parts) (hb : b ∈ parts) (isArray : a.content.isArray = true)
    (isArray' : b.content.isArray = true) {name : String} {taken taken' : Nat × String}
    (here : slotOf? a.name name = some taken) (there : slotOf? b.name name = some taken') :
    a = b := by
  obtain ⟨place, held, sameName, sameContent⟩ := spread.place a ha
  obtain ⟨place', held', sameName', sameContent'⟩ := spread.place b hb
  by_cases equal : a.name = b.name
  · exact spread.eq_of_name separate ha hb equal
  · rw [← sameContent] at isArray
    rw [← sameContent'] at isArray'
    rw [← sameName, ← sameName'] at equal
    rw [← sameName] at here
    have untaken := separate.arrays place held isArray place' held' isArray' equal name taken here
    rw [sameName'] at untaken
    cases there.symm.trans untaken

/-- Every name is owned by one part at most. -/
theorem owner_unique (ha : a ∈ parts) (hb : b ∈ parts) {name : String} (here : a.Owns name)
    (there : b.Owns name) : a = b := by
  rcases here with ⟨plain, same⟩ | ⟨isArray, taken, found⟩
  · rcases there with ⟨plain', same'⟩ | ⟨isArray', taken', found'⟩
    · exact spread.eq_of_name separate ha hb (same.symm.trans same')
    · rw [same, spread.not_takes_plain separate hb ha isArray' plain] at found'
      cases found'
  · rcases there with ⟨plain', same'⟩ | ⟨isArray', taken', found'⟩
    · rw [same', spread.not_takes_plain separate ha hb isArray plain'] at found
      cases found
    · exact spread.eq_of_taken separate ha hb isArray isArray' found found'

end Owners

/-! ### One leaf for each name -/

/-- A leaf is that of a part as a whole, or it is in a slot. -/
theorem leaf_cases (mem : part ∈ parts) (leaf : entry ∈ part.value.leavesAt part.name) :
    part.content.isArray = false ∧ entry = (part.name, part.value) ∨
      part.content.isArray = true ∧ part.InSlot entry := by
  cases isArray : part.content.isArray with
  | false =>
    rw [spread.plain part mem isArray] at leaf
    exact Or.inl ⟨rfl, List.mem_singleton.1 leaf⟩
  | true =>
    obtain ⟨items, value, each⟩ := spread.items part mem isArray
    rw [value, mem_leavesAt_list each] at leaf
    obtain ⟨slot, item, found, inner, inside, rfl⟩ := leaf
    exact Or.inr ⟨rfl, items, value, slot, item, found, inner, inside, rfl,
      slotOf?_join (each slot item found).small part.name inner.1⟩

/-- The name of a leaf is owned by the part that the leaf is in. -/
theorem owns_of_leaf (mem : part ∈ parts) (leaf : entry ∈ part.value.leavesAt part.name) :
    part.Owns entry.1 := by
  rcases spread.leaf_cases mem leaf with ⟨plain, rfl⟩ | ⟨isArray, inSlot⟩
  · exact Or.inl ⟨plain, rfl⟩
  · obtain ⟨_, -, slot, _, -, inner, -, -, found⟩ := inSlot
    exact Or.inr ⟨isArray, _, found⟩

include separate

/-- No two leaves of the tree have one name. -/
theorem functional : Functional tree.leaves := by
  intro a ha b hb same
  obtain ⟨part, here, leaf⟩ := (spread.leaves a).1 ha
  obtain ⟨part', here', leaf'⟩ := (spread.leaves b).1 hb
  have owned := spread.owns_of_leaf here leaf
  have owned' := spread.owns_of_leaf here' leaf'
  rw [← same] at owned'
  obtain rfl := spread.owner_unique separate here here' owned owned'
  rcases spread.leaf_cases here leaf with ⟨plain, rfl⟩ | ⟨isArray, inSlot⟩
  · rw [spread.plain part here plain] at leaf'
    exact (List.mem_singleton.1 leaf').symm
  · rcases spread.leaf_cases here leaf' with ⟨plain, -⟩ | ⟨-, inSlot'⟩
    · rw [plain] at isArray
      cases isArray
    · apply inSlot.eq inSlot' same
      intro items value slot item found
      obtain ⟨_, value', each⟩ := spread.items part here isArray
      cases value.symm.trans value'
      exact (each slot item found).functional

/-! ### What the two passes find -/

/-- The flat form of the tree has its leaves as entries. -/
theorem mem_flatten_iff :
    entry ∈ tree.flatten.entries ↔ ∃ part ∈ parts, entry ∈ part.value.leavesAt part.name := by
  rw [Value.flatten, SortedMap.mem_ofList_iff (spread.functional separate), spread.leaves]

/-- The first pass finds the value of every part that is not an array. -/
theorem get?_flatten (mem : part ∈ parts) (plain : part.content.isArray = false) :
    tree.flatten.get? part.name = some part.value := by
  rw [SortedMap.get?_eq_some_iff, spread.mem_flatten_iff separate]
  refine ⟨part, mem, ?_⟩
  rw [spread.plain part mem plain]
  exact List.mem_singleton.2 rfl

/-- The first pass leaves only entries that arrays take. -/
theorem inSlot_of_mem_remaining (mem : entry ∈ layout.remaining tree.flatten) :
    ∃ part ∈ parts, part.content.isArray = true ∧ part.InSlot entry := by
  obtain ⟨held, free⟩ := mem_remaining.1 mem
  obtain ⟨part, here, leaf⟩ := (spread.mem_flatten_iff separate).1 held
  rcases spread.leaf_cases here leaf with ⟨plain, rfl⟩ | inSlot
  · obtain ⟨place, there, sameName, sameContent⟩ := spread.place part here
    rw [← sameContent] at plain
    exact absurd (mem_leafNames.2 ⟨place, there, plain, sameName⟩) free
  · exact ⟨part, here, inSlot⟩

/-- The first pass leaves the arrays what they take. -/
theorem serves_remaining (mem : part ∈ parts) {items : List Value}
    (isArray : part.content.isArray = true) (value : part.value = .list items) :
    Serves (layout.remaining tree.flatten) part.name items := by
  intro slot field leaf
  constructor
  · rintro ⟨name, held, found⟩
    obtain ⟨part', here', isArray', items', value', slot', item, listed, inner, inside, equal,
      found'⟩ := spread.inSlot_of_mem_remaining separate held
    obtain rfl := spread.eq_of_taken separate mem here' isArray isArray' found found'
    cases value.symm.trans value'
    rw [found, Option.some.injEq, Prod.mk.injEq] at found'
    obtain ⟨rfl, rfl⟩ := found'
    cases equal
    exact ⟨item, listed, inside⟩
  · rintro ⟨item, listed, inside⟩
    obtain ⟨_, value', each⟩ := spread.items part mem isArray
    cases value.symm.trans value'
    have found := slotOf?_join (each slot item listed).small part.name field
    refine ⟨_, mem_remaining.2 ⟨?_, ?_⟩, found⟩
    · rw [spread.mem_flatten_iff separate]
      refine ⟨part, mem, ?_⟩
      rw [value, mem_leavesAt_list each]
      exact ⟨slot, item, listed, _, inside, rfl⟩
    · intro free
      obtain ⟨other, held, plain, same⟩ := mem_leafNames.1 free
      obtain ⟨place, there, sameName, sameContent⟩ := spread.place part mem
      rw [← sameContent] at isArray
      have untouched := separate.plain place there isArray other held plain
      rw [sameName, same] at untouched
      cases found.symm.trans untouched

end Spread

/-! ### Fitting trees -/

section Fitting

variable {layout : Layout} {tree : Value}

/-- The leaves of a fitting tree, seen from the root of its layout. -/
theorem leaves_eq (valued : layout.isPadding = false) (fits : Fits layout tree) :
    tree.leaves = tree.leavesAt layout.rootAddress := by
  cases layout with
  | scalar kind =>
    rw [fits.leavesAt]
    cases tree with
    | list _ | map _ => exact fits.elim
    | _ => rfl
  | enum type =>
    rw [fits.leavesAt]
    cases tree with
    | label _ => rfl
    | _ => exact fits.elim
  | padding _ => cases valued
  | record _ _ =>
    obtain ⟨_, rfl, -⟩ := fits
    rfl
  | array _ _ _ =>
    obtain ⟨_, rfl, -⟩ := fits
    rfl

/-- The leaves of an item under the address of its slot. -/
theorem leavesAt_of_item (starts : layout.StartsWithIndex) (regular : layout.Regular)
    (fits : Fits layout tree) (address : String) :
    tree.leavesAt address = tree.leaves.map (Value.under address) := by
  obtain ⟨name, rest, rfl⟩ := starts
  obtain ⟨entries, rfl, -, keys, -⟩ := fits
  apply Value.entryLeaves_under address
  intro key mem
  have declared := (keys key).1 mem
  obtain ⟨content, field, -⟩ := mem_valueNames.1 declared
  rw [regular.names key (List.mem_append_left _ declared)]
  exact regular.wellFormed.1.named field

/-- A part of a fitting tree belongs to a place of the layout and has the shape of it. -/
theorem place_of_mem_parts (fits : Fits layout tree) {part : Part}
    (mem : part ∈ layout.parts tree) :
    Fits part.content part.value ∧
      ∃ place ∈ layout.places, place.name = part.name ∧ place.content = part.content :=
  place_of_mem_partsAt fits mem

/-- A part that is not an array is a leaf itself. -/
theorem leavesAt_of_plain (fits : Fits layout tree) {part : Part} (mem : part ∈ layout.parts tree)
    (plain : part.content.isArray = false) :
    part.value.leavesAt part.name = [(part.name, part.value)] := by
  obtain ⟨shape, place, held, -, sameContent⟩ := place_of_mem_parts fits mem
  obtain ⟨name, content, value⟩ := part
  cases content with
  | scalar kind => exact shape.leavesAt name
  | enum type => exact shape.leavesAt name
  | padding kind => cases isPadding_of_mem_partsAt mem
  | record typeName fields => exact absurd sameContent (content_of_mem_placesAt held _ _)
  | array typeName capacity element => cases plain

/-- A part that belongs to an array is a list of items of the shape of its element. -/
theorem items_of_mem_parts (regular : layout.Regular) (fits : Fits layout tree) {part : Part}
    (mem : part ∈ layout.parts tree) {name : String} {capacity : Nat} {element : Layout}
    (content : part.content = array name capacity element) :
    ∃ items, part.value = .list items ∧ element.Regular ∧ element.StartsWithIndex ∧
      ∀ (slot : Nat) (item : Value), items[slot]? = some item →
        (∃ n : Int64, item.item? DataType.indexField = some (.int n) ∧ n.toInt = slot) ∧
          Fits element item := by
  obtain ⟨shape, place, held, -, sameContent⟩ := place_of_mem_parts fits mem
  rw [content] at shape
  obtain ⟨items, value, -, each⟩ := shape
  obtain ⟨regular', starts⟩ := regular.element held (sameContent.trans content)
  exact ⟨items, value, regular', starts, each⟩

end Fitting

/-- A fitting tree is spread over the places of its layout. -/
theorem Regular.spread (layout : Layout) : layout.Regular → layout.isPadding = false →
    ∀ tree, Fits layout tree → Spread layout (layout.parts tree) tree := by
  -- Level by level: that no two leaves of an item have one name is known from the level below.
  induction layout using induction_on_elements with
  | step layout ih =>
    intro regular valued tree fits
    refine ⟨names_partsAt_sublist layout _ _ tree, fun part mem => (place_of_mem_parts fits mem).2,
      fun part mem => leavesAt_of_plain fits mem, ?_, ?_⟩
    · intro part mem isArray
      obtain ⟨name, capacity, element, content⟩ := isArray_iff.1 isArray
      obtain ⟨items, value, regular', starts, each⟩ := items_of_mem_parts regular fits mem content
      obtain ⟨-, place, there, -, sameContent⟩ := place_of_mem_parts fits mem
      refine ⟨items, value, fun slot item found => ?_⟩
      obtain ⟨⟨n, -, index⟩, fits'⟩ := each slot item found
      have small := n.toInt_lt
      have below := ih place there name capacity element (sameContent.trans content) regular'
        starts.isPadding item fits'
      exact ⟨by omega, below.functional regular'.separate, leavesAt_of_item starts regular' fits'⟩
    · intro entry
      rw [leaves_eq valued fits, mem_leavesAt_iff valued fits regular.names]
      rfl

end DeviceBlob.Layout
