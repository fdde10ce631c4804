import DeviceBlob.Proofs.Blob.Infer
import DeviceBlob.Proofs.Blob.View

/-!
# Nothing is read outside the bytes

The readers of this library cut their slices out of the bytes by `take` and `drop`, which are silent
where the bytes end too early.  Here each reader stands once more, with slices that are looked up
(`slice?`): such a reader has no result at all if it asks for a byte that is not there.  The two
agree on everything that can be opened, so no reader ever asks for such a byte: `checked_openBytes`
says so of opening arbitrary bytes, and `Readable.inBounds` of all that can be read from what was
opened.
-/

namespace DeviceBlob

/-- The bytes from an offset on, as many as the length says, if they are there. -/
def Bytes.slice? (bytes : Bytes) (offset length : Nat) : Option Bytes :=
  if offset + length ≤ bytes.length then some (bytes.slice offset length) else none

/-- Bytes that are there are found. -/
theorem Bytes.slice?_of_le {bytes : Bytes} {offset length : Nat}
    (room : offset + length ≤ bytes.length) :
    bytes.slice? offset length = some (bytes.slice offset length) :=
  if_pos room

/-! ### Steps that always have a result -/

/-- A search that looks at every item finds what is found without looking. -/
theorem findM?_eq_some {α : Type} {p? : α → Option Bool} {p : α → Bool} : ∀ {items : List α},
    (∀ a ∈ items, p? a = some (p a)) → items.findM? p? = some (items.find? p)
  | [], _ => rfl
  | a :: rest, each => by
    rw [List.findM?, each a List.mem_cons_self, List.find?,
      findM?_eq_some fun other mem => each other (List.mem_cons_of_mem _ mem)]
    cases p a <;> rfl

/-! ### Arrays -/

namespace Slots

variable {element : Layout} {capacity : Nat} {bytes : Bytes}

/-- The 32-bit integer at an offset, if its bytes are there. -/
def readWord? (bytes : Bytes) (offset : Nat) : Option Int :=
  (bytes.slice? offset wordSize).map Bytes.toInt

/-- The index at the start of a slot, if its bytes are there. -/
def indexAt? (element : Layout) (bytes : Bytes) (i : Nat) : Option Int :=
  readWord? bytes (element.slotOffset i)

/-- The bytes of a slot, if they are there. -/
def slot? (element : Layout) (bytes : Bytes) (i : Nat) : Option Bytes :=
  bytes.slice? (element.slotOffset i) element.size

/-- The numbers of the slots that hold an element, if all indices are there. -/
def present? (capacity : Nat) (element : Layout) (bytes : Bytes) : Option (List Nat) := do
  let marked ← (List.range capacity).mapM fun i => do
    return (i, decide (emptyIndex < (← indexAt? element bytes i)))
  return (marked.filter (·.2)).map (·.1)

/-- The slots that hold an element with their numbers, if all their bytes are there. -/
def occupied? (capacity : Nat) (element : Layout) (bytes : Bytes) :
    Option (List (Nat × Bytes)) := do
  (← present? capacity element bytes).mapM fun i => do return (i, ← slot? element bytes i)

/-- A number inside the bytes is read. -/
theorem readWord?_of_le {offset : Nat} (room : offset + 4 ≤ bytes.length) :
    readWord? bytes offset = some (readWord bytes offset) := by
  have word : bytes.slice? offset wordSize = some (bytes.slice offset wordSize) :=
    Bytes.slice?_of_le room
  rw [readWord?, word]
  rfl

/-- The index of each slot is found where there is room for all slots. -/
theorem indexAt?_eq (small : 4 ≤ element.size) (room : Holds capacity element bytes) {i : Nat}
    (inside : i < capacity) : indexAt? element bytes i = some (indexAt element bytes i) := by
  have last := room.slot inside
  exact readWord?_of_le (by omega)

/-- Each slot is found where there is room for all slots. -/
theorem slot?_eq (room : Holds capacity element bytes) {i : Nat} (inside : i < capacity) :
    slot? element bytes i = some (slot element bytes i) :=
  Bytes.slice?_of_le (room.slot inside)

/-- The present slots are found. -/
theorem present?_eq (small : 4 ≤ element.size) (room : Holds capacity element bytes) :
    present? capacity element bytes = some (present capacity element bytes) := by
  have marked : ((List.range capacity).mapM fun i => do
      return (i, decide (emptyIndex < (← indexAt? element bytes i)))) =
        some ((List.range capacity).map fun i => (i, isOccupied (slot element bytes i))) := by
    refine mapM_eq_some fun i mem => ?_
    rw [indexAt?_eq small room (List.mem_range.1 mem), indexAt_eq_readWord_slot small]
    rfl
  have kept : (((List.range capacity).map fun i => (i, isOccupied (slot element bytes i))).filter
      (·.2)).map (·.1) = (List.range capacity).filter fun i => isOccupied (slot element bytes i) := by
    rw [List.filter_map, List.map_map]
    exact List.map_id _
  rw [present?, marked, present_eq, ← kept]
  rfl

/-- What is listed for a slot is what the slot holds. -/
theorem mem_occupied {i : Nat} {content : Bytes}
    (mem : (i, content) ∈ occupied capacity element bytes) :
    i < capacity ∧ content = slot element bytes i := by
  rw [occupied_eq] at mem
  obtain ⟨_, kept, same⟩ := List.mem_map.1 mem
  cases same
  exact ⟨List.mem_range.1 (List.mem_filter.1 kept).1, rfl⟩

/-- The contents of the present slots are found. -/
theorem occupied?_eq (small : 4 ≤ element.size) (room : Holds capacity element bytes) :
    occupied? capacity element bytes = some (occupied capacity element bytes) := by
  have each : (present capacity element bytes).mapM
      (fun i => do return (i, ← slot? element bytes i)) =
        some ((present capacity element bytes).map fun i => (i, slot element bytes i)) := by
    refine mapM_eq_some fun i mem => ?_
    rw [present_eq] at mem
    rw [slot?_eq room (List.mem_range.1 (List.mem_filter.1 mem).1)]
    rfl
  rw [occupied?, present?_eq small room, occupied_eq, ← present_eq, ← each]
  rfl

end Slots

namespace Layout

/-! ### Value trees and texts -/

mutual

/-- `flatAt` with slices that are looked up. -/
def flatAt? (bytes : Bytes) (address : String) (offset : Nat) :
    Layout → Option (List (String × Value))
  | record _ fields => flatFields? bytes address offset fields
  | padding _ => some []
  | scalar kind => do return [(address, kind.read (← bytes.slice? offset kind.width))]
  | enum type => do return [(address, type.read (← bytes.slice? offset 4))]
  | array name capacity element => do
    let region ← bytes.slice? offset (size (.array name capacity element))
    let items ← (← Slots.occupied? capacity element region).mapM fun (_, content) => do
      return Value.ofEntries (← flatAt? content "" 0 element)
    return [(address, .list items)]

/-- `flatFields` with slices that are looked up. -/
def flatFields? (bytes : Bytes) (address : String) (offset : Nat) :
    List (String × Layout) → Option (List (String × Value))
  | [] => some []
  | (name, layout) :: rest => do
    return (← flatAt? bytes (Name.join address name) offset layout) ++
      (← flatFields? bytes address (offset + layout.size) rest)

end

/-- `flatTree` with slices that are looked up. -/
def flatTree? (bytes : Bytes) : Layout → Option Value
  | array _ capacity element => do
    let items ← (← Slots.occupied? capacity element bytes).mapM fun (_, content) => do
      return Value.ofEntries (← flatAt? content "" 0 element)
    return .list items
  | record _ fields => do return .ofEntries (← flatFields? bytes "" 0 fields)
  | leaf => do return .ofEntries (← flatAt? bytes Value.rootField 0 leaf)

mutual

/-- `nestedValue` with slices that are looked up. -/
def nestedValue? (bytes : Bytes) : Layout → Option Value
  | scalar kind => some (kind.read bytes)
  | enum type => some (type.read bytes)
  | padding kind => some (kind.read bytes)
  | record _ fields => do return .ofEntries (← nestedFields? bytes 0 fields)
  | array _ capacity element => do
    let items ← (← Slots.occupied? capacity element bytes).mapM fun (_, content) =>
      nestedValue? content element
    return .list items

/-- `nestedFields` with slices that are looked up. -/
def nestedFields? (bytes : Bytes) (offset : Nat) :
    List (String × Layout) → Option (List (String × Value))
  | [] => some []
  | (name, layout) :: rest => do
    let here ← if layout.isPadding then some []
      else (bytes.slice? offset layout.size).bind fun part =>
        (nestedValue? part layout).map fun value => [(name, value)]
    return here ++ (← nestedFields? bytes (offset + layout.size) rest)

end

/-- `nestedTree` with slices that are looked up. -/
def nestedTree? (bytes : Bytes) (layout : Layout) : Option Value :=
  match layout with
  | record _ _ => nestedValue? bytes layout
  | array _ _ _ => nestedValue? bytes layout
  | leaf => do return .ofEntries (← nestedFields? bytes 0 [(Value.rootField, leaf)])

mutual

/-- `textsAt` with slices that are looked up. -/
def textsAt? (bytes : Bytes) (address : String) (offset : Nat) :
    Layout → Option (List (String × String))
  | record _ fields => fieldTexts? bytes address offset fields
  | padding _ => some []
  | scalar kind => do return [(address, (kind.read (← bytes.slice? offset kind.width)).text)]
  | enum type => do return [(address, (type.read (← bytes.slice? offset 4)).text)]
  | array name capacity element => do
    let region ← bytes.slice? offset (size (.array name capacity element))
    let items ← (← Slots.occupied? capacity element region).mapM fun (slot, content) =>
      textsAt? content (Name.join address (toString slot)) 0 element
    return (Name.join address "capacity", toString capacity) :: items.flatten

/-- `fieldTexts` with slices that are looked up. -/
def fieldTexts? (bytes : Bytes) (address : String) (offset : Nat) :
    List (String × Layout) → Option (List (String × String))
  | [] => some []
  | (name, layout) :: rest => do
    return (← textsAt? bytes (Name.join address name) offset layout) ++
      (← fieldTexts? bytes address (offset + layout.size) rest)

end

/-- `texts` with slices that are looked up. -/
def texts? (layout : Layout) (bytes : Bytes) : Option (SortedMap String String) := do
  return SortedMap.ofList (← layout.textsAt? bytes layout.rootAddress 0)

/-! ### The two ways to read agree -/

/-- The bytes of an array within others are enough for its slots. -/
theorem holds_slice {bytes : Bytes} {offset capacity : Nat} {name : String} {element : Layout}
    (room : offset + (array name capacity element).size ≤ bytes.length) :
    Slots.Holds capacity element (bytes.slice offset (array name capacity element).size) :=
  Nat.le_of_eq (Bytes.length_slice room).symm

/-- A step for the content of each occupied slot, of which all bytes are there. -/
theorem mapM_occupied {α : Type} {capacity : Nat} {element : Layout} {bytes : Bytes}
    {f : Nat × Bytes → Option α} {g : Nat × Bytes → α}
    (room : Slots.Holds capacity element bytes)
    (each : ∀ i content, 0 + element.size ≤ content.length → f (i, content) = some (g (i, content))) :
    (Slots.occupied capacity element bytes).mapM f =
      some ((Slots.occupied capacity element bytes).map g) := by
  refine mapM_eq_some ?_
  rintro ⟨i, content⟩ mem
  obtain ⟨inside, rfl⟩ := Slots.mem_occupied mem
  exact each _ _ (by rw [Slots.length_slot room inside]; omega)

mutual

/-- The flattened values of a part are read inside the bytes that the part has. -/
theorem flatAt?_eq : ∀ {layout : Layout} {bytes : Bytes} {address : String} {offset : Nat},
    layout.WellFormed → offset + layout.size ≤ bytes.length →
      layout.flatAt? bytes address offset = some (layout.flatAt bytes address offset)
  | scalar kind, bytes, _, offset, _, room => by
    have there : bytes.slice? offset kind.width = _ := Bytes.slice?_of_le room
    rw [flatAt?, there]
    rfl
  | enum _, bytes, _, offset, _, room => by
    have there : bytes.slice? offset 4 = _ := Bytes.slice?_of_le room
    rw [flatAt?, there]
    rfl
  | padding _, _, _, _, _, _ => rfl
  | record _ _, _, _, _, formed, room => flatFields?_eq formed.1 room
  | array name capacity element, bytes, _, offset, formed, room => by
    have holds := holds_slice room
    have items := mapM_occupied holds
      (f := fun entry => do return Value.ofEntries (← flatAt? entry.2 "" 0 element))
      (g := fun entry => Value.ofEntries (flatAt entry.2 "" 0 element)) fun i content all => by
        rw [flatAt?_eq formed.2 all]
        rfl
    rw [flatAt?, Bytes.slice?_of_le room, Option.bind_eq_bind, Option.bind_some,
      Slots.occupied?_eq formed.1.four_le_size holds, Option.bind_eq_bind, Option.bind_some, items]
    rfl

/-- So are those of consecutive fields. -/
theorem flatFields?_eq : ∀ {fields : List (String × Layout)} {bytes : Bytes} {address : String}
    {offset : Nat}, FieldsWellFormed fields → offset + fieldsSize fields ≤ bytes.length →
      flatFields? bytes address offset fields = some (flatFields bytes address offset fields)
  | [], _, _, _, _, _ => rfl
  | (_, layout) :: rest, _, _, _, formed, room => by
    change _ + (layout.size + fieldsSize rest) ≤ _ at room
    rw [flatFields?, flatAt?_eq formed.2.1 (by omega), flatFields?_eq formed.2.2 (by omega)]
    rfl

end

/-- The flattened tree of a blob is read inside its bytes. -/
theorem flatTree?_eq {layout : Layout} {bytes : Bytes} (formed : layout.WellFormed)
    (room : layout.size ≤ bytes.length) : layout.flatTree? bytes = some (layout.flatTree bytes) := by
  have whole : 0 + layout.size ≤ bytes.length := by omega
  cases layout with
  | scalar kind | enum type | padding kind =>
    simp only [flatTree?, flatAt?_eq formed whole]
    rfl
  | record name fields =>
    rw [flatTree?, flatFields?_eq formed.1 whole]
    rfl
  | array name capacity element =>
    have items := mapM_occupied room
      (f := fun entry => do return Value.ofEntries (← flatAt? entry.2 "" 0 element))
      (g := fun entry => Value.ofEntries (flatAt entry.2 "" 0 element)) fun i content all => by
        rw [flatAt?_eq formed.2 all]
        rfl
    rw [flatTree?, Slots.occupied?_eq formed.1.four_le_size room, Option.bind_eq_bind,
      Option.bind_some, items]
    rfl

mutual

/-- The nested value of a part is read inside the bytes that the part has. -/
theorem nestedValue?_eq : ∀ {layout : Layout} {bytes : Bytes}, layout.WellFormed →
    layout.size ≤ bytes.length → layout.nestedValue? bytes = some (layout.nestedValue bytes)
  | scalar _, _, _, _ | enum _, _, _, _ | padding _, _, _, _ => rfl
  | record _ fields, _, formed, room => by
    rw [size_record] at room
    rw [nestedValue?, nestedFields?_eq formed.1 (by omega)]
    rfl
  | array name capacity element, _, formed, room => by
    have items := mapM_occupied room (f := fun entry => nestedValue? entry.2 element)
      (g := fun entry => nestedValue entry.2 element) fun i content all =>
        nestedValue?_eq formed.2 (Nat.zero_add element.size ▸ all)
    rw [nestedValue?, Slots.occupied?_eq formed.1.four_le_size room, Option.bind_eq_bind,
      Option.bind_some, items]
    rfl

/-- So are those of consecutive fields. -/
theorem nestedFields?_eq : ∀ {fields : List (String × Layout)} {bytes : Bytes} {offset : Nat},
    FieldsWellFormed fields → offset + fieldsSize fields ≤ bytes.length →
      nestedFields? bytes offset fields = some (nestedFields bytes offset fields)
  | [], _, _, _, _ => rfl
  | (name, layout) :: rest, bytes, offset, formed, room => by
    change _ + (layout.size + fieldsSize rest) ≤ _ at room
    have part : offset + layout.size ≤ bytes.length := by omega
    have value := nestedValue?_eq formed.2.1 (Nat.le_of_eq (Bytes.length_slice part).symm)
    rw [nestedFields?, nestedFields?_eq formed.2.2 (by omega), nestedFields]
    cases layout.isPadding with
    | true => rfl
    | false =>
      simp only [Bytes.slice?_of_le part, Bool.false_eq_true, if_false, Option.bind_some, value]
      rfl

end

/-- The nested tree of a blob is read inside its bytes. -/
theorem nestedTree?_eq {layout : Layout} {bytes : Bytes} (formed : layout.WellFormed)
    (room : layout.size ≤ bytes.length) :
    layout.nestedTree? bytes = some (layout.nestedTree bytes) := by
  cases layout with
  | scalar kind | enum type | padding kind =>
    have named : Value.rootField ≠ "" := by decide
    simp only [nestedTree?]
    rw [nestedFields?_eq (show FieldsWellFormed [(Value.rootField, _)] from
      ⟨named, formed, trivial⟩) (by simpa using room)]
    rfl
  | record name fields => exact nestedValue?_eq formed room
  | array name capacity element => exact nestedValue?_eq formed room

mutual

/-- The texts that are compared for a part are read inside the bytes that the part has. -/
theorem textsAt?_eq : ∀ {layout : Layout} {bytes : Bytes} {address : String} {offset : Nat},
    layout.WellFormed → offset + layout.size ≤ bytes.length →
      layout.textsAt? bytes address offset = some (layout.textsAt bytes address offset)
  | scalar kind, bytes, _, offset, _, room => by
    have there : bytes.slice? offset kind.width = _ := Bytes.slice?_of_le room
    rw [textsAt?, there]
    rfl
  | enum _, bytes, _, offset, _, room => by
    have there : bytes.slice? offset 4 = _ := Bytes.slice?_of_le room
    rw [textsAt?, there]
    rfl
  | padding _, _, _, _, _, _ => rfl
  | record _ _, _, _, _, formed, room => fieldTexts?_eq formed.1 room
  | array name capacity element, bytes, address, offset, formed, room => by
    have holds := holds_slice room
    have items := mapM_occupied holds
      (f := fun entry => textsAt? entry.2 (Name.join address (toString entry.1)) 0 element)
      (g := fun entry => textsAt entry.2 (Name.join address (toString entry.1)) 0 element)
      fun i content all => textsAt?_eq formed.2 all
    rw [textsAt?, Bytes.slice?_of_le room, Option.bind_eq_bind, Option.bind_some,
      Slots.occupied?_eq formed.1.four_le_size holds, Option.bind_eq_bind, Option.bind_some, items]
    rfl

/-- So are those of consecutive fields. -/
theorem fieldTexts?_eq : ∀ {fields : List (String × Layout)} {bytes : Bytes} {address : String}
    {offset : Nat}, FieldsWellFormed fields → offset + fieldsSize fields ≤ bytes.length →
      fieldTexts? bytes address offset fields = some (fieldTexts bytes address offset fields)
  | [], _, _, _, _, _ => rfl
  | (_, layout) :: rest, _, _, _, formed, room => by
    change _ + (layout.size + fieldsSize rest) ≤ _ at room
    rw [fieldTexts?, textsAt?_eq formed.2.1 (by omega), fieldTexts?_eq formed.2.2 (by omega)]
    rfl

end

/-- The texts of a blob are read inside its bytes. -/
theorem texts?_eq {layout : Layout} {bytes : Bytes} (formed : layout.WellFormed)
    (room : layout.size ≤ bytes.length) : layout.texts? bytes = some (layout.texts bytes) := by
  rw [texts?, textsAt?_eq formed (by omega)]
  rfl

end Layout

end DeviceBlob
