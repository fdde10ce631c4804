import DeviceBlob.Blob.Basic
import DeviceBlob.Proofs.Blob.Slots
import DeviceBlob.Proofs.Layout.Parameters
import DeviceBlob.Proofs.Outcome

/-!
# Reading capacities and checking them

Capacities are read from the headers of a blob along its type, for the elements of an array in the
first slot only, and they are checked along the layout, in every slot.  A layout is `Headed` by
bytes if all of its headers are as it says, which is what the check looks for
(`checkCapacities_eq_ok_iff`), and then the headers lead back to the parameters that the layout was
made with (`scan_of_headed`).  So bytes can be opened without parameters exactly if they can be
opened with parameters that are those of the type and no others (`openBytes_none_iff`).
-/

namespace DeviceBlob

/-- A step for each item of a list succeeds exactly if it succeeds for each of them. -/
theorem forM_eq_ok {ε α : Type} {f : α → Except ε Unit} : ∀ {items : List α},
    items.forM f = .ok () ↔ ∀ a ∈ items, f a = .ok ()
  | [] => by simp [pure, Except.pure]
  | a :: rest => by
    rw [List.forM_eq_forM, List.forM_cons, bind_eq_ok, ← List.forM_eq_forM, List.forall_mem_cons]
    constructor
    · rintro ⟨_, here, others⟩
      exact ⟨here, forM_eq_ok.1 others⟩
    · rintro ⟨here, others⟩
      exact ⟨(), here, forM_eq_ok.2 others⟩

namespace Layout

/-! ### Headers -/

mutual

/-- Every array header in a layout that starts at the given offset holds the capacity of the
layout. -/
def Headed (bytes : Bytes) (offset : Nat) : Layout → Prop
  | record _ fields => FieldsHeaded bytes offset fields
  | array _ capacity element =>
    Slots.readWord bytes offset = capacity ∧
      ∀ slot < capacity, Headed bytes (offset + slotOffset element slot) element
  | _ => True

/-- The same for consecutive fields. -/
def FieldsHeaded (bytes : Bytes) (offset : Nat) : List (String × Layout) → Prop
  | [] => True
  | (_, layout) :: rest => Headed bytes offset layout ∧ FieldsHeaded bytes (offset + layout.size) rest

end

variable {bytes : Bytes}

mutual

/-- The check of the capacities succeeds exactly if all headers are as they should be. -/
theorem checkCapacities_eq_ok_iff : ∀ {layout : Layout} {offset : Nat},
    layout.checkCapacities bytes offset = .ok () ↔ layout.Headed bytes offset
  | scalar _, _ | enum _, _ | padding _, _ => by simp [checkCapacities, Headed]
  | record _ fields, _ => by
    rw [checkCapacities, Headed, checkFieldCapacities_eq_ok_iff]
  | array name capacity element, offset => by
    have slots : (List.range capacity).forM (fun slot =>
        checkCapacities bytes (offset + slotOffset element slot) element) = .ok () ↔
          ∀ slot < capacity, element.Headed bytes (offset + element.slotOffset slot) := by
      rw [forM_eq_ok]
      constructor
      · intro each slot inside
        exact checkCapacities_eq_ok_iff.1 (each slot (List.mem_range.2 inside))
      · intro each slot mem
        exact checkCapacities_eq_ok_iff.2 (each slot (List.mem_range.1 mem))
    rw [checkCapacities, Headed, ← slots]
    by_cases same : Slots.readWord bytes offset = capacity
    · simp [same]
    · simp [same, throw, throwThe, MonadExceptOf.throw]

/-- So does that of consecutive fields. -/
theorem checkFieldCapacities_eq_ok_iff : ∀ {fields : List (String × Layout)} {offset : Nat},
    checkFieldCapacities bytes offset fields = .ok () ↔ FieldsHeaded bytes offset fields
  | [], _ => by simp [checkFieldCapacities, FieldsHeaded]
  | (_, layout) :: rest, offset => by
    rw [checkFieldCapacities, bind_eq_ok, FieldsHeaded]
    constructor
    · rintro ⟨_, here, there⟩
      exact ⟨checkCapacities_eq_ok_iff.1 here, checkFieldCapacities_eq_ok_iff.1 there⟩
    · rintro ⟨here, there⟩
      exact ⟨(), checkCapacities_eq_ok_iff.2 here, checkFieldCapacities_eq_ok_iff.2 there⟩

end

/-- Bytes have the shape of a layout exactly if they are enough and all headers hold their
capacities. -/
theorem checkShape_eq_ok_iff {layout : Layout} :
    layout.checkShape bytes = .ok () ↔ layout.size ≤ bytes.length ∧ layout.Headed bytes 0 := by
  unfold checkShape
  by_cases short : bytes.length < layout.size
  · have : ¬layout.size ≤ bytes.length := Nat.not_le.2 short
    simp [short, this, throw, throwThe, MonadExceptOf.throw]
  · have room : layout.size ≤ bytes.length := Nat.not_lt.1 short
    rw [if_neg short]
    simp only [checkCapacities_eq_ok_iff, room, true_and]

/-- The headers behind some fields hold their capacities if all do. -/
theorem FieldsHeaded.drop : ∀ {front back : List (String × Layout)} {offset : Nat},
    FieldsHeaded bytes offset (front ++ back) → FieldsHeaded bytes (offset + fieldsSize front) back
  | [], _, _, h => h
  | (_, layout) :: rest, _, offset, h => by
    have others : FieldsHeaded bytes (offset + layout.size) (rest ++ _) := h.2
    have behind := others.drop
    rwa [Nat.add_assoc] at behind

end Layout

namespace Compiler

variable {compiler : Compiler} {bytes : Bytes}

/-! ### Reading the headers -/

/-- A header gives a capacity exactly if it is inside the bytes and its number is in range. -/
theorem headerCapacity_eq_ok_iff {typeName : String} {offset capacity : Nat} :
    compiler.headerCapacity typeName bytes offset = .ok capacity ↔
      offset + 8 ≤ bytes.length ∧ Slots.readWord bytes offset = capacity ∧
        1 ≤ capacity ∧ capacity ≤ compiler.maxParameter := by
  unfold headerCapacity
  by_cases cut : bytes.length < offset + Layout.headerSize
  · have : ¬offset + 8 ≤ bytes.length := Nat.not_le.2 cut
    simp [cut, this]
  · have room : offset + 8 ≤ bytes.length := Nat.not_lt.1 cut
    by_cases range : 1 ≤ Slots.readWord bytes offset ∧
        Slots.readWord bytes offset ≤ compiler.maxParameter
    · simp only [cut, range, room, if_true, if_false, and_self, true_and, Except.ok.injEq]
      omega
    · simp only [cut, range, room, if_false, reduceCtorEq, true_and, false_iff]
      omega

/-- The capacities of a layout as parameters below the given name. -/
def entriesUnder (parent : String) (layout : Layout) : List (String × Int64) :=
  (layout.capacitiesUnder parent).map fun (name, capacity) => (name, Int64.ofNat capacity)

/-- The same for the fields of a record. -/
def fieldEntries (parent : String) (fields : List (String × Layout)) : List (String × Int64) :=
  (Layout.fieldCapacities parent fields).map fun (name, capacity) => (name, Int64.ofNat capacity)

/-- The entries of fields are those of the first one and those of the rest, and padding has none. -/
theorem fieldEntries_cons (parent name : String) (layout : Layout) (runs : List VectorRun)
    (position : Nat) (rest : List (String × Layout)) :
    fieldEntries parent ((name, layout) :: (Layout.paddingBehind runs position ++ rest)) =
      entriesUnder (Name.join parent name) layout ++ fieldEntries parent rest := by
  rw [fieldEntries, Layout.fieldCapacities, Layout.fieldCapacities_append,
    Layout.fieldCapacities_paddingBehind, List.nil_append, List.map_append]
  rfl

/-- A plain type has no capacities. -/
theorem entriesUnder_of_isPlain {packing : Packing} {type : DataType} {params : Params}
    {layout : Layout} (parent : String) (buildable : type.Buildable) (plain : type.isPlain = true)
    (placed : Layout.place packing params type = .ok layout) : entriesUnder parent layout = [] := by
  have lists := Layout.lists_of_place parent buildable placed
  rw [DataType.parameterNames, DataType.parametersUnder_of_isPlain "" plain] at lists
  rw [entriesUnder, List.forall₂_nil_left_iff.1 lists, List.map_nil]

/-- A scan pads as the compiler does. -/
@[simp] theorem scanner_packing : (compiler.scanner bytes).packing = compiler.packing := rfl

/-- A scan measures parts without parameters by their layouts. -/
@[simp] theorem scanner_plainLayout (type : DataType) :
    (compiler.scanner bytes).plainLayout type = compiler.plainLayout type := rfl

/-- A scan reads capacities from headers. -/
@[simp] theorem scanner_capacity (typeName : String) (offset : Nat) :
    (compiler.scanner bytes).capacity typeName offset =
      compiler.headerCapacity typeName bytes offset := rfl

mutual

/-- Headers that are as a layout says lead to its size and to its capacities. -/
theorem scan_of_headed : ∀ {type : DataType} {params : Params} {layout : Layout} {offset : Nat}
    (parent : String), type.Buildable → Layout.place compiler.packing params type = .ok layout →
      params.InRange compiler.maxParameter type.parameterNames →
      offset + layout.size ≤ bytes.length → layout.Headed bytes offset →
        (compiler.scanner bytes).scan offset parent type =
          .ok (layout.size, entriesUnder parent layout)
  | .scalar _, _, _, _, _, _, placed, _, _, _ | .enum _, _, _, _, _, _, placed, _, _, _ => by
    cases placed
    rfl
  | .record name fields, params, layout, offset, parent, buildable, placed, range, room, headed => by
    rw [Scanner.scan]
    by_cases plain : DataType.fieldsPlain fields = true
    · rw [if_pos plain, scanner_plainLayout, plainLayout_eq_ok buildable plain placed,
        entriesUnder_of_isPlain parent buildable plain placed]
      rfl
    · obtain ⟨parts, all, -, rfl⟩ := Layout.place_record_eq_ok_iff.1 placed
      rw [if_neg plain]
      exact scanFields_of_headed parent buildable.named buildable.of_mem_fields all range room headed
  | .array name element, params, _, offset, parent, buildable, placed, range, room, headed => by
    obtain ⟨capacity, item, found, below, rfl⟩ := Layout.place_array_eq_ok_iff.1 placed
    obtain ⟨value, held, low, rfl⟩ := Layout.capacityOf_eq_ok_iff.1 found
    rw [DataType.parameterNames_array buildable.element] at range
    obtain ⟨other, held', least, most⟩ := range _ List.mem_cons_self
    cases held.symm.trans held'
    have some_slot : 0 < value.toInt.toNat := by omega
    -- There is a first slot, and it is inside the array.
    have first : item.slotOffset 0 + item.size ≤ item.slotOffset value.toInt.toNat :=
      Slots.slotOffset_add_le some_slot
    have start : item.slotOffset 0 = Layout.headerSize := by
      simp [Layout.slotOffset]
    have whole : (Layout.array name value.toInt.toNat item).size =
        item.slotOffset value.toInt.toNat := rfl
    have header : Layout.headerSize = 8 := rfl
    have capacity : compiler.headerCapacity name bytes offset = .ok value.toInt.toNat :=
      headerCapacity_eq_ok_iff.2 ⟨by omega, headed.1, by omega, by omega⟩
    have element_headed := headed.2 0 some_slot
    rw [start] at element_headed
    have inner := scan_of_headed (Name.join parent DataType.itemPrefix) buildable.element below
      (Params.InRange.inside (by decide) fun name mem => range name (List.mem_cons_of_mem _ mem))
      (by omega) element_headed
    rw [Scanner.scan, scanner_capacity, capacity, ok_bind, inner, ok_bind]
    rfl

/-- So do those of consecutive fields. -/
theorem scanFields_of_headed {runs : List VectorRun} : ∀ {fields : List (String × DataType)}
    {position : Nat} {params : Params} {parts : List (String × Layout)} {offset : Nat}
    (parent : String), (∀ field ∈ fields, field.1 ≠ "") → (∀ field ∈ fields, field.2.Buildable) →
      Layout.placeAll compiler.packing params runs position fields = .ok parts →
      params.InRange compiler.maxParameter (DataType.fieldParameters "" fields) →
      offset + Layout.fieldsSize parts ≤ bytes.length → Layout.FieldsHeaded bytes offset parts →
        (compiler.scanner bytes).scanFields offset parent runs position fields =
          .ok (Layout.fieldsSize parts, fieldEntries parent parts)
  | [], _, _, _, _, _, _, _, placed, _, _, _ => by
    cases placed
    rfl
  | (name, type) :: rest, position, params, _, offset, parent, named, buildable, placed, range, room,
      headed => by
    obtain ⟨layout, others, here, there, rfl⟩ := Layout.placeAll_cons_eq_ok_iff.1 placed
    have part : type.Buildable := buildable _ List.mem_cons_self
    rw [DataType.fieldParameters_cons part] at range
    have size : Layout.fieldsSize ((name, layout) :: (Layout.paddingBehind runs position ++ others)) =
        layout.size + Scanner.paddingSize runs position + Layout.fieldsSize others := by
      rw [Layout.fieldsSize_cons, Layout.fieldsSize_append, ← Nat.add_assoc]
      rfl
    rw [size] at room
    have front := scan_of_headed (Name.join parent name) part here
      (Params.InRange.inside (named _ List.mem_cons_self)
        fun name mem => range name (List.mem_append_left _ mem))
      (by omega) headed.1
    have behind_headed :
        Layout.FieldsHeaded bytes (offset + (layout.size + Scanner.paddingSize runs position)) others := by
      rw [← Nat.add_assoc]
      exact Layout.FieldsHeaded.drop headed.2
    have behind := scanFields_of_headed parent
      (fun field mem => named field (List.mem_cons_of_mem _ mem))
      (fun field mem => buildable field (List.mem_cons_of_mem _ mem)) there
      (fun name mem => range name (List.mem_append_right _ mem)) (by omega) behind_headed
    rw [Scanner.scanFields, front, ok_bind]
    simp only
    rw [behind, ok_bind, size, fieldEntries_cons]
    rfl

end

mutual

/-- What is read from the headers are the parameters of the type. -/
theorem names_of_scan : ∀ {type : DataType} {offset size : Nat} {parent : String}
    {entries : List (String × Int64)},
      (compiler.scanner bytes).scan offset parent type = .ok (size, entries) →
        entries.map (·.1) = type.parametersUnder parent
  | .scalar _, _, _, _, _, h | .enum _, _, _, _, _, h => by
    obtain ⟨layout, -, same⟩ := bind_eq_ok.1 h
    cases same
    rfl
  | .record name fields, offset, _, parent, _, h => by
    rw [Scanner.scan] at h
    split at h
    · next plain =>
      obtain ⟨layout, -, same⟩ := bind_eq_ok.1 h
      cases same
      exact (DataType.fieldParameters_of_fieldsPlain parent plain).symm
    · exact names_of_scanFields h
  | .array name element, offset, _, parent, _, h => by
    rw [Scanner.scan] at h
    obtain ⟨capacity, -, h⟩ := bind_eq_ok.1 h
    obtain ⟨⟨size, others⟩, below, same⟩ := bind_eq_ok.1 h
    cases same
    rw [List.map_cons, names_of_scan below]
    rfl

/-- So it is for those of consecutive fields. -/
theorem names_of_scanFields {runs : List VectorRun} : ∀ {fields : List (String × DataType)}
    {offset position size : Nat} {parent : String} {entries : List (String × Int64)},
      (compiler.scanner bytes).scanFields offset parent runs position fields =
          .ok (size, entries) → entries.map (·.1) = DataType.fieldParameters parent fields
  | [], _, _, _, _, _, h => by
    cases h
    rfl
  | (name, type) :: rest, _, _, _, _, _, h => by
    rw [Scanner.scanFields] at h
    obtain ⟨⟨size, here⟩, first, h⟩ := bind_eq_ok.1 h
    obtain ⟨⟨others, behind⟩, second, same⟩ := bind_eq_ok.1 h
    cases same
    rw [List.map_append, names_of_scan first, names_of_scanFields second]
    rfl

end

/-- The parameters that are found in bytes are those of the type. -/
theorem keys_paramsOfBytes {type : DataType} {params : Params}
    (h : compiler.paramsOfBytes type bytes = .ok params) (name : String) :
    name ∈ params.values.keys ↔ name ∈ type.parameterNames := by
  obtain ⟨⟨size, entries⟩, scanned, same⟩ := bind_eq_ok.1 h
  cases same
  rw [DataType.parameterNames, ← names_of_scan scanned]
  exact SortedMap.mem_keys_ofList

/-- Bytes that a layout heads hold its parameters. -/
theorem paramsOfBytes_of_headed {type : DataType} {params : Params} {layout : Layout}
    (buildable : type.Buildable) (compiled : compiler.layout type params = .ok layout)
    (room : layout.size ≤ bytes.length) (headed : layout.Headed bytes 0) :
    compiler.paramsOfBytes type bytes = .ok layout.params := by
  obtain ⟨required, checked, placed⟩ := layout_eq_ok_iff.1 compiled
  have range : required.InRange compiler.maxParameter type.parameterNames := by
    intro name mem
    obtain ⟨value, -, kept, range⟩ := Params.requiredBy_ok checked name mem
    exact ⟨value, kept, range⟩
  rw [paramsOfBytes, Scanner.params, scan_of_headed "" buildable placed range (by omega) headed]
  rfl

end Compiler

namespace Blob

variable {compiler : Compiler} {type : DataType} {bytes : Bytes} {blob : Blob}

/-! ### Opening bytes -/

/-- Bytes can be opened with parameters if these give a layout that the bytes are long enough for
and that all array headers agree with. -/
theorem openBytes_some_iff {params : Params} :
    openBytes compiler type bytes (some params) = .ok blob ↔
      compiler.layout type params = .ok blob.layout ∧ blob.bytes = bytes ∧
        blob.layout.size ≤ bytes.length ∧ blob.layout.Headed bytes 0 := by
  simp only [openBytes, ok_bind, bind_eq_ok]
  constructor
  · rintro ⟨layout, compiled, _, checked, opened⟩
    obtain ⟨room, headed⟩ := Layout.checkShape_eq_ok_iff.1 checked
    rw [ofBytes, if_neg (Nat.not_lt.2 room)] at opened
    cases opened
    exact ⟨compiled, rfl, room, headed⟩
  · obtain ⟨layout, held⟩ := blob
    rintro ⟨compiled, rfl, room, headed⟩
    refine ⟨layout, compiled, (), Layout.checkShape_eq_ok_iff.2 ⟨room, headed⟩, ?_⟩
    rw [ofBytes, if_neg (Nat.not_lt.2 room)]

/-- Without parameters bytes are opened with those that they hold. -/
theorem openBytes_none_eq_ok :
    openBytes compiler type bytes none = .ok blob ↔
      ∃ params, compiler.paramsOfBytes type bytes = .ok params ∧
        openBytes compiler type bytes (some params) = .ok blob := by
  simp only [openBytes, ok_bind, bind_eq_ok]

/-- Bytes that can be opened with some parameters hold the parameters of the layout. -/
theorem openBytes_none_of_some {params : Params} (buildable : type.Buildable)
    (opened : openBytes compiler type bytes (some params) = .ok blob) :
    compiler.paramsOfBytes type bytes = .ok blob.layout.params ∧
      openBytes compiler type bytes none = .ok blob := by
  obtain ⟨compiled, same, room, headed⟩ := openBytes_some_iff.1 opened
  have found := Compiler.paramsOfBytes_of_headed buildable compiled room headed
  have again := Compiler.layout_params buildable compiled
  exact ⟨found, openBytes_none_eq_ok.2
    ⟨_, found, openBytes_some_iff.2 ⟨again, same, room, headed⟩⟩⟩

/-- Bytes can be opened without parameters exactly if they can be opened with parameters that are
those of the type and no others. -/
theorem openBytes_none_iff {params : Params} (buildable : type.Buildable) :
    (openBytes compiler type bytes none = .ok blob ∧ blob.layout.params = params) ↔
      (∀ name, name ∈ params.values.keys ↔ name ∈ type.parameterNames) ∧
        openBytes compiler type bytes (some params) = .ok blob := by
  constructor
  · rintro ⟨opened, rfl⟩
    obtain ⟨params, found, given⟩ := openBytes_none_eq_ok.1 opened
    have keys := Compiler.keys_paramsOfBytes found
    have compiled := (openBytes_some_iff.1 given).1
    rw [Compiler.params_layout buildable (fun name mem => (keys name).1 mem) compiled]
    exact ⟨keys, given⟩
  · rintro ⟨keys, given⟩
    have compiled := (openBytes_some_iff.1 given).1
    exact ⟨(openBytes_none_of_some buildable given).2,
      Compiler.params_layout buildable (fun name mem => (keys name).1 mem) compiled⟩

end Blob

end DeviceBlob
