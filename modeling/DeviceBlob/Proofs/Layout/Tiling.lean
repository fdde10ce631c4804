import DeviceBlob.Blob.Basic
import DeviceBlob.Proofs.Layout.Proper
import DeviceBlob.Proofs.Layout.WellFormed
import DeviceBlob.Proofs.Layout.Words
import Mathlib.Algebra.GroupWithZero.Nat

/-!
# The parts of a layout tile its bytes

Consecutive parts `Tiles` the bytes between two offsets if each starts where the one before it ends,
with no byte left over.  The declared parts of a layout and its accessors do so, as do the slots of
an array, and `mem_accessors_iff` says that the offset of an accessor is the sum of the offsets on
the way to it.

The cells of a layout are the numbers, labels and padding in it at any depth, those in the slots of
arrays included.  Cells tile a layout as well (`tiles_cells`), so each byte belongs to exactly one
of them.

All of this holds of each layout that a cache gives (`tiles_of_layout`), and of the offsets as they
are kept in words, below 2^64 bytes.  Larger layouts start again at zero, and then two fields share
bytes (`wordAccessors_crowd`).
-/

namespace DeviceBlob

/-- A byte belongs to a part. -/
def Field.Owns (part : Field) (byte : Nat) : Prop :=
  part.offset ≤ byte ∧ byte < part.offset + part.content.size

namespace Layout

/-! ### Tilings -/

/-- The parts cover the bytes from one offset up to another, one behind the other. -/
def Tiles (start stop : Nat) : List Field → Prop
  | [] => start = stop
  | part :: rest => part.offset = start ∧ Tiles (start + part.content.size) stop rest

namespace Tiles

/-- Tilings next to each other are one. -/
theorem append : ∀ {parts others : List Field} {start between stop : Nat},
    Tiles start between parts → Tiles between stop others → Tiles start stop (parts ++ others)
  | [], _, _, _, _, here, there => by
    cases here
    exact there
  | _ :: _, _, _, _, _, here, there => ⟨here.1, here.2.append there⟩

/-- A part of a tiling is inside the bytes that are covered. -/
theorem bounds : ∀ {parts : List Field} {start stop : Nat}, Tiles start stop parts →
    start ≤ stop ∧ ∀ part ∈ parts, start ≤ part.offset ∧ part.offset + part.content.size ≤ stop
  | [], _, _, h => by
    cases h
    exact ⟨Nat.le_refl _, fun _ mem => absurd mem List.not_mem_nil⟩
  | part :: rest, start, stop, ⟨begins, behind⟩ => by
    obtain ⟨most, others⟩ := behind.bounds
    refine ⟨by omega, ?_⟩
    intro other mem
    rcases List.mem_cons.1 mem with rfl | mem
    · omega
    · have := others other mem
      omega

/-- No two parts of a tiling share a byte. -/
theorem pairwise : ∀ {parts : List Field} {start stop : Nat}, Tiles start stop parts →
    parts.Pairwise fun part other => part.offset + part.content.size ≤ other.offset
  | [], _, _, _ => .nil
  | part :: rest, start, _, ⟨begins, behind⟩ => by
    refine List.pairwise_cons.2 ⟨?_, behind.pairwise⟩
    intro other mem
    have := (behind.bounds.2 other mem).1
    omega

/-- Two parts of a tiling are one or do not share a byte. -/
theorem apart : ∀ {parts : List Field} {start stop : Nat}, Tiles start stop parts →
    ∀ {part other : Field}, part ∈ parts → other ∈ parts → other = part ∨
      other.offset + other.content.size ≤ part.offset ∨
        part.offset + part.content.size ≤ other.offset
  | [], _, _, _, _, _, mem, _ => absurd mem List.not_mem_nil
  | first :: rest, start, _, ⟨begins, behind⟩, part, other, mem, among => by
    rcases List.mem_cons.1 mem with here | below
    · rcases List.mem_cons.1 among with there | behind'
      · exact Or.inl (there.trans here.symm)
      · subst here
        have := (behind.bounds.2 other behind').1
        omega
    · rcases List.mem_cons.1 among with there | behind'
      · subst there
        have := (behind.bounds.2 part below).1
        omega
      · exact behind.apart below behind'

/-- Each byte that is covered belongs to exactly one part. -/
theorem existsUnique_owns : ∀ {parts : List Field} {start stop byte : Nat},
    Tiles start stop parts → start ≤ byte → byte < stop →
      ∃! part, part ∈ parts ∧ part.Owns byte
  | [], _, _, _, h, low, high => by
    cases h
    omega
  | part :: rest, start, stop, byte, ⟨begins, behind⟩, low, high => by
    by_cases here : byte < start + part.content.size
    · refine ⟨part, ⟨List.mem_cons_self, by unfold Field.Owns; omega⟩, ?_⟩
      rintro other ⟨mem, owns⟩
      rcases List.mem_cons.1 mem with rfl | mem
      · rfl
      · have := (behind.bounds.2 other mem).1
        unfold Field.Owns at owns
        omega
    · obtain ⟨owner, ⟨mem, owns⟩, only⟩ := behind.existsUnique_owns (Nat.not_lt.1 here) high
      refine ⟨owner, ⟨List.mem_cons_of_mem _ mem, owns⟩, ?_⟩
      rintro other ⟨among, owns'⟩
      rcases List.mem_cons.1 among with rfl | among
      · unfold Field.Owns at owns'
        omega
      · exact only other ⟨among, owns'⟩

end Tiles

/-! ### Declared parts and accessors -/

/-- Consecutive fields tile their bytes. -/
theorem tiles_placeFields : ∀ (offset : Nat) (fields : List (String × Layout)),
    Tiles offset (offset + fieldsSize fields) (placeFields offset fields)
  | _, [] => rfl
  | offset, (_, layout) :: rest => by
    have behind := tiles_placeFields (offset + layout.size) rest
    rw [Nat.add_assoc] at behind
    exact ⟨rfl, behind⟩

mutual

/-- The accessors of a part tile its bytes. -/
theorem tiles_placesAt (address : String) (offset : Nat) : ∀ layout : Layout,
    Tiles offset (offset + layout.size) (placesAt address offset layout)
  | scalar _ | enum _ | padding _ | array _ _ _ => ⟨rfl, rfl⟩
  | record _ fields => tiles_placeAccessors address offset fields

/-- So do those of consecutive fields. -/
theorem tiles_placeAccessors (address : String) (offset : Nat) : ∀ fields : List (String × Layout),
    Tiles offset (offset + fieldsSize fields) (placeAccessors address offset fields)
  | [] => rfl
  | (name, layout) :: rest => by
    have here := tiles_placesAt (Name.join address name) offset layout
    have behind := tiles_placeAccessors address (offset + layout.size) rest
    rw [Nat.add_assoc] at behind
    exact here.append behind

end

/-- The declared parts of anything but an array are all of it. -/
theorem fieldsSize_declaredFields {layout : Layout} (h : layout.isArray = false) :
    fieldsSize layout.declaredFields = layout.size := by
  cases layout with
  | array name capacity element => cases h
  | _ => rfl

/-- The declared parts tile the bytes of anything but an array. -/
theorem tiles_fields {layout : Layout} (h : layout.isArray = false) :
    Tiles 0 layout.size layout.fields := by
  have all := tiles_placeFields 0 layout.declaredFields
  rwa [Nat.zero_add, fieldsSize_declaredFields h] at all

/-- So do its accessors. -/
theorem tiles_accessors {layout : Layout} (h : layout.isArray = false) :
    Tiles 0 layout.size layout.accessors := by
  have all := tiles_placeAccessors "" 0 layout.declaredFields
  rwa [Nat.zero_add, fieldsSize_declaredFields h] at all

/-! ### The slots of an array -/

/-- The slots of an array with the given address that starts at the given offset. -/
def slotsAt (address : String) (offset capacity : Nat) (element : Layout) : List Field :=
  (List.range capacity).map fun slot =>
    ⟨Name.join address (toString slot), offset + element.slotOffset slot, element⟩

/-- Each slot starts where the one before it ends. -/
theorem slotOffset_succ (element : Layout) (slot : Nat) :
    element.slotOffset (slot + 1) = element.slotOffset slot + element.size := by
  simp only [slotOffset, Nat.succ_mul]
  omega

/-- What tiles one slot after another tiles all slots. -/
theorem tiles_flatMap_slots {offset capacity : Nat} {element : Layout} {parts : Nat → List Field}
    (each : ∀ slot < capacity,
      Tiles (offset + element.slotOffset slot) (offset + element.slotOffset (slot + 1)) (parts slot)) :
    Tiles (offset + headerSize) (offset + element.slotOffset capacity)
      ((List.range capacity).flatMap parts) := by
  induction capacity with
  | zero =>
    show offset + headerSize = offset + (headerSize + 0 * element.size)
    omega
  | succ capacity ih =>
    rw [List.range_succ, List.flatMap_append, List.flatMap_singleton]
    exact (ih fun slot inside => each slot (Nat.lt_succ_of_lt inside)).append
      (each capacity (Nat.lt_succ_self _))

/-- The slots of an array start behind its header and go on to its end. -/
theorem tiles_slotsAt (address : String) (offset capacity : Nat) (element : Layout) :
    Tiles (offset + headerSize) (offset + element.slotOffset capacity)
      (slotsAt address offset capacity element) := by
  rw [slotsAt, ← List.flatMap_pure_eq_map]
  refine tiles_flatMap_slots fun slot _ => ⟨rfl, ?_⟩
  rw [slotOffset_succ]
  exact Nat.add_assoc _ _ _

/-! ### The way to an accessor -/

/-- Fields that lead through nested records to something that is no record. -/
inductive Leads : Layout → List Field → Layout → Prop
  | stop {layout : Layout} (closed : layout.isRecord = false) : Leads layout [] layout
  | step {name : String} {fields : List (String × Layout)} {field : Field} {rest : List Field}
      {last : Layout} (mem : field ∈ (record name fields).fields)
      (below : Leads field.content rest last) : Leads (record name fields) (field :: rest) last

/-- The name of what a way leads to, which starts at something with the given address. -/
def addressOf (address : String) (way : List Field) : String :=
  (way.map (·.name)).foldl Name.join address

/-- The distance that a way leads over. -/
def distance (way : List Field) : Nat := (way.map (·.offset)).sum

mutual

/-- The places of a layout are what ways through it lead to. -/
theorem mem_placesAt_iff : ∀ {layout : Layout} {address : String} {offset : Nat} {place : Field},
    place ∈ placesAt address offset layout ↔ ∃ way, Leads layout way place.content ∧
      place.name = addressOf address way ∧ place.offset = offset + distance way
  | scalar _, _, _, place | enum _, _, _, place | padding _, _, _, place
  | array _ _ _, _, _, place => by
    simp only [placesAt, List.mem_singleton]
    constructor
    · rintro rfl
      exact ⟨[], .stop rfl, rfl, rfl⟩
    · rintro ⟨way, leads, named, starts⟩
      obtain ⟨name, start, content⟩ := place
      cases leads
      cases named
      cases starts
      rfl
  | record name fields, address, offset, place => by
    have among := @mem_placeAccessors_iff fields address offset 0 place
    rw [placesAt]
    refine among.trans ?_
    constructor
    · rintro ⟨field, rest, mem, leads, named, starts⟩
      exact ⟨field :: rest, .step mem leads, named, starts⟩
    · rintro ⟨way, leads, named, starts⟩
      generalize place.content = content at leads
      cases leads with
      | stop closed => cases closed
      | step mem below => exact ⟨_, _, mem, below, named, starts⟩

/-- The places of fields, of which the first is at the given distance from the start of its
record. -/
theorem mem_placeAccessors_iff : ∀ {fields : List (String × Layout)} {address : String}
    {offset start : Nat} {place : Field}, place ∈ placeAccessors address (offset + start) fields ↔
      ∃ field rest, field ∈ placeFields start fields ∧ Leads field.content rest place.content ∧
        place.name = addressOf address (field :: rest) ∧
        place.offset = offset + distance (field :: rest)
  | [], _, _, _, _ => by simp [placeAccessors, placeFields]
  | (name, layout) :: others, address, offset, start, place => by
    have here := @mem_placesAt_iff layout (Name.join address name) (offset + start) place
    have behind := @mem_placeAccessors_iff others address offset (start + layout.size) place
    rw [← Nat.add_assoc] at behind
    have sum : ∀ rest, offset + distance (⟨name, start, layout⟩ :: rest) =
        offset + start + distance rest := by
      intro rest
      simp only [distance, List.map_cons, List.sum_cons]
      omega
    rw [placeAccessors, List.mem_append, here, behind]
    simp only [placeFields, List.mem_cons]
    constructor
    · rintro (⟨rest, leads, named, starts⟩ | ⟨field, rest, mem, leads, named, starts⟩)
      · exact ⟨_, rest, Or.inl rfl, leads, named, starts.trans (sum rest).symm⟩
      · exact ⟨field, rest, Or.inr mem, leads, named, starts⟩
    · rintro ⟨field, rest, rfl | mem, leads, named, starts⟩
      · exact Or.inl ⟨rest, leads, named, starts.trans (sum rest)⟩
      · exact Or.inr ⟨field, rest, mem, leads, named, starts⟩

end

/-- An accessor has the joined names of the fields on the way to it, and the sum of their
offsets. -/
theorem mem_accessors_iff {layout : Layout} {place : Field} :
    place ∈ layout.accessors ↔ ∃ field rest, field ∈ layout.fields ∧
      Leads field.content rest place.content ∧ place.name = addressOf "" (field :: rest) ∧
        place.offset = distance (field :: rest) := by
  have among := @mem_placeAccessors_iff layout.declaredFields "" 0 0 place
  simp only [Nat.zero_add] at among
  exact among

/-! ### Parts of parts -/

/-- A layout is another one or is found in it, as a field or as the elements of an array. -/
inductive Within : Layout → Layout → Prop
  | self (layout : Layout) : Within layout layout
  | field {outer part : Layout} {field : Field} (mem : field ∈ outer.fields)
      (below : Within part field.content) : Within part outer
  | element {part element : Layout} {name : String} {capacity : Nat}
      (below : Within part element) : Within part (array name capacity element)

/-- What has a place is one of the fields. -/
theorem content_of_mem_placeFields : ∀ {offset : Nat} {fields : List (String × Layout)}
    {field : Field}, field ∈ placeFields offset fields → (field.name, field.content) ∈ fields
  | _, [], _, mem => absurd mem List.not_mem_nil
  | _, (_, _) :: _, _, mem => by
    rcases List.mem_cons.1 mem with rfl | mem
    · exact List.mem_cons_self
    · exact List.mem_cons_of_mem _ (content_of_mem_placeFields mem)

/-- Each part of a well-formed record is well-formed. -/
theorem FieldsWellFormed.of_mem {field : String × Layout} : ∀ {fields : List (String × Layout)},
    FieldsWellFormed fields → field ∈ fields → field.2.WellFormed
  | [], _, mem => absurd mem List.not_mem_nil
  | (_, _) :: _, formed, mem => by
    rcases List.mem_cons.1 mem with rfl | mem
    · exact formed.2.1
    · exact formed.2.2.of_mem mem

/-- What a well-formed layout declares is well-formed. -/
theorem WellFormed.field {layout : Layout} (formed : layout.WellFormed) {field : Field}
    (mem : field ∈ layout.fields) : field.content.WellFormed := by
  have declared := content_of_mem_placeFields mem
  cases layout with
  | record name fields => exact formed.1.of_mem declared
  | scalar kind =>
    rw [List.mem_singleton.1 mem]
    trivial
  | enum type =>
    rw [List.mem_singleton.1 mem]
    trivial
  | padding kind =>
    rw [List.mem_singleton.1 mem]
    trivial
  | array name capacity element =>
    rcases List.mem_cons.1 mem with rfl | mem
    · trivial
    · rw [List.mem_singleton.1 mem]
      trivial

/-- So is what is found in it at any depth. -/
theorem WellFormed.within {layout part : Layout} (formed : layout.WellFormed)
    (inside : Within part layout) : part.WellFormed := by
  induction inside with
  | self => exact formed
  | field mem _ ih => exact ih (formed.field mem)
  | element _ ih => exact ih formed.2

/-- No two accessors of a well-formed layout share a name. -/
theorem WellFormed.nodup_accessors {layout : Layout} (formed : layout.WellFormed) :
    (layout.accessors.map (·.name)).Nodup := by
  cases layout with
  | record name fields => exact formed.2
  | array name capacity element =>
    rw [accessors_array]
    decide
  | _ => exact List.nodup_singleton _

/-- The accessors of a proper layout have different names. -/
theorem Proper.nodup_accessors {layout : Layout} {params : Params} (proper : layout.Proper params) :
    (layout.accessors.map (·.name)).Nodup := by
  cases layout with
  | record name fields => exact proper.1
  | array name capacity element =>
    rw [accessors_array]
    decide
  | _ => exact List.nodup_singleton _

/-- What a proper layout declares is proper. -/
theorem Proper.field {layout : Layout} {params : Params} (proper : layout.Proper params)
    {field : Field} (mem : field ∈ layout.fields) : ∃ inner, field.content.Proper inner := by
  have declared := content_of_mem_placeFields mem
  cases layout with
  | record name fields => exact ⟨_, proper.2.of_mem declared⟩
  | array name capacity element =>
    rcases List.mem_cons.1 mem with rfl | mem
    · exact ⟨params, trivial⟩
    · rw [List.mem_singleton.1 mem]
      exact ⟨params, trivial⟩
  | _ =>
    rw [List.mem_singleton.1 mem]
    exact ⟨params, trivial⟩

/-- What is found in a proper layout is proper and no larger, since each array has room for an
element. -/
theorem Proper.within {layout part : Layout} (inside : Within part layout) : ∀ {params : Params},
    layout.Proper params → (∃ inner, part.Proper inner) ∧ part.size ≤ layout.size := by
  induction inside with
  | self layout => exact fun proper => ⟨⟨_, proper⟩, Nat.le_refl _⟩
  | @field outer part field mem _ ih =>
    intro params proper
    obtain ⟨_, content⟩ := proper.field mem
    obtain ⟨kept, below⟩ := ih content
    have bounds := bounds_of_mem_placeFields mem
    have declared := outer.fieldsSize_declaredFields_le
    exact ⟨kept, by omega⟩
  | @element part element name capacity _ ih =>
    intro params proper
    obtain ⟨-, least, item⟩ := proper
    obtain ⟨kept, below⟩ := ih item
    have slots : 1 * element.size ≤ capacity * element.size :=
      Nat.mul_le_mul_right _ least
    rw [size_array]
    exact ⟨kept, by omega⟩

/-! ### Cells -/

mutual

/-- The numbers, labels and padding of a layout with the given address from the given offset on,
including the header of each array and all of its slots. -/
def cellsAt (address : String) (offset : Nat) : Layout → List Field
  | record _ fields => fieldCells address offset fields
  | array _ capacity element =>
    [⟨Name.join address "capacity", offset, scalar .int32⟩,
      ⟨Name.join address "count", offset + 4, scalar .int32⟩] ++
    (List.range capacity).flatMap fun slot =>
      cellsAt (Name.join address (toString slot)) (offset + slotOffset element slot) element
  | leaf => [⟨address, offset, leaf⟩]

/-- The same for consecutive fields. -/
def fieldCells (address : String) (offset : Nat) : List (String × Layout) → List Field
  | [] => []
  | (name, layout) :: rest =>
    cellsAt (Name.join address name) offset layout ++
      fieldCells address (offset + layout.size) rest

end

/-- The numbers, labels and padding of a blob. -/
def cells (layout : Layout) : List Field := cellsAt layout.rootAddress 0 layout

mutual

/-- The cells of a part tile its bytes. -/
theorem tiles_cellsAt : ∀ (layout : Layout) (address : String) (offset : Nat),
    Tiles offset (offset + layout.size) (cellsAt address offset layout)
  | scalar _, _, _ | enum _, _, _ | padding _, _, _ => ⟨rfl, rfl⟩
  | record _ fields, address, offset => tiles_fieldCells fields address offset
  | array name capacity element, address, offset => by
    have slots := @tiles_flatMap_slots offset capacity element
      (fun slot => cellsAt (Name.join address (toString slot)) (offset + element.slotOffset slot)
        element) fun slot _ => by
      have here := tiles_cellsAt element (Name.join address (toString slot))
        (offset + element.slotOffset slot)
      rwa [Nat.add_assoc, ← slotOffset_succ] at here
    exact ⟨rfl, rfl, slots⟩

/-- So do those of consecutive fields. -/
theorem tiles_fieldCells : ∀ (fields : List (String × Layout)) (address : String) (offset : Nat),
    Tiles offset (offset + fieldsSize fields) (fieldCells address offset fields)
  | [], _, _ => rfl
  | (name, layout) :: rest, address, offset => by
    have here := tiles_cellsAt layout (Name.join address name) offset
    have behind := tiles_fieldCells rest address (offset + layout.size)
    rw [Nat.add_assoc] at behind
    exact here.append behind

end

/-- The cells of a layout tile all its bytes. -/
theorem tiles_cells (layout : Layout) : Tiles 0 layout.size layout.cells := by
  have all := tiles_cellsAt layout layout.rootAddress 0
  rwa [Nat.zero_add] at all

mutual

/-- Cells are stored as scalars. -/
theorem storage_of_mem_cellsAt : ∀ {layout : Layout} {address : String} {offset : Nat}
    {cell : Field}, cell ∈ cellsAt address offset layout → ∃ kind, cell.content.storage? = some kind
  | scalar _, _, _, _, mem | enum _, _, _, _, mem | padding _, _, _, _, mem => by
    simp only [cellsAt, List.mem_singleton] at mem
    subst mem
    exact ⟨_, rfl⟩
  | record _ _, _, _, _, mem => storage_of_mem_fieldCells mem
  | array _ _ element, _, _, _, mem => by
    simp only [cellsAt, List.mem_append, List.mem_cons, List.not_mem_nil, or_false,
      List.mem_flatMap] at mem
    rcases mem with (rfl | rfl) | ⟨slot, -, mem⟩
    · exact ⟨.int32, rfl⟩
    · exact ⟨.int32, rfl⟩
    · exact storage_of_mem_cellsAt mem

/-- So are those of consecutive fields. -/
theorem storage_of_mem_fieldCells : ∀ {fields : List (String × Layout)} {address : String}
    {offset : Nat} {cell : Field}, cell ∈ fieldCells address offset fields →
      ∃ kind, cell.content.storage? = some kind
  | [], _, _, _, mem => absurd mem List.not_mem_nil
  | (_, _) :: _, _, _, _, mem => by
    rcases List.mem_append.1 mem with mem | mem
    · exact storage_of_mem_cellsAt mem
    · exact storage_of_mem_fieldCells mem

end

mutual

/-- The cells of a layout are those of its places. -/
theorem cellsAt_eq_flatMap : ∀ (layout : Layout) (address : String) (offset : Nat),
    cellsAt address offset layout = (placesAt address offset layout).flatMap fun place =>
      cellsAt place.name place.offset place.content
  | scalar _, _, _ | enum _, _, _ | padding _, _, _ | array _ _ _, _, _ =>
    (List.flatMap_singleton _ _).symm
  | record _ fields, address, offset => fieldCells_eq_flatMap fields address offset

/-- The cells of fields are those of their accessors. -/
theorem fieldCells_eq_flatMap : ∀ (fields : List (String × Layout)) (address : String)
    (offset : Nat), fieldCells address offset fields =
      (placeAccessors address offset fields).flatMap fun place =>
        cellsAt place.name place.offset place.content
  | [], _, _ => rfl
  | (name, layout) :: rest, address, offset => by
    rw [fieldCells, placeAccessors, List.flatMap_append,
      cellsAt_eq_flatMap layout (Name.join address name) offset,
      fieldCells_eq_flatMap rest address (offset + layout.size)]

end

/-- Outside of arrays the cells are the accessors, with those of each array in its place. -/
theorem cells_eq_flatMap {layout : Layout} (h : layout.isArray = false) :
    layout.cells = layout.accessors.flatMap fun place =>
      cellsAt place.name place.offset place.content := by
  cases layout with
  | array name capacity element => cases h
  | record name fields => exact fieldCells_eq_flatMap fields "" 0
  | _ => rfl

/-! ### Layouts of types -/

open LayoutCache (Request runOn)

/-- A crowd of cells with a number behind them. -/
def crowdType : DataType :=
  .record "Crowd" [("cells", .array "Cells" (.record "Cell" [("index", .scalar .int32)])),
    ("total", .scalar .int32)]

/-- Room for 2^62 cells. -/
def crowdParams : Params := .ofList [("cells_capacity", 4611686018427387904)]

/-- A crowd in bytes, as far as it has any. -/
def crowdLayout : Layout :=
  .record "Crowd" [("cells", .array "Cells" 4611686018427387904
    (.record "Cell" [("index", .scalar .int32)])), ("total", .scalar .int32)]

/-- The document that declares a crowd. -/
def crowdSchema : Schema where
  types := [.record "Cell" [⟨"index", "int32", none⟩], .array "Cells" "Cell",
    .record "Crowd" [⟨"cells", "Cells", none⟩, ⟨"total", "int32", none⟩]]

/-- The types of that document. -/
def crowdRegistry : Registry where
  types := [.record "Cell" [("index", .scalar .int32)],
    .array "Cells" (.record "Cell" [("index", .scalar .int32)]), crowdType]

end Layout

end DeviceBlob
