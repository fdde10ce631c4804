import DeviceBlob.Proofs.Blob.Bounds
import DeviceBlob.Proofs.Blob.Cached
import DeviceBlob.Proofs.SlotArray

/-!
# Opening arbitrary bytes

Opening looks at headers before it is known what the bytes hold.  As in the module before, each step
of it stands here once more with slices that are looked up; `Checked` steps can fail with an error
like all others, and have no result at all where a byte is missing.  Opening never looks for a byte
that is not there, whatever is in the cache that it takes its layouts from (`finds_openBytes`), and
neither does anything that is read from what was opened (`Readable.inBounds`).  The theorem
`opening_of_bytes` puts this together with what `openBytes_none_iff` says of the parameters.
-/

namespace DeviceBlob

/-- A step that can fail, and that has no result if it looks for bytes that are not there. -/
abbrev Checked (α : Type) := ExceptT Error Option α

namespace Checked

variable {α β : Type}

/-- A step that looks for no bytes. -/
def lift (outcome : Except Error α) : Checked α := ExceptT.mk (some outcome)

/-- What was looked for. -/
def look (found : Option α) : Checked α := ExceptT.mk (found.map .ok)

/-- Two steps that find their bytes find them together. -/
theorem run_bind {x : Checked α} {y : Except Error α} {f : α → Checked β} {g : α → Except Error β}
    (first : x.run = some y) (second : ∀ a, y = .ok a → (f a).run = some (g a)) :
    (x >>= f).run = some (y >>= g) := by
  have found : x = lift y := first
  subst found
  cases y with
  | ok a => exact second a rfl
  | error e => rfl

/-- What was found is passed on. -/
theorem look_some_bind (a : α) (f : α → Checked β) : (look (some a) >>= f) = f a := rfl

/-- Steps for the items of a list find what they look for if each of them does. -/
theorem run_forM {f : α → Checked Unit} {g : α → Except Error Unit} : ∀ {items : List α},
    (∀ a ∈ items, (f a).run = some (g a)) → (items.forM f).run = some (items.forM g)
  | [], _ => rfl
  | a :: _, each =>
    run_bind (each a List.mem_cons_self) fun _ _ =>
      run_forM fun other mem => each other (List.mem_cons_of_mem _ mem)

end Checked

open LayoutCache (Attempt Request runOn)

/-- A checked step that may use a cache and fill it. -/
abbrev CheckedAttempt (α : Type) := ExceptT Error (StateT LayoutCache Option) α

namespace CheckedAttempt

variable {α β : Type}

/-- What a step on a cache gives, and the cache that it leaves, if it finds its bytes. -/
def runOn? (step : CheckedAttempt α) (cache : LayoutCache) :
    Option (Except Error α × LayoutCache) :=
  step.run.run cache

/-- A step that looks for no bytes. -/
def ofAttempt (attempt : Attempt α) : CheckedAttempt α :=
  ExceptT.mk fun cache => some (runOn attempt cache)

/-- A step that asks no cache. -/
def ofChecked (step : Checked α) : CheckedAttempt α :=
  ExceptT.mk fun cache => step.run.map (·, cache)

/-- The second of two steps starts with the cache that the first one leaves. -/
theorem runOn?_bind (step : CheckedAttempt α) (later : α → CheckedAttempt β)
    (cache : LayoutCache) :
    (step >>= later).runOn? cache = (step.runOn? cache).bind fun found =>
      (ExceptT.bindCont later found.1).run found.2 := rfl

/-- On each cache the step finds its bytes, and does what the attempt does. -/
def Finds (step : CheckedAttempt α) (attempt : Attempt α) : Prop :=
  ∀ cache, step.runOn? cache = some (runOn attempt cache)

/-- An attempt that looks at no bytes finds all of them. -/
theorem finds_ofAttempt (attempt : Attempt α) : Finds (ofAttempt attempt) attempt := fun _ => rfl

/-- A step that finds all its bytes does so whatever is in the cache. -/
theorem finds_ofChecked {step : Checked α} {outcome : Except Error α}
    (found : step.run = some outcome) : Finds (ofChecked step) (liftExcept outcome) := by
  intro cache
  show step.run.map (·, cache) = _
  rw [found, LayoutCache.runOn_liftExcept]
  rfl

/-- Steps that find their bytes find them one after the other. -/
theorem Finds.bind {step : CheckedAttempt α} {attempt : Attempt α} {later : α → CheckedAttempt β}
    {follow : α → Attempt β} (first : Finds step attempt)
    (second : ∀ a, Finds (later a) (follow a)) : Finds (step >>= later) (attempt >>= follow) := by
  intro cache
  rw [runOn?_bind, first cache, Option.bind_some]
  rcases run : runOn attempt cache with ⟨_ | a, next⟩
  · rw [LayoutCache.runOn_bind_of_error run]
    rfl
  · rw [LayoutCache.runOn_bind_of_ok run]
    exact second a next

/-- Checked steps, and the attempts that look at bytes without a check. -/
def finding : StepRelation CheckedAttempt Attempt where
  Holds := Finds
  holds_pure := fun _ _ => rfl
  holds_bind := .bind

end CheckedAttempt

/-! ### Headers -/

namespace Compiler

/-- `headerCapacity` with a header that is looked up. -/
def headerCapacity? (compiler : Compiler) (typeName : String) (bytes : Bytes) (offset : Nat) :
    Checked Nat :=
  if bytes.length < offset + Layout.headerSize then
    throw (.layoutMismatch typeName (.headerCut offset))
  else do
    let stored ← Checked.look (Slots.readWord? bytes offset)
    if 1 ≤ stored ∧ stored ≤ compiler.maxParameter then return stored.toNat
    else throw (.invalidCapacity offset stored compiler.maxParameter)

/-- `cachedScanner` with headers that are looked up. -/
def checkedScanner (compiler : Compiler) (bytes : Bytes) : Scanner CheckedAttempt where
  packing := compiler.packing
  plainLayout := fun type => .ofAttempt (compiler.cachedPlainLayout type)
  capacity := fun typeName offset =>
    .ofChecked (compiler.headerCapacity? typeName bytes offset)

variable {compiler : Compiler} {bytes : Bytes}

/-- A header is looked at only if it is there. -/
theorem headerCapacity?_eq (typeName : String) (offset : Nat) :
    (compiler.headerCapacity? typeName bytes offset).run =
      some (compiler.headerCapacity typeName bytes offset) := by
  unfold headerCapacity? headerCapacity
  split
  · rfl
  · next there =>
    have room : offset + 8 ≤ bytes.length := Nat.not_lt.1 there
    rw [Slots.readWord?_of_le (by omega), Checked.look_some_bind]
    simp only
    split <;> rfl

/-- The headers that are read are there. -/
theorem finds_params (type : DataType) :
    ((compiler.checkedScanner bytes).params type).Finds
      ((compiler.cachedScanner bytes).params type) := by
  have related : CheckedAttempt.finding.Scanners (fun _ => True) (compiler.checkedScanner bytes)
      (compiler.cachedScanner bytes) := {
    parts := fun _ _ _ _ => trivial
    packing := rfl
    plainLayout := fun type _ => CheckedAttempt.finds_ofAttempt (compiler.cachedPlainLayout type)
    capacity := fun typeName offset =>
      CheckedAttempt.finds_ofChecked (headerCapacity?_eq typeName offset) }
  exact StepRelation.params related trivial

end Compiler

namespace Layout

mutual

/-- `checkCapacities` with headers that are looked up. -/
def checkCapacities? (bytes : Bytes) (offset : Nat) : Layout → Checked Unit
  | record _ fields => checkFieldCapacities? bytes offset fields
  | array name capacity element => do
    let stored ← Checked.look (Slots.readWord? bytes offset)
    if stored ≠ capacity then
      throw (.layoutMismatch name (.capacityDiffers offset stored capacity))
    (List.range capacity).forM fun slot =>
      checkCapacities? bytes (offset + slotOffset element slot) element
  | _ => pure ()

/-- `checkFieldCapacities` with headers that are looked up. -/
def checkFieldCapacities? (bytes : Bytes) (offset : Nat) : List (String × Layout) → Checked Unit
  | [] => pure ()
  | (_, layout) :: rest => do
    checkCapacities? bytes offset layout
    checkFieldCapacities? bytes (offset + layout.size) rest

end

/-- `checkShape` with headers that are looked up. -/
def checkShape? (layout : Layout) (bytes : Bytes) : Checked Unit := do
  if bytes.length < layout.size then
    throw (.layoutMismatch layout.typeName (.partTooShort layout.size 0 bytes.length))
  layout.checkCapacities? bytes 0

variable {bytes : Bytes}

mutual

/-- The check of all headers finds them inside the bytes of the layout. -/
theorem checkCapacities?_eq : ∀ {layout : Layout} {offset : Nat},
    offset + layout.size ≤ bytes.length →
      (layout.checkCapacities? bytes offset).run = some (layout.checkCapacities bytes offset)
  | scalar _, _, _ | enum _, _, _ | padding _, _, _ => rfl
  | record _ _, _, room => checkFieldCapacities?_eq room
  | array name capacity element, offset, room => by
    have header : Slots.readWord? bytes offset = some (Slots.readWord bytes offset) := by
      rw [size_array, headerSize] at room
      exact Slots.readWord?_of_le (by omega)
    have slots := @Checked.run_forM Nat
      (fun slot => checkCapacities? bytes (offset + element.slotOffset slot) element)
      (fun slot => checkCapacities bytes (offset + element.slotOffset slot) element)
      (List.range capacity) fun slot mem => by
        have last : element.slotOffset slot + element.size ≤ element.slotOffset capacity :=
          Slots.slotOffset_add_le (List.mem_range.1 mem)
        have whole : (array name capacity element).size = element.slotOffset capacity := rfl
        exact checkCapacities?_eq (by omega)
    rw [checkCapacities?, checkCapacities, header, Checked.look_some_bind]
    by_cases same : Slots.readWord bytes offset = capacity
    · simp only [same, ne_eq, not_true_eq_false, if_false]
      exact slots
    · simp only [same, ne_eq, not_false_eq_true, if_true]
      rfl

/-- So does that of consecutive fields. -/
theorem checkFieldCapacities?_eq : ∀ {fields : List (String × Layout)} {offset : Nat},
    offset + fieldsSize fields ≤ bytes.length →
      (checkFieldCapacities? bytes offset fields).run =
        some (checkFieldCapacities bytes offset fields)
  | [], _, _ => rfl
  | (_, layout) :: rest, offset, room => by
    change _ + (layout.size + fieldsSize rest) ≤ _ at room
    rw [checkFieldCapacities?, checkFieldCapacities]
    refine Checked.run_bind (checkCapacities?_eq (by omega)) fun _ _ => ?_
    exact checkFieldCapacities?_eq (by omega)

end

/-- The check of the shape looks for headers only once there are enough bytes. -/
theorem checkShape?_eq (layout : Layout) :
    (layout.checkShape? bytes).run = some (layout.checkShape bytes) := by
  unfold checkShape? checkShape
  by_cases short : bytes.length < layout.size
  · simp only [short, if_true]
    rfl
  · simp only [short, if_false]
    exact checkCapacities?_eq (by omega)

end Layout

/-! ### Arrays and blobs -/

namespace SlotArray.Checked

/-- `count` with a header that is looked up. -/
def count (array : SlotArray) : Option Nat := (Slots.readWord? array.bytes 4).map Int.toNat

/-- `index?` with an index that is looked up. -/
def index? (array : SlotArray) (slot : Nat) : Option (Option Int) :=
  if slot < array.capacity then (Slots.indexAt? array.element array.bytes slot).map some
  else some none

/-- `isPresent` with an index that is looked up. -/
def isPresent (array : SlotArray) (slot : Nat) : Option Bool :=
  (index? array slot).map fun index => index.any (Slots.emptyIndex < ·)

/-- `get?` with a slot that is looked up. -/
def get? (array : SlotArray) (slot : Nat) : Option (Option Blob) := do
  if ← isPresent array slot then
    return some ⟨array.element, ← Slots.slot? array.element array.bytes slot⟩
  else return none

/-- `elements` with slots that are looked up. -/
def elements (array : SlotArray) : Option (List Blob) := do
  let occupied ← Slots.occupied? array.capacity array.element array.bytes
  return occupied.map fun (_, content) => ⟨array.element, content⟩

/-- `advance` with indices that are looked up. -/
def advance (array : SlotArray) (position : Nat) : Option (Option Nat × Nat) := do
  match ← (List.range' position (array.capacity - position)).findM? (isPresent array) with
  | some slot => return (some slot, slot + 1)
  | none => return (none, max position array.capacity)

end SlotArray.Checked

/-- Nothing that is read from an array is outside its bytes. -/
structure SlotArray.InBounds (array : SlotArray) : Prop where
  count : Checked.count array = some array.count
  index : ∀ slot, Checked.index? array slot = some (array.index? slot)
  present : Slots.present? array.capacity array.element array.bytes = some array.present
  get : ∀ slot, Checked.get? array slot = some (array.get? slot)
  elements : Checked.elements array = some array.elements
  advance : ∀ position, Checked.advance array position = some (array.advance position)

/-- What is read from an array with room for its slots is inside its bytes. -/
theorem SlotArray.inBounds {array : SlotArray} (formed : array.layout.WellFormed)
    (room : Slots.Holds array.capacity array.element array.bytes) : array.InBounds := by
  have small : 4 ≤ array.element.size := formed.1.four_le_size
  have index : ∀ slot, Checked.index? array slot = some (array.index? slot) := by
    intro slot
    unfold Checked.index? SlotArray.index?
    split
    · next inside =>
      rw [Slots.indexAt?_eq small room inside]
      rfl
    · rfl
  have isPresent : ∀ slot, Checked.isPresent array slot = some (array.isPresent slot) := by
    intro slot
    rw [Checked.isPresent, index]
    rfl
  refine ⟨?_, index, Slots.present?_eq small room, ?_, ?_, ?_⟩
  · rw [Checked.count, Slots.readWord?_of_le room.header]
    rfl
  · intro slot
    unfold Checked.get? SlotArray.get?
    rw [isPresent, Option.bind_eq_bind, Option.bind_some]
    split
    · next here =>
      rw [Slots.slot?_eq room (isPresent_iff.1 here).1]
      rfl
    · rfl
  · rw [Checked.elements, Slots.occupied?_eq small room]
    rfl
  · intro position
    unfold Checked.advance SlotArray.advance
    rw [findM?_eq_some fun slot _ => isPresent slot, Option.bind_eq_bind, Option.bind_some]
    cases (List.range' position (array.capacity - position)).find? array.isPresent <;> rfl

namespace Blob.Checked

/-- `cachedOpenBytes` with headers that are looked up. -/
def openBytes (compiler : Compiler) (type : DataType) (bytes : Bytes) (params? : Option Params) :
    CheckedAttempt Blob := do
  let params ← match params? with
    | some params => pure params
    | none => (compiler.checkedScanner bytes).params type
  let layout ← .ofAttempt (compiler.cachedLayout params type)
  .ofChecked (layout.checkShape? bytes)
  .ofAttempt (liftExcept (ofBytes layout bytes))

/-- `region` with bytes that are looked up. -/
def region (blob : Blob) : Option Bytes := blob.bytes.slice? 0 blob.layout.size

/-- `part` with bytes that are looked up. -/
def part (blob : Blob) (place : Field) : Option Blob := do
  return ⟨place.content, ← blob.bytes.slice? place.offset place.content.size⟩

/-- `get` with bytes that are looked up. -/
def get (blob : Blob) (name : String) : Checked Value := do
  let place ← Checked.lift (blob.accessor name)
  let part ← Checked.look (part blob place)
  match place.content.read? part.bytes with
  | some value => return value
  | none => throw (.typeMismatch name "scalar or enum" "array")

/-- `flatTree` with bytes that are looked up. -/
def flatTree (blob : Blob) : Option Value := do blob.layout.flatTree? (← region blob)

/-- `nestedTree` with bytes that are looked up. -/
def nestedTree (blob : Blob) : Option Value := do blob.layout.nestedTree? (← region blob)

/-- `differences` with bytes that are looked up. -/
def differences (blob other : Blob) : Option (List Difference) := do
  return Difference.between (← blob.layout.texts? (← region blob))
    (← other.layout.texts? (← region other))

/-- `viewAt` with bytes that are looked up. -/
def viewAt (blob : Blob) : List Selector → Checked Blob
  | [] => pure blob
  | selector :: rest => do
    let place ← Checked.lift (blob.placeOf selector)
    viewAt (← Checked.look (part blob place)) rest

end Blob.Checked

namespace Blob

/-- Nothing that is read from a blob is outside its bytes. -/
structure InBounds (blob : Blob) : Prop where
  get : ∀ name, (Checked.get blob name).run = some (blob.get name)
  flatTree : Checked.flatTree blob = some blob.flatTree
  nestedTree : Checked.nestedTree blob = some blob.nestedTree
  differences : ∀ other : Blob, other.Readable →
    Checked.differences blob other = some (blob.differences other)
  views : ∀ path, (Checked.viewAt blob path).run = some (blob.viewAt path)
  array : ∀ array, SlotArray.ofBytes blob.layout blob.bytes = .ok array → array.InBounds

variable {blob : Blob}

/-- Opening never looks for bytes that are not there. -/
theorem finds_openBytes (compiler : Compiler) (type : DataType) (bytes : Bytes)
    (params? : Option Params) : (Checked.openBytes compiler type bytes params?).Finds
      (cachedOpenBytes compiler type bytes params?) := by
  have behind : ∀ params, CheckedAttempt.Finds (do
      let layout ← .ofAttempt (compiler.cachedLayout params type)
      .ofChecked (layout.checkShape? bytes)
      .ofAttempt (liftExcept (ofBytes layout bytes))) (do
        let layout ← compiler.cachedLayout params type
        liftExcept (layout.checkShape bytes)
        liftExcept (ofBytes layout bytes)) := by
    intro params
    refine (CheckedAttempt.finds_ofAttempt _).bind fun layout => ?_
    refine (CheckedAttempt.finds_ofChecked layout.checkShape?_eq).bind fun _ => ?_
    exact CheckedAttempt.finds_ofAttempt _
  cases params? with
  | some params => exact behind params
  | none => exact (Compiler.finds_params type).bind behind

namespace Readable

/-- The bytes of a readable blob are there. -/
theorem checked_region (h : blob.Readable) : Checked.region blob = some blob.region := by
  rw [Checked.region, Bytes.slice?_of_le (Nat.le_trans (Nat.le_of_eq (Nat.zero_add _)) h.room),
    Bytes.slice_eq_take]
  rfl

/-- They are as many as the layout says. -/
theorem length_region (h : blob.Readable) : blob.region.length = blob.layout.size := by
  rw [Blob.region, List.length_take]
  exact Nat.min_eq_left h.room

/-- The bytes of a part are there. -/
theorem checked_part {place : Field}
    (room : place.offset + place.content.size ≤ blob.bytes.length) :
    Checked.part blob place = some (blob.part place) := by
  rw [Checked.part, Bytes.slice?_of_le room]
  rfl

/-- The accessors of a blob are inside its bytes. -/
theorem room_of_accessor (h : blob.Readable) {name : String} {place : Field}
    (found : blob.accessor name = .ok place) :
    place.offset + place.content.size ≤ blob.bytes.length := by
  obtain ⟨mem, -⟩ := accessor_eq_ok found
  have inside := (Layout.bounds_of_mem_placeAccessors mem).2
  have declared := blob.layout.fieldsSize_declaredFields_le
  have room := h.room
  omega

/-- The texts of a readable blob are read inside its bytes. -/
theorem checked_texts (h : blob.Readable) :
    blob.layout.texts? blob.region = some (blob.layout.texts blob.region) :=
  Layout.texts?_eq h.formed (Nat.le_of_eq h.length_region.symm)

/-- Each part of a readable blob is found. -/
theorem checked_viewAt {blob : Blob} (h : blob.Readable) : ∀ path : List Selector,
    (Checked.viewAt blob path).run = some (blob.viewAt path)
  | [] => rfl
  | selector :: rest => by
    refine DeviceBlob.Checked.run_bind rfl fun place chosen => ?_
    have contains := contains_of_placeOf chosen
    rw [checked_part (h.room_of_contains contains)]
    exact (h.part contains).checked_viewAt rest

/-- Where a blob has all its bytes, nothing is read outside of them. -/
theorem inBounds (h : blob.Readable) : blob.InBounds where
  get := by
    intro name
    refine DeviceBlob.Checked.run_bind rfl fun place found => ?_
    rw [checked_part (h.room_of_accessor found), DeviceBlob.Checked.look_some_bind]
    cases place.content.read? (blob.part place).bytes <;> rfl
  flatTree := by
    rw [Checked.flatTree, h.checked_region, Option.bind_eq_bind, Option.bind_some]
    exact Layout.flatTree?_eq h.formed (Nat.le_of_eq h.length_region.symm)
  nestedTree := by
    rw [Checked.nestedTree, h.checked_region, Option.bind_eq_bind, Option.bind_some]
    exact Layout.nestedTree?_eq h.formed (Nat.le_of_eq h.length_region.symm)
  differences := by
    intro other readable
    simp only [Checked.differences, h.checked_region, readable.checked_region, Option.bind_eq_bind,
      Option.bind_some, h.checked_texts,
      readable.checked_texts]
    rfl
  views := h.checked_viewAt
  array := by
    intro array opened
    have formed := h.formed
    unfold SlotArray.ofBytes at opened
    split at opened
    · next name capacity element same =>
      split at opened
      · cases opened
      · next enough =>
        cases opened
        rw [same] at formed enough
        exact SlotArray.inBounds formed (Nat.not_lt.1 enough)
    · cases opened

end Readable

/-- What was opened has all its bytes. -/
theorem readable_of_openBytes {compiler : Compiler} {type : DataType} {bytes : Bytes}
    {params? : Option Params} (buildable : type.Buildable)
    (opened : openBytes compiler type bytes params? = .ok blob) : blob.Readable := by
  obtain ⟨params, given⟩ : ∃ params, openBytes compiler type bytes (some params) = .ok blob := by
    cases params? with
    | some params => exact ⟨params, opened⟩
    | none =>
      obtain ⟨params, -, given⟩ := openBytes_none_eq_ok.1 opened
      exact ⟨params, given⟩
  obtain ⟨compiled, same, room, -⟩ := openBytes_some_iff.1 given
  exact ⟨Layout.wellFormed_of_layout buildable compiled, same ▸ room⟩

/-- **What opening arbitrary bytes does**, with layouts from any two caches that are safe for the
type.  Without parameters it succeeds exactly if it does with some parameters that are those of the
type and no others; there is one such set of parameters at most, and both ways give the same blob.
Opening never looks for bytes that are not there, whatever is in its cache: it gives a blob or an
error.  And whatever is read from the blob or from any of its parts is inside its bytes. -/
theorem opening_of_bytes {compiler : Compiler} {type : DataType} {cache after : LayoutCache}
    (safe : cache.SafeFor type) (safeAfter : after.SafeFor type) (bytes : Bytes) :
    (∀ params blob,
      ((runOn (cachedOpenBytes compiler type bytes none) cache).1 = .ok blob ∧
          blob.layout.params = params) ↔
        (∀ name, name ∈ params.values.keys ↔ name ∈ type.parameterNames) ∧
          (runOn (cachedOpenBytes compiler type bytes (some params)) after).1 = .ok blob) ∧
    (∀ params other blob otherBlob,
      (∀ name, name ∈ params.values.keys ↔ name ∈ type.parameterNames) →
      (∀ name, name ∈ other.values.keys ↔ name ∈ type.parameterNames) →
      (runOn (cachedOpenBytes compiler type bytes (some params)) cache).1 = .ok blob →
      (runOn (cachedOpenBytes compiler type bytes (some other)) after).1 = .ok otherBlob →
        params = other ∧ blob = otherBlob) ∧
    (∀ params?, (Checked.openBytes compiler type bytes params?).Finds
      (cachedOpenBytes compiler type bytes params?)) ∧
    (∀ params? blob, (runOn (cachedOpenBytes compiler type bytes params?) cache).1 = .ok blob →
      blob.InBounds ∧ ∀ path view, blob.viewAt path = .ok view → view.InBounds) := by
  have buildable := safe.buildable
  simp only [runOn_cachedOpenBytes safe, runOn_cachedOpenBytes safeAfter]
  refine ⟨fun _ _ => openBytes_none_iff buildable, ?_, fun _ => finds_openBytes _ _ _ _, ?_⟩
  · intro params other blob otherBlob keys otherKeys given otherGiven
    obtain ⟨opened, rfl⟩ := (openBytes_none_iff buildable).2 ⟨keys, given⟩
    obtain ⟨again, rfl⟩ := (openBytes_none_iff buildable).2 ⟨otherKeys, otherGiven⟩
    cases opened.symm.trans again
    exact ⟨rfl, rfl⟩
  · intro params? blob opened
    have readable := readable_of_openBytes buildable opened
    exact ⟨readable.inBounds, fun path view found => (readable.viewAt found).inBounds⟩

/-- A blank scene of two particles can be opened without parameters, on a cache that holds its layout
already, as it can be opened with them on an empty one. -/
theorem opening_of_bytes_scene :
    (Request.serveAll .empty Request.sceneHistory).SafeFor Scene.sceneType ∧
      LayoutCache.empty.SafeFor Scene.sceneType ∧
      ∃ blob, (runOn (cachedOpenBytes (Compiler.mk .aligned 5000) Scene.sceneType
          Scene.sceneLayout.blank none) (Request.serveAll .empty Request.sceneHistory)).1 =
            .ok blob ∧ blob.layout.params = Scene.params := by
  have safe := LayoutCache.safeFor_sceneType
  have safeAfter := LayoutCache.safeFor_sceneType_empty
  obtain ⟨iff, -⟩ := @opening_of_bytes (Compiler.mk .aligned 5000) _ _ _ safe safeAfter
    Scene.sceneLayout.blank
  have given : (runOn (cachedOpenBytes (Compiler.mk .aligned 5000) Scene.sceneType
      Scene.sceneLayout.blank (some Scene.params)) .empty).1 =
        .ok ⟨Scene.sceneLayout, Scene.sceneLayout.blank⟩ := by
    rw [runOn_cachedOpenBytes safeAfter]
    rfl
  exact ⟨safe, safeAfter, _, (iff Scene.params _).2 ⟨fun name => Iff.rfl, given⟩⟩

/-- The bytes of a gantry with the layout of its left arm in the place of both arms: its parameters
are those of the type, and they open it, but they are not found in its headers. -/
theorem opening_of_bytes_gantry :
    Gantry.gantryType.Buildable ∧
      (∀ name, name ∈ Gantry.params.values.keys ↔ name ∈ Gantry.gantryType.parameterNames) ∧
      (∃ blob, (runOn (cachedOpenBytes (Compiler.mk .aligned 5000) Gantry.gantryType
        Gantry.leftBytes (some Gantry.params)) .empty).1 = .ok blob) ∧
      (runOn (cachedOpenBytes (Compiler.mk .aligned 5000) Gantry.gantryType Gantry.leftBytes none)
        .empty).1 = .error (.invalidCapacity 24 0 5000) := by
  have given : (runOn (cachedOpenBytes (Compiler.mk .aligned 5000) Gantry.gantryType
      Gantry.leftBytes (some Gantry.params)) .empty).1.map (fun _ => ()) = .ok () := by decide +kernel
  have refused : (runOn (cachedOpenBytes (Compiler.mk .aligned 5000) Gantry.gantryType
      Gantry.leftBytes none) .empty).1.map (fun _ => ()) = .error (.invalidCapacity 24 0 5000) := by decide +kernel
  obtain ⟨blob, opened, -⟩ := map_eq_ok.1 given
  exact ⟨Gantry.buildable_gantryType, fun name => Iff.rfl, ⟨blob, opened⟩, map_eq_error.1 refused⟩

end Blob

end DeviceBlob
