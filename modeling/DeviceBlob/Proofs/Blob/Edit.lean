import DeviceBlob.Proofs.Blob.Cached
import DeviceBlob.Proofs.Blob.Orderly
import DeviceBlob.Proofs.SlotArray

/-!
# Changes to a blob

A blob is changed by writing a tree into it, by setting a field of one of its parts and by what is
done to one of its arrays.  Each change keeps the layout and leaves orderly bytes, and in a part it
keeps the index that the part starts with if it is an element (`Kept`); so the count of the array
that the part is in stays right, although nothing there is counted again (`Kept.changeAt`).  Hence
every blob that is `Written` can be opened again without its parameters, and a program that writes
and opens blobs with layouts from caches opens what it wrote, as long as its caches are safe for the
type (`reopening_of_written`).
-/

namespace DeviceBlob

open LayoutCache (runOn)

namespace SlotArray

variable {array : SlotArray} {slot : Nat} {content : Bytes}

/-! ### Operations on an array -/

/-- An array with orderly bytes is whole. -/
theorem whole_of_orderly (formed : array.layout.WellFormed)
    (h : array.layout.Orderly array.bytes) : array.Whole :=
  ⟨formed.1, h.length⟩

/-- Bytes stay orderly when a slot is filled with an orderly element. -/
theorem orderly_put (h : array.layout.Orderly array.bytes) (inside : slot < array.capacity)
    (new : array.element.Orderly content) :
    array.layout.Orderly (array.put slot content).bytes :=
  (h.1.setSlot inside new.length new).recount

/-- Bytes stay orderly when a slot is marked. -/
theorem orderly_mark (formed : array.layout.WellFormed) (h : array.layout.Orderly array.bytes)
    (inside : slot < array.capacity) (index : Int) :
    array.layout.Orderly (array.mark slot index).bytes := by
  rw [(whole_of_orderly formed h).mark_eq_put inside]
  exact orderly_put h inside ((h.1.each slot inside).writeIndex formed.1 index)

/-- Bytes stay orderly when an element is inserted. -/
theorem orderly_insert (formed : array.layout.WellFormed) (h : array.layout.Orderly array.bytes)
    {tree : Value} {after : SlotArray} (inserted : array.insert slot tree = .ok after) :
    after.layout = array.layout ∧ array.layout.Orderly after.bytes := by
  obtain ⟨inside, content, made, rfl⟩ := writeSlot_eq_ok_iff.1 inserted
  obtain ⟨given, -, written⟩ := bind_eq_ok.1 made
  exact ⟨rfl, orderly_put h inside
    (Layout.orderly_write (Layout.orderly_blank formed.2) written)⟩

/-- Bytes stay orderly when an element is removed. -/
theorem orderly_remove (formed : array.layout.WellFormed) (h : array.layout.Orderly array.bytes)
    {here : Bool} {after : SlotArray} (removed : array.remove slot = .ok (here, after)) :
    after.layout = array.layout ∧ array.layout.Orderly after.bytes := by
  obtain ⟨inside, ⟨-, rfl⟩ | ⟨-, rfl⟩⟩ := remove_eq_ok removed
  · exact ⟨rfl, orderly_mark formed h inside Slots.emptyIndex⟩
  · exact ⟨rfl, h⟩

/-- Bytes stay orderly when a slot is claimed. -/
theorem orderly_nextSlot (formed : array.layout.WellFormed) (h : array.layout.Orderly array.bytes)
    {after : SlotArray} (claimed : array.nextSlot = .ok (slot, after)) :
    after.layout = array.layout ∧ array.layout.Orderly after.bytes := by
  obtain ⟨free, rfl⟩ := nextSlot_eq_ok_iff.1 claimed
  exact ⟨rfl, orderly_mark formed h (freeSlot?_eq_some free).1 slot⟩

/-- Bytes stay orderly when an array is cleared. -/
theorem orderly_clear (formed : array.layout.WellFormed) (h : array.layout.Orderly array.bytes) :
    array.layout.Orderly array.clear.bytes := by
  have whole := whole_of_orderly formed h
  have header := whole.slice_clear_capacity.trans h.1.header
  refine ⟨⟨whole.length_clear.trans whole.length, header, ?_⟩, whole.counted_clear⟩
  intro slot inside
  have marked := whole.slot_clear inside
  rw [marked]
  exact (h.1.each slot inside).writeIndex formed.1 Slots.emptyIndex

/-- An operation leaves an orderly array, whether it fails or not. -/
theorem orderly_perform (formed : array.layout.WellFormed) (h : array.layout.Orderly array.bytes)
    (operation : Operation) : (array.perform operation).2.layout = array.layout ∧
      array.layout.Orderly (array.perform operation).2.bytes := by
  refine perform_induction (motive := fun after =>
    after.layout = array.layout ∧ array.layout.Orderly after.bytes) ?_ ?_ ?_ ?_ ?_ ?_ ⟨rfl, h⟩
    operation
  · rintro before slot tree after ⟨same, h⟩ inserted
    rw [← same] at formed h ⊢
    exact orderly_insert formed h inserted
  · rintro before slot here after ⟨same, h⟩ removed
    rw [← same] at formed h ⊢
    exact orderly_remove formed h removed
  · rintro before slot after ⟨same, h⟩ claimed
    rw [← same] at formed h ⊢
    exact orderly_nextSlot formed h claimed
  · rintro before ⟨same, h⟩
    rw [← same] at formed h ⊢
    exact ⟨rfl, orderly_clear formed h⟩
  · rintro before ⟨same, h⟩
    rw [← same] at formed h ⊢
    refine ⟨rfl, ?_⟩
    rw [(whole_of_orderly formed h).init_bytes]
    exact Layout.orderly_blank formed
  · rintro before ⟨same, h⟩
    rw [← same] at h ⊢
    unfold reconcile
    simp only
    split
    · exact ⟨rfl, h⟩
    · exact ⟨rfl, h.1.recount⟩

end SlotArray

namespace Blob

/-! ### Changes -/

/-- The blob that an attempt gives, or the blob before if it fails. -/
def orKeep (blob : Blob) : Except Error Blob → Blob
  | .ok after => after
  | .error _ => blob

/-- The blob with a change made to the part at the end of a path.  A path that leads nowhere changes
nothing. -/
def changeAt (change : Blob → Blob) : List Selector → Blob → Blob
  | [], blob => change blob
  | selector :: rest, blob =>
    match blob.placeOf selector with
    | .ok place => blob.replacePart place (changeAt change rest (blob.part place))
    | .error _ => blob

/-- The blob after an operation on the array that it is. -/
def performed (operation : SlotArray.Operation) (blob : Blob) : Blob :=
  match SlotArray.ofBytes blob.layout blob.bytes with
  | .ok array => (array.perform operation).2.toBlob
  | .error _ => blob

/-- Something that is done to a blob: a tree is written into it, a field of one of its parts is set,
or something is done to one of its arrays. -/
inductive Edit where
  | setTree (tree : Value)
  | set (path : List Selector) (name : String) (value : Value)
  | array (path : List Selector) (operation : SlotArray.Operation)

/-- The blob after something was done to it.  What is refused changes nothing, but for an element
that is pushed. -/
def edit (blob : Blob) : Edit → Blob
  | .setTree tree => blob.orKeep (blob.setTree tree)
  | .set path name value => changeAt (fun view => view.orKeep (view.set name value)) path blob
  | .array path operation => changeAt (performed operation) path blob

/-- Indices and array headers are left to the operations on arrays: fields are set by name in
records and slots only, and not if the name is that of an index. -/
def Edit.Allowed (blob : Blob) : Edit → Prop
  | .set path name _ => name ≠ DataType.indexField ∧
      ∀ view, blob.viewAt path = .ok view → view.layout.isArray = false
  | _ => True

/-- The blobs of a type with the given parameters that are made without values or from a tree, and
what they become by what is done to them. -/
inductive Written (compiler : Compiler) (type : DataType) (params : Params) : Blob → Prop
  | allocate {layout : Layout} (compiled : compiler.layout type params = .ok layout) :
      Written compiler type params (.allocate layout)
  | ofTree {tree : Value} {given : Params} {blob : Blob}
      (inferred : params = type.withInferred tree.flatten given)
      (made : ofTree compiler type tree given = .ok blob) : Written compiler type params blob
  | edit {blob : Blob} (before : Written compiler type params blob) (edit : Edit)
      (allowed : edit.Allowed blob) : Written compiler type params (blob.edit edit)

/-- The same blobs, made with layouts from caches that are safe for the type. -/
inductive SafelyWritten (compiler : Compiler) (type : DataType) (params : Params) : Blob → Prop
  | allocate {cache : LayoutCache} {layout : Layout} (safe : cache.SafeFor type)
      (compiled : (runOn (compiler.cachedLayout params type) cache).1 = .ok layout) :
      SafelyWritten compiler type params (.allocate layout)
  | ofTree {cache : LayoutCache} {tree : Value} {given : Params} {blob : Blob}
      (safe : cache.SafeFor type) (inferred : params = type.withInferred tree.flatten given)
      (made : (runOn (cachedOfTree compiler type tree given) cache).1 = .ok blob) :
      SafelyWritten compiler type params blob
  | edit {blob : Blob} (before : SafelyWritten compiler type params blob) (edit : Edit)
      (allowed : edit.Allowed blob) : SafelyWritten compiler type params (blob.edit edit)

/-- Where the layouts are safe, it makes no difference that they came from a cache. -/
theorem SafelyWritten.written {compiler : Compiler} {type : DataType} {params : Params}
    {blob : Blob} (safely : SafelyWritten compiler type params blob) :
    type.Buildable ∧ Written compiler type params blob := by
  induction safely with
  | allocate safe compiled =>
    rw [Compiler.runOn_cachedLayout safe] at compiled
    exact ⟨safe.buildable, .allocate compiled⟩
  | ofTree safe inferred made =>
    rw [runOn_cachedOfTree safe] at made
    exact ⟨safe.buildable, .ofTree inferred made⟩
  | edit _ edit allowed ih => exact ⟨ih.1, .edit ih.2 edit allowed⟩

/-! ### What a change keeps -/

open Layout

variable {blob view : Blob}

/-- What a change in a part keeps: the layout, orderly bytes and the index of an element. -/
structure Kept (before after : Blob) : Prop where
  layout : after.layout = before.layout
  orderly : before.layout.Orderly after.bytes
  index : before.layout.StartsWithIndex →
    Slots.readWord after.bytes 0 = Slots.readWord before.bytes 0

/-- A blob keeps what it has when nothing is done. -/
theorem Kept.refl (h : blob.layout.Orderly blob.bytes) : Kept blob blob := ⟨rfl, h, fun _ => rfl⟩

/-- Something that nested records lead to is replaced. -/
theorem kept_of_reaches {inner : Layout} {field : Field} {rest : List Field} {content : Bytes}
    (h : blob.layout.Orderly blob.bytes) (reaches : Reaches blob.layout (field :: rest) inner)
    (new : inner.Orderly content)
    (behind : blob.layout.StartsWithIndex → 4 ≤ distance (field :: rest)) :
    Kept blob { blob with bytes := blob.bytes.splice (distance (field :: rest)) content } where
  layout := rfl
  orderly := Orderly.splice reaches new h
  index := by
    intro starts
    have bounds := reaches.contains.bounds
    have length := h.length
    exact congrArg Bytes.toInt (Bytes.slice_splice_before (by omega) (behind starts))

/-- What is put into a slot has the index that the slot had, so the elements are as many as before.
-/
theorem kept_of_slot {name : String} {capacity slot : Nat} {element : Layout} {content : Bytes}
    (same : blob.layout = .array name capacity element) (h : blob.layout.Orderly blob.bytes)
    (inside : slot < capacity) (new : element.Orderly content)
    (index : Slots.readWord content 0 =
      Slots.readWord (Slots.slot element blob.bytes slot) 0) :
    Kept blob { blob with bytes := Slots.setSlot element blob.bytes slot content } where
  layout := rfl
  orderly := by
    rw [same] at h ⊢
    exact ⟨h.1.setSlot inside new.length new, h.2.setSlot h.1.room inside new.length index⟩
  index := by
    rintro ⟨recordName, fields, isRecord⟩
    rw [same] at isRecord
    cases isRecord

/-- A change that keeps the part at the end of a path keeps the blob. -/
theorem Kept.changeAt {change : Blob → Blob} : ∀ {path : List Selector} {blob : Blob},
    blob.layout.WellFormed → blob.layout.Orderly blob.bytes →
      (∀ view, blob.viewAt path = .ok view → view.layout.WellFormed →
        view.layout.Orderly view.bytes → Kept view (change view)) →
      Kept blob (changeAt change path blob)
  | [], blob, formed, h, keeps => keeps blob rfl formed h
  | selector :: rest, blob, formed, h, keeps => by
    unfold Blob.changeAt
    split
    · next place chosen =>
      have below : (blob.part place).layout.Orderly (blob.part place).bytes →
          Kept (blob.part place) (Blob.changeAt change rest (blob.part place)) := by
        intro part
        refine changeAt ((contains_of_placeOf chosen).wellFormed formed) part ?_
        intro view found
        refine keeps view ?_
        rw [viewAt, chosen, ok_bind]
        exact found
      rcases placeOf_eq_ok chosen with ⟨field, others, reaches, starts, noIndex⟩ |
        ⟨name, capacity, element, slot, same, inside, rfl⟩
      · have part := Orderly.part reaches h
        rw [← starts] at part
        have inner := below part
        unfold replacePart
        rw [starts]
        refine kept_of_reaches h reaches inner.orderly ?_
        intro elements
        rcases reaches.four_le elements with behind | ⟨-, -, isIndex⟩
        · exact behind
        · exact absurd isIndex noIndex
      · have slots := h
        rw [same] at slots
        have inner := below (slots.1.each slot inside)
        rw [same] at formed
        exact kept_of_slot same h inside inner.orderly (inner.index formed.1)
    · exact .refl h

/-- The bytes of a value are orderly. -/
theorem orderly_of_encoded {content : Layout} {name : String} {value : Value} {bytes : Bytes}
    (h : encoded content name value = .ok (some bytes)) : content.Orderly bytes := by
  cases content with
  | scalar kind =>
    obtain ⟨written, stored, same⟩ := bind_eq_ok.1 h
    cases same
    exact Scalar.stored_of_write stored
  | enum type =>
    obtain ⟨written, stored, same⟩ := bind_eq_ok.1 h
    cases same
    exact EnumType.stored_of_write stored
  | _ => cases h

/-- A field other than the index is set. -/
theorem kept_of_set {name : String} {value : Value} {after : Blob}
    (h : blob.layout.Orderly blob.bytes) (isArray : blob.layout.isArray = false)
    (other : name ≠ DataType.indexField) (set : blob.set name value = .ok after) :
    Kept blob after := by
  obtain ⟨place, accessed, set⟩ := bind_eq_ok.1 set
  have found := accessor_eq_ok accessed
  obtain ⟨bytes?, given, set⟩ := bind_eq_ok.1 set
  cases bytes? with
  | none =>
    cases set
    exact .refl h
  | some bytes =>
    cases set
    have new := orderly_of_encoded given
    cases kind : blob.layout.isRecord with
    | true =>
      obtain ⟨layout, held⟩ := blob
      cases layout with
      | record typeName fields =>
        obtain ⟨field, rest, reaches, named, starts⟩ := reaches_accessor found.1
        rw [starts]
        refine kept_of_reaches h reaches new ?_
        intro elements
        rcases reaches.four_le elements with behind | ⟨rfl, rfl, -⟩
        · exact behind
        · exact absurd (found.2.symm.trans named) other
      | _ => cases kind
    | false =>
      obtain rfl := accessor_of_leaf kind isArray found.1
      refine ⟨rfl, Orderly.splice (.stop _) new h, ?_⟩
      rintro ⟨typeName, fields, isRecord⟩
      rw [isRecord] at kind
      cases kind

/-- An array in a blob is the blob. -/
theorem ofBytes_eq_ok {layout : Layout} {bytes : Bytes} {array : SlotArray}
    (h : SlotArray.ofBytes layout bytes = .ok array) :
    array.layout = layout ∧ array.bytes = bytes := by
  unfold SlotArray.ofBytes at h
  split at h
  · split at h
    · cases h
    · cases h
      exact ⟨rfl, rfl⟩
  · cases h

/-- A blob keeps what it has when something is done to its array. -/
theorem kept_of_perform (formed : blob.layout.WellFormed) (h : blob.layout.Orderly blob.bytes)
    (operation : SlotArray.Operation) : Kept blob (blob.performed operation) := by
  unfold performed
  split
  · next array opened =>
    obtain ⟨same, held⟩ := ofBytes_eq_ok opened
    rw [← same] at formed h
    rw [← held] at h
    obtain ⟨kept, orderly⟩ := SlotArray.orderly_perform formed h operation
    refine ⟨kept.trans same, same ▸ orderly, ?_⟩
    rintro ⟨name, fields, isRecord⟩
    rw [← same] at isRecord
    cases isRecord
  · exact .refl h

/-- What is done to a blob keeps the layout and leaves orderly bytes. -/
theorem orderly_edit (formed : blob.layout.WellFormed) (h : blob.layout.Orderly blob.bytes)
    (edit : Edit) (allowed : edit.Allowed blob) :
    (blob.edit edit).layout = blob.layout ∧ blob.layout.Orderly (blob.edit edit).bytes := by
  cases edit with
  | setTree tree =>
    simp only [Blob.edit]
    cases written : blob.setTree tree with
    | error e => exact ⟨rfl, h⟩
    | ok after =>
      obtain ⟨bytes, filled, same⟩ := bind_eq_ok.1 written
      obtain rfl := pure_eq_ok.1 same
      have all : blob.region = blob.bytes := List.take_of_length_le (Nat.le_of_eq h.length)
      rw [all] at filled
      refine ⟨rfl, ?_⟩
      show blob.layout.Orderly (bytes ++ blob.bytes.drop blob.layout.size)
      rw [List.drop_of_length_le (Nat.le_of_eq h.length), List.append_nil]
      exact orderly_write h filled
  | set path name value =>
    have kept : Kept blob (blob.edit (.set path name value)) := by
      refine Kept.changeAt formed h ?_
      intro view found viewFormed orderly
      cases set : view.set name value with
      | error e => exact .refl orderly
      | ok after => exact kept_of_set orderly (allowed.2 view found) allowed.1 set
    exact ⟨kept.layout, kept.orderly⟩
  | array path operation =>
    have kept : Kept blob (blob.edit (.array path operation)) :=
      Kept.changeAt formed h fun view _ viewFormed orderly =>
        kept_of_perform viewFormed orderly operation
    exact ⟨kept.layout, kept.orderly⟩

variable {compiler : Compiler} {type : DataType} {params : Params}

/-- A blob that was written has the layout of its type, and its bytes are orderly. -/
theorem Written.orderly (buildable : type.Buildable) (written : Written compiler type params blob) :
    compiler.layout type params = .ok blob.layout ∧ blob.layout.Orderly blob.bytes := by
  induction written with
  | allocate compiled =>
    exact ⟨compiled, orderly_blank (wellFormed_of_layout buildable compiled)⟩
  | ofTree inferred made =>
    subst inferred
    obtain ⟨layout, compiled, made⟩ := bind_eq_ok.1 made
    obtain ⟨bytes, filled, same⟩ := bind_eq_ok.1 made
    obtain rfl := pure_eq_ok.1 same
    exact ⟨compiled, orderly_write (orderly_blank (wellFormed_of_layout buildable compiled)) filled⟩
  | edit before edit allowed ih =>
    obtain ⟨compiled, orderly⟩ := ih
    obtain ⟨same, kept⟩ :=
      orderly_edit (wellFormed_of_layout buildable compiled) orderly edit allowed
    rw [same]
    exact ⟨compiled, kept⟩

/-- What a path leads to in an orderly blob is orderly, and a part of the layout. -/
theorem orderly_viewAt : ∀ {path : List Selector} {blob view : Blob},
    blob.layout.Orderly blob.bytes → blob.viewAt path = .ok view →
      view.layout.Orderly view.bytes ∧ ∃ offset, blob.layout.Contains offset view.layout
  | [], _, _, h, found => by
    cases found
    exact ⟨h, 0, .self _⟩
  | selector :: rest, blob, view, h, found => by
    obtain ⟨place, chosen, found⟩ := bind_eq_ok.1 found
    have part : (blob.part place).layout.Orderly (blob.part place).bytes := by
      rcases placeOf_eq_ok chosen with ⟨field, others, reaches, starts, -⟩ |
        ⟨name, capacity, element, slot, same, inside, rfl⟩
      · have inner := Orderly.part reaches h
        rwa [← starts] at inner
      · rw [same] at h
        exact h.1.each slot inside
    obtain ⟨orderly, offset, contains⟩ := orderly_viewAt part found
    exact ⟨orderly, _, (contains_of_placeOf chosen).trans contains⟩

/-- **Every blob that was written can be opened again**, whatever was done to it, whatever follows
its bytes and whatever cache the layouts come from that is safe for the type: the capacities that are
read from the blob are the parameters that it was made with, so it has the layout that it had.  And
the header of each array in it, in a slot that holds an element or not, has the number of the
elements of the array. -/
theorem reopening_of_written
    (small : ∀ name ∈ type.parameterNames, ∀ value, params.get? name = some value →
      value.toInt ≤ 2147483647)
    (safely : SafelyWritten compiler type params blob) :
    (∀ cache : LayoutCache, cache.SafeFor type →
      (runOn (compiler.cachedLayout params type) cache).1 = .ok blob.layout ∧
      ∀ trailing : Bytes, ∃ inferred,
        (runOn ((compiler.cachedScanner (blob.bytes ++ trailing)).params type) cache).1 =
            .ok inferred ∧
          (∀ name, inferred.get? name =
            if name ∈ type.parameterNames then params.get? name else none) ∧
          blob.layout.params = inferred ∧
          (runOn (cachedOpenBytes compiler type (blob.bytes ++ trailing) none) cache).1 =
            .ok ⟨blob.layout, blob.bytes ++ trailing⟩) ∧
    ∀ path view name capacity element, blob.viewAt path = .ok view →
      view.layout = .array name capacity element →
        Slots.storedCount view.bytes = (Slots.present capacity element view.bytes).length := by
  obtain ⟨buildable, written⟩ := safely.written
  obtain ⟨compiled, orderly⟩ := written.orderly buildable
  have capacities : ∀ entry ∈ blob.layout.capacitiesUnder "", entry.2 ≤ 2147483647 := by
    rintro ⟨name, capacity⟩ mem
    obtain ⟨named, held, value⟩ := capacity_of_layout buildable compiled mem
    have bound := small name named _ held
    rw [value] at bound
    exact Int.ofNat_le.1 bound
  refine ⟨fun cache safe => ?_, ?_⟩
  · simp only [Compiler.runOn_cachedLayout safe, Compiler.runOn_params safe,
      runOn_cachedOpenBytes safe]
    refine ⟨compiled, fun trailing => ?_⟩
    have front : (blob.bytes ++ trailing).slice 0 blob.layout.size = blob.bytes := by
      rw [← orderly.length, Bytes.slice_append_left (by omega), Bytes.slice_all rfl]
    have headed : blob.layout.Headed (blob.bytes ++ trailing) 0 := by
      refine headed_of_orderly "" capacities ?_
      rw [front]
      exact orderly
    have room : blob.layout.size ≤ (blob.bytes ++ trailing).length := by
      rw [List.length_append, orderly.length]
      exact Nat.le_add_right _ _
    have given : openBytes compiler type (blob.bytes ++ trailing) (some params) =
        .ok ⟨blob.layout, blob.bytes ++ trailing⟩ :=
      openBytes_some_iff.2 ⟨compiled, rfl, room, headed⟩
    obtain ⟨found, opened⟩ := openBytes_none_of_some buildable given
    exact ⟨_, found, get?_params buildable compiled, rfl, opened⟩
  · intro path view name capacity element found same
    obtain ⟨part, offset, contains⟩ := orderly_viewAt orderly found
    rw [same] at part contains
    obtain ⟨parent, among⟩ := contains.capacitiesUnder_subset ""
    have fits := capacities _ (among List.mem_cons_self)
    have few := Slots.length_present_le capacity element view.bytes
    show Bytes.toInt (view.bytes.slice 4 4) = _
    rw [part.2]
    exact Slots.toInt_word (Slots.isWord_of_le (Nat.le_trans few fits))

end Blob

namespace Scene

/-- A scene in which the state of a particle was set before its slot was claimed. -/
def claimed : Blob :=
  ((Blob.allocate sceneLayout).edit
    (.set [.array "particles", .slot 0] "state" (.label "moving"))).edit
      (.array [.array "particles"] .nextSlot)

/-- A scene in which a slot was claimed is one that was written with safe caches. -/
theorem safelyWritten_claimed :
    Blob.SafelyWritten (Compiler.mk .aligned 5000) sceneType params claimed := by
  have safe := LayoutCache.safeFor_sceneType
  have allowed : Blob.Edit.Allowed (.allocate sceneLayout)
      (.set [.array "particles", .slot 0] "state" (.label "moving")) := by
    refine ⟨by decide, ?_⟩
    intro view found
    have reached : (Blob.allocate sceneLayout).viewAt [.array "particles", .slot 0] =
        .ok ⟨particleLayout, particleLayout.blankSlot⟩ := rfl
    cases reached.symm.trans found
    rfl
  have compiled := (Compiler.runOn_cachedLayout safe).trans layout_sceneType
  exact .edit (.edit (.allocate safe compiled) _ allowed) _ trivial

/-- So it is one that was written. -/
theorem written_claimed : Blob.Written (Compiler.mk .aligned 5000) sceneType params claimed :=
  safelyWritten_claimed.written.2

end Scene

/-- A scene with one particle is opened with the capacity that it was made with, whatever follows
it, also by a program with an empty cache. -/
theorem Blob.reopening_of_written_scene :
    (∀ name ∈ Scene.sceneType.parameterNames, ∀ value, Scene.params.get? name = some value →
        value.toInt ≤ 2147483647) ∧
      SafelyWritten (Compiler.mk .aligned 5000) Scene.sceneType Scene.params Scene.claimed ∧
      LayoutCache.empty.SafeFor Scene.sceneType ∧
      ∀ trailing : Bytes, ∃ inferred,
        (runOn (((Compiler.mk .aligned 5000).cachedScanner
          (Scene.claimed.bytes ++ trailing)).params Scene.sceneType) .empty).1 = .ok inferred ∧
          inferred.get? "particles_capacity" = some 2 := by
  have small : ∀ name ∈ Scene.sceneType.parameterNames, ∀ value,
      Scene.params.get? name = some value → value.toInt ≤ 2147483647 := by
    intro name mem value held
    obtain rfl := List.mem_singleton.1 mem
    cases held
    decide
  have safe := LayoutCache.safeFor_sceneType_empty
  obtain ⟨opened, -⟩ := reopening_of_written small Scene.safelyWritten_claimed
  refine ⟨small, Scene.safelyWritten_claimed, safe, ?_⟩
  intro trailing
  obtain ⟨inferred, found, values, -⟩ := (opened _ safe).2 trailing
  exact ⟨inferred, found, values "particles_capacity"⟩

/-- The arms of a gantry share a name and a fingerprint.  On an empty cache a blank gantry is made
with the layout of its left arm in the place of both, and with that it is not opened again: the
capacity of the right arm is looked for in front of its header. -/
theorem Blob.reopening_of_written_gantry :
    Gantry.gantryType.Buildable ∧ ∃ layout,
      (runOn ((Compiler.mk .aligned 5000).cachedLayout Gantry.params Gantry.gantryType) .empty).1 =
        .ok layout ∧
      (runOn (cachedOpenBytes (Compiler.mk .aligned 5000) Gantry.gantryType
        (allocate layout).bytes none) .empty).1 = .error (.invalidCapacity 24 0 5000) := by
  have blank : (runOn ((Compiler.mk .aligned 5000).cachedLayout Gantry.params Gantry.gantryType)
      .empty).1.map Layout.blank = .ok Gantry.leftBytes := by decide +kernel
  have refused : (runOn (cachedOpenBytes (Compiler.mk .aligned 5000) Gantry.gantryType
      Gantry.leftBytes none) .empty).1.map (fun _ => ()) =
        .error (.invalidCapacity 24 0 5000) := by decide +kernel
  obtain ⟨layout, compiled, bytes⟩ := map_eq_ok.1 blank
  refine ⟨Gantry.buildable_gantryType, layout, compiled, ?_⟩
  rw [allocate, bytes]
  exact map_eq_error.1 refused

end DeviceBlob
