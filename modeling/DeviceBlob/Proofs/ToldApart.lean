import DeviceBlob.Proofs.Buildable

/-!
# Types that are told apart

Whatever is kept for a type, a layout in a cache or the code in a unit, is found again under the
name of the type and its fingerprint of 32 bits.  Types are `ToldApart` if no two of them share
both, and if the types that they are made of are among them; then what was made for one type is
never taken for another.  The types that a document declares are told apart by their names alone
(`Registry.Closed.toldApart`).  Of other types it has to be asked, since two records of one name can
have different fields and one fingerprint; it is enough to ask it of what is `Within` a type
(`ToldApart.within`).
-/

namespace DeviceBlob

/-- What a type is made of: the types of its fields or of its elements. -/
def DataType.parts : DataType → List DataType
  | scalar _ => []
  | enum _ => []
  | record _ fields => fields.map (·.2)
  | array _ element => [element]

/-- Types that their names and fingerprints tell apart, along with their parts. -/
structure ToldApart (among : DataType → Prop) : Prop where
  /-- The types are made by the checked constructors. -/
  buildable : ∀ type, among type → type.Buildable
  /-- The parts of a type are among them. -/
  parts : ∀ type, among type → ∀ part ∈ type.parts, among part
  /-- There is one type of each name and fingerprint. -/
  unique : ∀ type other, among type → among other → type.name = other.name →
    type.fingerprint = other.fingerprint → type = other

/-- What a type is made of all the way down, the type itself included. -/
inductive DataType.Within (type : DataType) : DataType → Prop
  | whole : Within type type
  | part {whole part : DataType} (inside : Within type whole) (mem : part ∈ whole.parts) :
      Within type part

variable {type part : DataType}

/-- The parts of a type that can be built can be built. -/
theorem DataType.Buildable.of_mem_parts (buildable : type.Buildable) (mem : part ∈ type.parts) :
    part.Buildable := by
  cases type with
  | scalar _ => cases mem
  | enum _ => cases mem
  | record name fields =>
    obtain ⟨field, listed, rfl⟩ := List.mem_map.1 mem
    exact buildable.of_mem_fields field listed
  | array name element =>
    rw [List.mem_singleton.1 mem]
    exact buildable.element

/-- So can the parts of its parts. -/
theorem DataType.Buildable.of_within (buildable : type.Buildable) (within : type.Within part) :
    part.Buildable := by
  induction within with
  | whole => exact buildable
  | part inside mem ih => exact ih.of_mem_parts mem

/-- A type without two different parts of one name and one fingerprint. -/
theorem ToldApart.within (buildable : type.Buildable)
    (unique : ∀ part other, type.Within part → type.Within other → part.name = other.name →
      part.fingerprint = other.fingerprint → part = other) :
    ToldApart type.Within where
  buildable := fun _ => buildable.of_within
  parts := fun _ inside _ => .part inside
  unique := unique

end DeviceBlob
