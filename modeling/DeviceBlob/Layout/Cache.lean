import DeviceBlob.Layout.Compile

/-!
# A cache of layouts

Layouts of records and arrays are worth keeping, also those of the parts that a layout is made of.
A layout is found again under the name and the fingerprint of its type, the packing, and the
parameters that the type depends on.  The bound on capacities is not part of the key: parameters are
checked before the cache is asked.

`Compiler.cachedLayout` finds or makes a layout and counts both cases.  What it makes it puts into
the cache, in an attempt that fails as well.  Two types of one name and one fingerprint share a key:
the one that is asked for later gets the layout of the other.  Among types that are told apart by
their names and fingerprints it gives what `Compiler.layout` gives.
-/

namespace DeviceBlob

/-- What a cached layout is found under. -/
structure LayoutKey where
  /-- The name of the type. -/
  typeName : String
  /-- The fingerprint of the type. -/
  fingerprint : Fingerprint
  /-- Whether vectors are padded. -/
  packing : Packing
  /-- The parameters that the type depends on. -/
  params : Params
  deriving DecidableEq

/-- Layouts made before, with counts of the look-ups. -/
structure LayoutCache where
  /-- The layouts, the newest first. -/
  entries : List (LayoutKey × Layout)
  /-- How many look-ups found a layout. -/
  hits : Nat
  /-- How many look-ups found none. -/
  misses : Nat
  deriving Inhabited

namespace LayoutCache

/-- The cache without layouts. -/
def empty : LayoutCache := ⟨[], 0, 0⟩

/-- The layout kept under a key. -/
def find? (cache : LayoutCache) (key : LayoutKey) : Option Layout :=
  cache.entries.lookup key

/-- One more look-up found a layout. -/
def countHit (cache : LayoutCache) : LayoutCache := { cache with hits := cache.hits + 1 }

/-- One more look-up found no layout. -/
def countMiss (cache : LayoutCache) : LayoutCache := { cache with misses := cache.misses + 1 }

/-- The cache with one more layout. -/
def keep (cache : LayoutCache) (key : LayoutKey) (layout : Layout) : LayoutCache :=
  { cache with entries := (key, layout) :: cache.entries.filter (·.1 ≠ key) }

/-- The cache without its layouts, counting anew. -/
def clear (_cache : LayoutCache) : LayoutCache := empty

/-- An attempt that may use a cache and fill it; the cache stays also when the attempt fails. -/
abbrev Attempt := ExceptT Error (StateM LayoutCache)

/-- What an attempt on a cache gives, and the cache that it leaves. -/
def runOn {α : Type} (attempt : Attempt α) (cache : LayoutCache) : Except Error α × LayoutCache :=
  attempt.run.run cache

end LayoutCache

namespace Compiler

open LayoutCache (Attempt)

/-- The key of a type's layout. -/
def key (compiler : Compiler) (type : DataType) (required : Params) : LayoutKey :=
  ⟨type.name, type.fingerprint, compiler.packing, required⟩

mutual

/-- The layout of a type under parameters, taken from the cache if it is there. -/
def cachedLayout (compiler : Compiler) (params : Params) (type : DataType) : Attempt Layout := do
  let required ← liftExcept (params.requiredBy type compiler.maxParameter)
  let key := compiler.key type required
  match (← get).find? key with
  | some layout =>
    modify LayoutCache.countHit
    return layout
  | none =>
    modify LayoutCache.countMiss
    let layout ← match type with
      | .scalar kind => pure (.scalar kind)
      | .enum enum => pure (.enum enum)
      | .record name fields => do
        let runs := VectorRun.padded compiler.packing fields
        liftExcept (Layout.ofFields name (← cachedFields compiler required runs 0 fields))
      | .array name element => do
        let capacity ← liftExcept (Layout.capacityOf name required)
        let itemParams := required.inside DataType.itemPrefix
        pure (.array name capacity (← cachedLayout compiler itemParams element))
    modify (·.keep key layout)
    return layout

/-- The layouts of consecutive fields, of which the first has the given position in its record.
Numbers and enums are not worth a look-up. -/
def cachedFields (compiler : Compiler) (params : Params) (runs : List VectorRun) (position : Nat)
    (fields : List (String × DataType)) : Attempt (List (String × Layout)) := do
  match fields with
  | [] => return []
  | (name, .scalar kind) :: rest =>
    let others ← cachedFields compiler params runs (position + 1) rest
    return (name, .scalar kind) :: Layout.paddingBehind runs position ++ others
  | (name, .enum enum) :: rest =>
    let others ← cachedFields compiler params runs (position + 1) rest
    return (name, .enum enum) :: Layout.paddingBehind runs position ++ others
  | (name, type) :: rest =>
    let layout ← cachedLayout compiler (params.inside name) type
    let others ← cachedFields compiler params runs (position + 1) rest
    return (name, layout) :: Layout.paddingBehind runs position ++ others

end

/-- The layout of a type that depends on no parameter, taken from the cache if it is there. -/
def cachedPlainLayout (compiler : Compiler) (type : DataType) : Attempt Layout := do
  liftExcept (checkPlain type)
  cachedLayout compiler ∅ type

end Compiler

end DeviceBlob
