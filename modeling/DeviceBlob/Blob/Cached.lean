import DeviceBlob.Layout.Cache
import DeviceBlob.LinkedList

/-!
# Blobs with layouts from a cache

A program lays out the same types again and again, so whatever opens or makes a blob asks a cache
for the layouts, and leaves it to the next one.  The steps are those that do without a cache; only
where a layout comes from is different.
-/

namespace DeviceBlob

open LayoutCache (Attempt)

namespace Compiler

/-- Reads the headers of a blob in the given bytes.  Parts without parameters are measured by
layouts from the cache. -/
def cachedScanner (compiler : Compiler) (bytes : Bytes) : Scanner Attempt where
  packing := compiler.packing
  plainLayout := compiler.cachedPlainLayout
  capacity := fun typeName offset => liftExcept (compiler.headerCapacity typeName bytes offset)

end Compiler

namespace Blob

/-- The bytes as a blob of a type.  Parameters that are not given are read from the blob itself, and
in any case all array headers must hold the capacities of the layout. -/
def cachedOpenBytes (compiler : Compiler) (type : DataType) (bytes : Bytes)
    (params? : Option Params) : Attempt Blob := do
  let params ← match params? with
    | some params => pure params
    | none => (compiler.cachedScanner bytes).params type
  let layout ← compiler.cachedLayout params type
  liftExcept (layout.checkShape bytes)
  liftExcept (ofBytes layout bytes)

/-- The blob of a type with the values of a tree.  Capacities that are not given are as large as the
tree needs. -/
def cachedOfTree (compiler : Compiler) (type : DataType) (tree : Value) (params : Params) :
    Attempt Blob := do
  let flat := tree.flatten
  let layout ← compiler.cachedLayout (type.withInferred flat params) type
  return ⟨layout, ← liftExcept (layout.write layout.blank flat)⟩

end Blob

namespace SlotArray

/-- The bytes as an array of a type, with its count corrected. -/
def cachedOpenBytes (compiler : Compiler) (type : DataType) (bytes : Bytes)
    (params? : Option Params) : Attempt SlotArray := do
  let blob ← Blob.cachedOpenBytes compiler type bytes params?
  return (← liftExcept (ofBytes blob.layout blob.bytes)).reconcile.2

/-- An array with the given number of empty slots.  The parameters are those of the element type. -/
def cachedAllocate (compiler : Compiler) (type : DataType) (capacity : Nat)
    (itemParams : Params) : Attempt SlotArray := do
  let params := itemParams.prefixed DataType.itemPrefix
  let params := params.insert DataType.capacityParameter (.ofNat capacity)
  let blob := Blob.allocate (← compiler.cachedLayout params type)
  liftExcept (ofBytes blob.layout blob.bytes)

end SlotArray

namespace LinkedList

/-- A list without items, with room for as many as the capacity says. -/
def cachedAllocate (compiler : Compiler) (type : DataType) (capacity : Nat)
    (itemParams : Params) : Attempt LinkedList := do
  let items ← SlotArray.cachedAllocate compiler type capacity itemParams
  let head := Blob.allocate (← compiler.cachedPlainLayout ListHead.type)
  let list ← liftExcept (ofParts items head)
  liftExcept { list with maxLinks := compiler.maxParameter }.init

end LinkedList

end DeviceBlob
