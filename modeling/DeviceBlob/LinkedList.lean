import DeviceBlob.SlotArray

/-!
# Linked lists

A linked list consists of an array of items and a head.  The head holds the first and the last slot
of the list and the number of its items, and each item holds the slot of the next one; a negative
number stands for no slot.  Items are claimed and linked in the order of their slots.  The links of
a list from elsewhere may lead anywhere, so a walk follows a bounded number of them and says when a
link leads to no item.
-/

namespace DeviceBlob

/-- The head of a list. -/
structure ListHead where
  /-- The slot of the first item. -/
  first : Int32
  /-- The slot of the last item. -/
  last : Int32
  /-- The number of items. -/
  count : Int32
  deriving DecidableEq, Repr

namespace ListHead

/-- The head of a list without items. -/
def empty : ListHead := ⟨-1, -1, 0⟩

/-- The fields of a head. -/
def fieldNames : List String := ["first", "last", "count"]

/-- The type of a head that holds nothing else. -/
def type : DataType :=
  .record "ListHead" (fieldNames.map fun name => (name, .scalar .int32))

end ListHead

/-- A linked list. -/
structure LinkedList where
  /-- The items, in the list or claimed for it. -/
  items : SlotArray
  /-- The head. -/
  head : Blob
  /-- How many links a walk follows at most. -/
  maxLinks : Nat

namespace LinkedList

/-- The slot that a link leads to. -/
def slotOf? (link : Int32) : Option Nat :=
  if 0 ≤ link.toInt then some link.toInt.toNat else none

/-! ### Making lists -/

/-- Checks that a layout has an `int32` field of the given name. -/
def checkWord (layout : Layout) (field : String) : Except Error Unit :=
  match layout.accessor? field with
  | some place =>
    match place.content with
    | .scalar .int32 => .ok ()
    | other => .error (.typeMismatch field Scalar.int32.name other.storageName)
  | none => .error (.unknownField layout.typeName field)

/-- The list made of an array and a head, if they have the fields that this takes. -/
def ofParts (items : SlotArray) (head : Blob) : Except Error LinkedList := do
  checkWord items.element DataType.nextField
  ListHead.fieldNames.forM (checkWord head.layout)
  return ⟨items, head, 5000⟩

/-! ### Looking at a list -/

/-- The head of the list. -/
def readHead (list : LinkedList) : Except Error ListHead := do
  return ⟨← list.head.getInt32 "first", ← list.head.getInt32 "last",
    ← list.head.getInt32 "count"⟩

/-- The first slot of the list. -/
def first (list : LinkedList) : Except Error (Option Nat) := do
  return slotOf? (← list.head.getInt32 "first")

/-- The last slot of the list. -/
def last (list : LinkedList) : Except Error (Option Nat) := do
  return slotOf? (← list.head.getInt32 "last")

/-- The slots on a walk along the links from the given one on, if at most so many are met. -/
def walk (list : LinkedList) (links : Nat) (link : Int32) : Except Error (List Nat) :=
  match slotOf? link, links with
  | none, _ => .ok []
  | some _, 0 => .error (.cycleDetected list.maxLinks)
  | some slot, links + 1 =>
    match list.items.get? slot with
    | none => .error (.layoutMismatch list.items.typeName (.danglingLink slot))
    | some item => do
      let next ← item.getInt32 DataType.nextField
      return slot :: (← walk list links next)

/-- The slots of the list in the order of its links. -/
def slots (list : LinkedList) : Except Error (List Nat) := do
  list.walk list.maxLinks (← list.head.getInt32 "first")

/-- The number of items in the list. -/
def length (list : LinkedList) : Except Error Nat := do
  return (← list.slots).length

/-- The list has no first item. -/
def isEmpty (list : LinkedList) : Except Error Bool := do
  return (← list.first).isNone

/-- The items of the list as flat trees. -/
def toTree (list : LinkedList) : Except Error Value := do
  let slots ← list.slots
  return .list ((slots.filterMap list.items.get?).map Blob.flatTree)

/-! ### Changing a list -/

/-- The list with another head. -/
def writeHead (list : LinkedList) (head : ListHead) : Except Error LinkedList := do
  let blob ← list.head.set "first" (.int head.first.toInt64)
  let blob ← blob.set "last" (.int head.last.toInt64)
  let blob ← blob.set "count" (.int head.count.toInt64)
  return { list with head := blob }

/-- The list with another link in a slot. -/
def setNext (list : LinkedList) (slot : Nat) (link : Int32) : Except Error LinkedList := do
  list.items.checkSlot slot
  let item ← (list.items.slotBlob slot).set DataType.nextField (.int link.toInt64)
  let bytes := Slots.setSlot list.items.element list.items.bytes slot item.bytes
  return { list with items := { list.items with bytes := bytes } }

/-- The list without items and with all slots empty. -/
def init (list : LinkedList) : Except Error LinkedList :=
  { list with items := list.items.clear }.writeHead .empty

/-- The list with the next free slot claimed for an item that is not linked, and the number of that
slot. -/
def nextSlot (list : LinkedList) : Except Error (Nat × LinkedList) := do
  let (slot, items) ← list.items.nextSlot
  return (slot, ← { list with items := items }.setNext slot (-1))

/-- The item in a slot is linked to another one. -/
def isLinked (list : LinkedList) (slot : Nat) : Except Error Bool :=
  match list.items.get? slot with
  | some item => do return (slotOf? (← item.getInt32 DataType.nextField)).isSome
  | none => .ok false

/-- The list with the item in a slot behind its last one.  It must be the item claimed last, and not
in the list yet. -/
def append (list : LinkedList) (slot : Nat) : Except Error LinkedList := do
  let expected : Int := (list.items.count : Int) - 1
  let found := (list.items.index? slot).getD Slots.emptyIndex
  if found ≠ expected ∨ found ≠ (Int64.ofNat slot).toInt then
    throw (.outOfOrderAppend expected found)
  let head ← list.readHead
  if (← list.isLinked slot) ∨ slotOf? head.last = some slot then
    throw (.outOfOrderAppend (expected + 1) found)
  let link := Int32.ofNat slot
  match slotOf? head.last with
  | some tail =>
    let linked ← list.setNext tail link
    linked.writeHead ⟨head.first, link, head.count + 1⟩
  | none => list.writeHead ⟨link, link, head.count + 1⟩

/-- The entries of an item, which is linked to none if nothing else is given. -/
def entriesOf (tree : Value) : SortedMap String Value :=
  let flat := tree.flatten
  if flat.contains DataType.nextField then flat else flat.insert DataType.nextField (.int (-1))

/-- The list with an item made of a tree at its end, and the slot of that item.  If the tree is
refused the slot is emptied again. -/
def push (list : LinkedList) (tree : Value) : Except Error Nat × LinkedList :=
  match list.nextSlot with
  | .error e => (.error e, list)
  | .ok (slot, claimed) =>
    let release (list : LinkedList) : LinkedList :=
      match list.items.remove slot with
      | .ok (_, items) => { list with items := items }
      | .error _ => list
    match claimed.items.writeSlot slot (entriesOf tree) with
    | .error e => (.error e, release claimed)
    | .ok items =>
      let filled := { claimed with items := items }
      match filled.append slot with
      | .error e => (.error e, release filled)
      | .ok linked => (.ok slot, linked)

/-- A list without items, with room for as many as the capacity says. -/
def allocate (compiler : Compiler) (type : DataType) (capacity : Nat) (itemParams : Params) :
    Except Error LinkedList := do
  let items ← SlotArray.allocate compiler type capacity itemParams
  let head := Blob.allocate (← compiler.plainLayout ListHead.type)
  let list ← ofParts items head
  { list with maxLinks := compiler.maxParameter }.init

end LinkedList

end DeviceBlob
