import DeviceBlob.Blob.Cached
import DeviceBlob.Proofs.Layout.Cache

/-!
# Blobs with layouts from a cache are those without one

Opening and making blobs takes its layouts from a cache.  On caches that were used for types which
are told apart this changes nothing: neither the capacities that are found in the headers
(`answers_params`), nor what is opened (`answers_cachedOpenBytes`), nor what is made of a tree
(`answers_cachedOfTree`) or without values (`LinkedList.answers_cachedAllocate`).  So what is said
about blobs without a cache holds on each cache that is safe for their types.

The headers are read by one scan for all kinds of steps.  `StepRelation.scan` says so: two scanners
whose single steps are related take related scans.
-/

namespace DeviceBlob

/-! ### One scan by two kinds of steps -/

/-- A relation between steps of two kinds that is kept when steps follow one another. -/
structure StepRelation (m n : Type → Type) [Monad m] [Monad n] where
  /-- The steps do the same. -/
  Holds : {α : Type} → m α → n α → Prop
  holds_pure : ∀ {α : Type} (a : α), Holds (pure a) (pure a)
  holds_bind : ∀ {α β : Type} {x : m α} {y : n α} {f : α → m β} {g : α → n β},
    Holds x y → (∀ a, Holds (f a) (g a)) → Holds (x >>= f) (y >>= g)

namespace StepRelation

variable {m n : Type → Type} [Monad m] [Monad n] {relation : StepRelation m n}
  {known : DataType → Prop} {scanner : Scanner m} {other : Scanner n}

/-- The single steps of two scanners are related, as far as they measure known types. -/
structure Scanners (relation : StepRelation m n) (known : DataType → Prop) (scanner : Scanner m)
    (other : Scanner n) : Prop where
  /-- The parts of known types are known. -/
  parts : ∀ type, known type → ∀ part ∈ type.parts, known part
  packing : scanner.packing = other.packing
  plainLayout : ∀ type, known type →
    relation.Holds (scanner.plainLayout type) (other.plainLayout type)
  capacity : ∀ typeName offset,
    relation.Holds (scanner.capacity typeName offset) (other.capacity typeName offset)

mutual

/-- Scans by related steps are related. -/
theorem scan (related : relation.Scanners known scanner other) : ∀ {type : DataType}
    {offset : Nat} {parent : String}, known type →
      relation.Holds (scanner.scan offset parent type) (other.scan offset parent type)
  | .scalar _, _, _, asked | .enum _, _, _, asked =>
    relation.holds_bind (related.plainLayout _ asked) fun _ => relation.holds_pure _
  | .record name fields, _, _, asked => by
    rw [Scanner.scan, Scanner.scan]
    split
    · exact relation.holds_bind (related.plainLayout _ asked) fun _ => relation.holds_pure _
    · rw [related.packing]
      exact scanFields related fun field mem =>
        related.parts _ asked _ (List.mem_map_of_mem mem)
  | .array name element, _, _, asked => by
    have part := related.parts _ asked element List.mem_cons_self
    exact relation.holds_bind (related.capacity _ _) fun _ =>
      relation.holds_bind (scan related part) fun _ => relation.holds_pure _

/-- So are the scans of consecutive fields. -/
theorem scanFields (related : relation.Scanners known scanner other) {runs : List VectorRun} :
    ∀ {fields : List (String × DataType)} {position offset : Nat} {parent : String},
      (∀ field ∈ fields, known field.2) →
        relation.Holds (scanner.scanFields offset parent runs position fields)
          (other.scanFields offset parent runs position fields)
  | [], _, _, _, _ => relation.holds_pure _
  | (_, _) :: _, _, _, _, asked =>
    relation.holds_bind (scan related (asked _ List.mem_cons_self)) fun _ =>
      relation.holds_bind
        (scanFields related fun field mem => asked field (List.mem_cons_of_mem _ mem))
        fun _ => relation.holds_pure _

end

/-- So are the parameters that scans find. -/
theorem params (related : relation.Scanners known scanner other) {type : DataType}
    (asked : known type) : relation.Holds (scanner.params type) (other.params type) :=
  relation.holds_bind (scan related asked) fun _ => relation.holds_pure _

end StepRelation

/-! ### Attempts on a cache -/

open LayoutCache

variable {known : DataType → Prop} {compiler : Compiler} {type : DataType} {bytes : Bytes}
  {params : Params} {params? : Option Params} {cache : LayoutCache}

/-- Attempts on caches with a property, and the steps that give their outcomes. -/
def LayoutCache.answering (P : LayoutCache → Prop) : StepRelation Attempt (Except Error) where
  Holds := Answers P
  holds_pure := .pure
  holds_bind := fun here there => here.bind fun a _ => there a

namespace Compiler

/-- The capacities in the headers of a blob are found as without a cache. -/
theorem answers_params (told : ToldApart known) (asked : known type) :
    Answers (UsedFor known) ((compiler.cachedScanner bytes).params type)
      (compiler.paramsOfBytes type bytes) := by
  have related : (answering (UsedFor known)).Scanners known (compiler.cachedScanner bytes)
      (compiler.scanner bytes) := {
    parts := told.parts
    packing := rfl
    plainLayout := fun _ => answers_cachedPlainLayout told
    capacity := fun typeName offset =>
      Answers.liftExcept (compiler.headerCapacity typeName bytes offset) }
  exact StepRelation.params related asked

/-- On a cache that is safe for a type its parameters are found as without a cache. -/
theorem runOn_params (safe : cache.SafeFor type) :
    (runOn ((compiler.cachedScanner bytes).params type) cache).1 =
      compiler.paramsOfBytes type bytes :=
  safe.outcome fun _ => answers_params

end Compiler

namespace Blob

/-- Bytes are opened as without a cache. -/
theorem answers_cachedOpenBytes (told : ToldApart known) (asked : known type) :
    Answers (UsedFor known) (cachedOpenBytes compiler type bytes params?)
      (openBytes compiler type bytes params?) := by
  have behind : ∀ params, Answers (UsedFor known) (do
      let layout ← compiler.cachedLayout params type
      liftExcept (layout.checkShape bytes)
      liftExcept (ofBytes layout bytes)) (do
        let layout ← compiler.layout type params
        layout.checkShape bytes
        ofBytes layout bytes) := fun params =>
    (Compiler.answers_cachedLayout told asked).bind fun _ _ =>
      (Answers.liftExcept _).bind fun _ _ => .liftExcept _
  cases params? with
  | some params => exact behind params
  | none => exact (Compiler.answers_params told asked).bind fun params _ => behind params

/-- On a cache that is safe for a type its bytes are opened as without a cache. -/
theorem runOn_cachedOpenBytes (safe : cache.SafeFor type) :
    (runOn (cachedOpenBytes compiler type bytes params?) cache).1 =
      openBytes compiler type bytes params? :=
  safe.outcome fun _ => answers_cachedOpenBytes

/-- A tree is written as without a cache. -/
theorem answers_cachedOfTree {tree : Value} (told : ToldApart known) (asked : known type) :
    Answers (UsedFor known) (cachedOfTree compiler type tree params)
      (ofTree compiler type tree params) :=
  (Compiler.answers_cachedLayout told asked).bind fun _ _ =>
    (Answers.liftExcept _).bind fun _ _ => .pure _

/-- On a cache that is safe for a type its trees are written as without a cache. -/
theorem runOn_cachedOfTree {tree : Value} (safe : cache.SafeFor type) :
    (runOn (cachedOfTree compiler type tree params) cache).1 = ofTree compiler type tree params :=
  safe.outcome fun _ => answers_cachedOfTree

end Blob

namespace SlotArray

/-- An array is opened as without a cache. -/
theorem answers_cachedOpenBytes (told : ToldApart known) (asked : known type) :
    Answers (UsedFor known) (cachedOpenBytes compiler type bytes params?)
      (openBytes compiler type bytes params?) :=
  (Blob.answers_cachedOpenBytes told asked).bind fun _ _ =>
    (Answers.liftExcept _).bind fun _ _ => .pure _

/-- An array is made as without a cache. -/
theorem answers_cachedAllocate {capacity : Nat} (told : ToldApart known) (asked : known type) :
    Answers (UsedFor known) (cachedAllocate compiler type capacity params)
      (allocate compiler type capacity params) :=
  (Compiler.answers_cachedLayout told asked).bind fun _ _ => .liftExcept _

end SlotArray

/-- A list is made as without a cache, if its type and that of a head are told apart.  Without that
a record that a document calls like the head may be taken for it. -/
theorem LinkedList.answers_cachedAllocate {capacity : Nat} (told : ToldApart known)
    (asked : known type) (head : known ListHead.type) :
    Answers (UsedFor known) (cachedAllocate compiler type capacity params)
      (allocate compiler type capacity params) :=
  (SlotArray.answers_cachedAllocate told asked).bind fun _ _ =>
    (Compiler.answers_cachedPlainLayout told head).bind fun _ _ =>
      (Answers.liftExcept _).bind fun _ _ => .liftExcept _

namespace Gantry

/-- A blank gantry if both arms have the layout of the left one. -/
def leftBytes : Bytes :=
  let arm : Bytes := [0, 0, 0, 0, 0, 0, 0, 0, 1, 0, 0, 0, 0, 0, 0, 0, 255, 255, 255, 255]
  arm ++ arm

end Gantry

end DeviceBlob
