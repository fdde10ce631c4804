import DeviceBlob.Proofs.Layout.Cache

/-!
# What all layouts from a cache have in common

Where two types share a name and a fingerprint, a cache may give one of them the layout of the other.
Still each layout was put together by the compiler at some time, under the parameters that it is
asked for.  So it is `Proper`: no two accessors on one level of it share a name, and each of its
arrays has the capacity that the parameters give to its place.  No request can make a cache give
anything else (`proper_of_cachedLayout`), whatever types it is about.
-/

namespace DeviceBlob

/-- The error says why a type has no layout. -/
def Error.IsAboutLayout : Error → Prop
  | missingParameter _ _ => True
  | invalidParameter _ _ _ => True
  | unsupportedNesting _ _ => True
  | invalidSchema _ => True
  | _ => False

/-- An error about a parameter says why there is no layout. -/
theorem Error.IsAboutParameter.isAboutLayout : ∀ {e : Error}, e.IsAboutParameter → e.IsAboutLayout
  | .missingParameter _ _, _ | .invalidParameter _ _ _, _ => trivial

namespace Layout

mutual

/-- No two accessors on one level share a name, and each array has at least one slot and the capacity
that it finds among the parameters below its place. -/
def Proper (params : Params) : Layout → Prop
  | record _ fields =>
    ((placeAccessors "" 0 fields).map (·.name)).Nodup ∧ FieldsProper params fields
  | array _ capacity element =>
    (∃ value, params.get? DataType.capacityParameter = some value ∧ value.toInt = capacity) ∧
      1 ≤ capacity ∧ Proper (params.inside DataType.itemPrefix) element
  | _ => True

/-- The parts of a record are proper, each under the parameters below its name. -/
def FieldsProper (params : Params) : List (String × Layout) → Prop
  | [] => True
  | (name, layout) :: rest => Proper (params.inside name) layout ∧ FieldsProper params rest

end

variable {params required : Params} {layout : Layout}

/-- Each part of a proper record is proper. -/
theorem FieldsProper.of_mem {field : String × Layout} : ∀ {fields : List (String × Layout)},
    FieldsProper params fields → field ∈ fields → field.2.Proper (params.inside field.1)
  | [], _, mem => absurd mem List.not_mem_nil
  | (_, _) :: _, proper, mem => by
    rcases List.mem_cons.1 mem with rfl | mem
    · exact proper.1
    · exact proper.2.of_mem mem

/-- Padding is proper, so it does not matter between the parts of a record. -/
theorem fieldsProper_paddingBehind_append (runs : List VectorRun) (position : Nat)
    {fields : List (String × Layout)} (proper : FieldsProper params fields) :
    FieldsProper params (paddingBehind runs position ++ fields) := by
  unfold paddingBehind
  split
  · exact ⟨trivial, proper⟩
  · exact proper

mutual

/-- A layout stays proper under more parameters. -/
theorem Proper.mono : ∀ {layout : Layout} {required params : Params},
    required.Included params → layout.Proper required → layout.Proper params
  | scalar _, _, _, _, _ | enum _, _, _, _, _ | padding _, _, _, _, _ => trivial
  | record _ _, _, _, included, proper => ⟨proper.1, proper.2.mono included⟩
  | array _ _ _, _, _, included, proper => by
    obtain ⟨⟨value, found, same⟩, least, below⟩ := proper
    exact ⟨⟨value, included _ _ found, same⟩, least, below.mono (included.inside _)⟩

/-- So do the parts of a record. -/
theorem FieldsProper.mono : ∀ {fields : List (String × Layout)} {required params : Params},
    required.Included params → FieldsProper required fields → FieldsProper params fields
  | [], _, _, _, _ => trivial
  | (name, _) :: _, _, _, included, proper =>
    ⟨proper.1.mono (included.inside name), proper.2.mono included⟩

end

end Layout

namespace LayoutCache

variable {α β : Type} {P : LayoutCache → Prop} {kind : Error → Prop} {Q : α → Prop} {R : β → Prop}

/-- An attempt on a cache with a property keeps the property, what it gives has another one, and it
fails with errors of one kind only. -/
def Ensures (P : LayoutCache → Prop) (kind : Error → Prop) (Q : α → Prop) (attempt : Attempt α) :
    Prop :=
  ∀ cache, P cache → P (runOn attempt cache).2 ∧ FailsOnly kind (runOn attempt cache).1 ∧
    ∀ a, (runOn attempt cache).1 = .ok a → Q a

namespace Ensures

/-- What gives a value without the cache. -/
theorem pure {a : α} (holds : Q a) : Ensures P kind Q (pure a) := by
  intro cache kept
  refine ⟨kept, .ok a, fun other given => ?_⟩
  cases given
  exact holds

/-- What happens without the cache. -/
theorem liftExcept {outcome : Except Error α} (fails : FailsOnly kind outcome)
    (holds : ∀ a, outcome = .ok a → Q a) : Ensures P kind Q (liftExcept outcome) := by
  intro cache kept
  rw [runOn_liftExcept]
  exact ⟨kept, fails, holds⟩

/-- Two attempts one after the other. -/
theorem bind {attempt : Attempt α} {later : α → Attempt β} (here : Ensures P kind Q attempt)
    (there : ∀ a, Q a → Ensures P kind R (later a)) : Ensures P kind R (attempt >>= later) := by
  intro cache kept
  obtain ⟨after, fails, holds⟩ := here cache kept
  rcases run : runOn attempt cache with ⟨e | a, next⟩
  · rw [run] at after fails
    rw [runOn_bind_of_error run]
    exact ⟨after, .error (fails e rfl), fun _ given => nomatch given⟩
  · rw [run] at after holds
    rw [runOn_bind_of_ok run]
    exact there a (holds a rfl) next after

end Ensures

/-- All layouts in the cache are proper under the parameters in their keys. -/
def HoldsProper (cache : LayoutCache) : Prop :=
  ∀ key layout, cache.find? key = some layout → layout.Proper key.params

/-- The empty cache holds nothing else. -/
theorem holdsProper_empty : empty.HoldsProper := fun _ _ found => nomatch found

/-- One more proper layout does no harm. -/
theorem HoldsProper.keep {cache : LayoutCache} (holds : cache.HoldsProper) (key : LayoutKey)
    {layout : Layout} (proper : layout.Proper key.params) : (cache.keep key layout).HoldsProper := by
  intro other held found
  rw [find?_keep] at found
  split at found
  · next same =>
    cases found
    rw [same]
    exact proper
  · exact holds other held found

end LayoutCache

namespace Compiler

open LayoutCache

variable {compiler : Compiler} {type : DataType} {params : Params}

/-- What is taken from the cache is proper if what is made anew is. -/
theorem ensures_of_made (made : ∀ required,
    required.InRange compiler.maxParameter type.parameterNames →
      Ensures HoldsProper Error.IsAboutLayout (Layout.Proper required)
        (compiler.madeLayout required type)) :
    Ensures HoldsProper Error.IsAboutLayout (Layout.Proper params)
      (compiler.cachedLayout params type) := by
  intro cache holds
  cases checked : params.requiredBy type compiler.maxParameter with
  | error e =>
    have about := (params.failsOnly_requiredBy type compiler.maxParameter e checked).isAboutLayout
    rw [runOn_of_refused checked]
    exact ⟨holds, .error about, fun _ given => nomatch given⟩
  | ok required =>
    have included := Params.included_of_requiredBy checked
    cases found : cache.find? (compiler.key type required) with
    | some layout =>
      rw [runOn_of_hit checked found]
      refine ⟨holds, .ok layout, fun other given => ?_⟩
      cases given
      exact (holds _ _ found).mono included
    | none =>
      have range : required.InRange compiler.maxParameter type.parameterNames := by
        intro name mem
        obtain ⟨value, -, kept, range⟩ := Params.requiredBy_ok checked name mem
        exact ⟨value, kept, range⟩
      obtain ⟨after, fails, proper⟩ := made required range cache.countMiss holds
      rw [runOn_of_miss checked found]
      rcases run : runOn (compiler.madeLayout required type) cache.countMiss with ⟨e | layout, next⟩
      · rw [run] at after fails
        rw [runOn_bind_of_error run]
        exact ⟨after, .error (fails e rfl), fun _ given => nomatch given⟩
      · rw [run] at after proper
        rw [runOn_bind_of_ok run, runOn_bind_of_ok (runOn_modify _ _)]
        refine ⟨HoldsProper.keep after (compiler.key type required) (proper layout rfl), .ok layout,
          fun other given => ?_⟩
        cases given
        exact (proper layout rfl).mono included

mutual

/-- What is made anew is proper: a record is checked for names, an array for its capacity, and the
parts are proper already. -/
theorem ensures_madeLayout : ∀ {type : DataType} {required : Params},
    required.InRange compiler.maxParameter type.parameterNames →
      Ensures HoldsProper Error.IsAboutLayout (Layout.Proper required)
        (compiler.madeLayout required type)
  | .scalar _, _, _ | .enum _, _, _ => .pure trivial
  | .record name fields, required, _ => by
    refine (ensures_cachedFields 0).bind fun parts proper => .liftExcept ?_ fun layout made => ?_
    · intro e failed
      obtain ⟨field, rfl⟩ := Layout.ofFields_eq_error failed
      trivial
    · obtain ⟨rfl, nodup⟩ := Layout.ofFields_eq_ok_iff.1 made
      exact ⟨nodup, proper⟩
  | .array name element, required, range => by
    obtain ⟨value, held, least, -⟩ := range _ (DataType.capacity_mem_parameterNames name element)
    have room : Layout.capacityOf name required = .ok value.toInt.toNat :=
      Layout.capacityOf_eq_ok_iff.2 ⟨value, held, by omega, rfl⟩
    have below := @ensures_of_made compiler element (required.inside DataType.itemPrefix)
      fun _ => ensures_madeLayout
    have given : Ensures HoldsProper Error.IsAboutLayout (· = value.toInt.toNat)
        (liftExcept (Layout.capacityOf name required)) := by
      refine .liftExcept (room ▸ .ok _) fun capacity found => ?_
      exact Except.ok.inj (found.symm.trans room)
    refine given.bind fun capacity same => below.bind fun item proper => .pure ?_
    subst same
    exact ⟨⟨value, held, by omega⟩, by omega, proper⟩

/-- So are the parts of a record, one after the other. -/
theorem ensures_cachedFields {runs : List VectorRun} : ∀ {fields : List (String × DataType)}
    (position : Nat) {params : Params},
      Ensures HoldsProper Error.IsAboutLayout (Layout.FieldsProper params)
        (compiler.cachedFields params runs position fields)
  | [], _, _ => by
    rw [cachedFields]
    exact .pure trivial
  | (name, type) :: rest, position, params => by
    have behind := @ensures_cachedFields runs rest (position + 1) params
    have below := @ensures_of_made compiler type (params.inside name) fun _ => ensures_madeLayout
    have whole {layout : Layout} {others : List (String × Layout)}
        (proper : layout.Proper (params.inside name)) (rest : Layout.FieldsProper params others) :
        Layout.FieldsProper params
          ((name, layout) :: Layout.paddingBehind runs position ++ others) :=
      ⟨proper, Layout.fieldsProper_paddingBehind_append runs position rest⟩
    cases type with
    | scalar kind =>
      rw [cachedFields]
      exact behind.bind fun others proper => .pure (whole trivial proper)
    | enum type =>
      rw [cachedFields]
      exact behind.bind fun others proper => .pure (whole trivial proper)
    | record inner fields =>
      rw [cachedFields]
      · exact below.bind fun layout here => behind.bind fun others proper =>
          .pure (whole here proper)
      · exact fun _ same => nomatch same
      · exact fun _ same => nomatch same
    | array inner element =>
      rw [cachedFields]
      · exact below.bind fun layout here => behind.bind fun others proper =>
          .pure (whole here proper)
      · exact fun _ same => nomatch same
      · exact fun _ same => nomatch same

end

/-- **A cached layout is proper**, from a cache of proper layouts, and such a cache it leaves. -/
theorem ensures_cachedLayout : Ensures HoldsProper Error.IsAboutLayout (Layout.Proper params)
    (compiler.cachedLayout params type) :=
  ensures_of_made fun _ => ensures_madeLayout

end Compiler

namespace LayoutCache.Request

/-- One request, about any type, leaves proper layouts in the cache. -/
theorem holdsProper_serve {cache : LayoutCache} (holds : cache.HoldsProper) (request : Request) :
    (request.serve cache).2.HoldsProper := by
  cases request with
  | layout compiler type params => exact (Compiler.ensures_cachedLayout cache holds).1
  | plainLayout compiler type =>
    have plain : FailsOnly Error.IsAboutLayout (Compiler.checkPlain type) := by
      intro e failed
      unfold Compiler.checkPlain at failed
      split at failed
      · cases failed
      · cases failed
        trivial
    have ensured : Ensures HoldsProper Error.IsAboutLayout (Layout.Proper ∅)
        (compiler.cachedPlainLayout type) :=
      (Ensures.liftExcept plain fun _ _ => trivial).bind fun _ _ => Compiler.ensures_cachedLayout
    exact (ensured cache holds).1
  | clear => exact holdsProper_empty

/-- So do any requests. -/
theorem holdsProper_serveAll : ∀ (history : List Request) {cache : LayoutCache},
    cache.HoldsProper → (serveAll cache history).HoldsProper
  | [], _, holds => holds
  | request :: rest, _, holds => holdsProper_serveAll rest (holdsProper_serve holds request)

end LayoutCache.Request

open LayoutCache (Request runOn)

namespace Compiler

variable {compiler : Compiler} {type : DataType} {params : Params} {layout : Layout}
  {history : List Request}

/-- A cache gives proper layouts, whatever was asked of it before. -/
theorem proper_of_cachedLayout
    (compiled : (runOn (compiler.cachedLayout params type) (Request.serveAll .empty history)).1 =
      .ok layout) : layout.Proper params :=
  (ensures_cachedLayout _
    (Request.holdsProper_serveAll history LayoutCache.holdsProper_empty)).2.2 layout compiled

/-- And it refuses a type only for a reason that has to do with its layout. -/
theorem failsOnly_cachedLayout : FailsOnly Error.IsAboutLayout
    (runOn (compiler.cachedLayout params type) (Request.serveAll .empty history)).1 :=
  (ensures_cachedLayout _
    (Request.holdsProper_serveAll history LayoutCache.holdsProper_empty)).2.1

end Compiler

end DeviceBlob
