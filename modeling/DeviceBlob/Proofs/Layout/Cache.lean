import DeviceBlob.Layout.Cache
import DeviceBlob.Proofs.Layout.Fields
import DeviceBlob.Proofs.Layout.Parameters
import DeviceBlob.Proofs.Registry

/-!
# A cache changes no answer

A cached layout is found under the name and the fingerprint of its type, so a cache can only be
trusted among types that the two tell apart (`ToldApart`), as those of a document are.  A cache is
`Sound` for such types if each layout in it is the one that its key describes.  Attempts keep a
cache sound and give the layout that is compiled without one (`answers_of_sound`); the bound on
capacities may differ between them, since parameters are checked before the cache is asked and again
for each part.

So it makes no difference what was asked of a shared cache before (`serve_eq_direct`).  On caches
that were `UsedFor` known types alone, the cached compiler and the one without a cache agree
(`answers_cachedLayout`), and whatever is built from them agrees as well.
-/

namespace DeviceBlob

namespace LayoutCache

variable {α β : Type} {cache : LayoutCache}

/-! ### Attempts -/

/-- Looking at the cache leaves it as it is. -/
@[simp] theorem runOn_get (cache : LayoutCache) : runOn get cache = (.ok cache, cache) := rfl

/-- Changing the cache succeeds. -/
@[simp] theorem runOn_modify (change : LayoutCache → LayoutCache) (cache : LayoutCache) :
    runOn (modify change) cache = (.ok (), change cache) := rfl

/-- What happens without the cache leaves it as it is. -/
@[simp] theorem runOn_liftExcept (outcome : Except Error α) (cache : LayoutCache) :
    runOn (liftExcept outcome) cache = (outcome, cache) := by
  cases outcome <;> rfl

/-- The second of two attempts finds the cache that the first one leaves. -/
theorem runOn_bind_of_ok {attempt : Attempt α} {later : α → Attempt β} {a : α}
    {next : LayoutCache} (h : runOn attempt cache = (.ok a, next)) :
    runOn (attempt >>= later) cache = runOn (later a) next :=
  run_bind_of_ok h

/-- The second of two attempts is not made where the first one fails. -/
theorem runOn_bind_of_error {attempt : Attempt α} {later : α → Attempt β} {e : Error}
    {next : LayoutCache} (h : runOn attempt cache = (.error e, next)) :
    runOn (attempt >>= later) cache = (.error e, next) :=
  run_bind_of_error h

/-- On all caches with a property an attempt gives one and the same outcome, and it keeps the
property. -/
def Answers (P : LayoutCache → Prop) (attempt : Attempt α) (outcome : Except Error α) : Prop :=
  ∀ cache, P cache → (runOn attempt cache).1 = outcome ∧ P (runOn attempt cache).2

namespace Answers

variable {P : LayoutCache → Prop}

/-- A value is the outcome on all caches. -/
theorem pure (a : α) : Answers P (pure a) (.ok a) := fun _ holds => ⟨rfl, holds⟩

/-- So is what happens without a cache. -/
theorem liftExcept (outcome : Except Error α) : Answers P (liftExcept outcome) outcome := by
  intro cache holds
  rw [runOn_liftExcept]
  exact ⟨rfl, holds⟩

/-- Attempts one after the other give the outcomes one after the other. -/
theorem bind {attempt : Attempt α} {outcome : Except Error α} {later : α → Attempt β}
    {follow : α → Except Error β} (here : Answers P attempt outcome)
    (there : ∀ a, outcome = .ok a → Answers P (later a) (follow a)) :
    Answers P (attempt >>= later) (outcome >>= follow) := by
  intro cache holds
  obtain ⟨same, kept⟩ := here cache holds
  rcases run : runOn attempt cache with ⟨_ | a, next⟩
  · rw [run] at same kept
    rw [runOn_bind_of_error run, ← same]
    exact ⟨rfl, kept⟩
  · rw [run] at same kept
    rw [runOn_bind_of_ok run, ← same]
    exact there a same.symm next kept

end Answers

/-! ### Layouts in a cache -/

/-- Under other keys nothing is lost. -/
theorem lookup_filter_ne {key other : LayoutKey} (h : other ≠ key) :
    ∀ entries : List (LayoutKey × Layout),
      (entries.filter (·.1 ≠ key)).lookup other = entries.lookup other
  | [] => rfl
  | (first, layout) :: rest => by
    have behind := lookup_filter_ne h rest
    by_cases same : first = key
    · have skipped : (other == first) = false := by simpa [same] using h
      rw [List.lookup_cons, skipped, List.filter_cons_of_neg (by simp [same])]
      exact behind
    · rw [List.filter_cons_of_pos (by simp [same]), List.lookup_cons, List.lookup_cons, behind]

/-- A cache holds what was kept last under a key. -/
theorem find?_keep (cache : LayoutCache) (key other : LayoutKey) (layout : Layout) :
    (cache.keep key layout).find? other =
      if other = key then some layout else cache.find? other := by
  unfold find? keep
  by_cases same : other = key
  · simp [same]
  · have skipped : (other == key) = false := by simpa using same
    rw [List.lookup_cons, skipped, if_neg same]
    exact lookup_filter_ne same cache.entries

/-- Each layout in the cache is that of a known type with the name and the fingerprint in the key,
with the packing and the parameters in the key. -/
def Sound (known : DataType → Prop) (cache : LayoutCache) : Prop :=
  ∀ key layout, cache.find? key = some layout → ∃ type, known type ∧
    type.name = key.typeName ∧ type.fingerprint = key.fingerprint ∧
      Layout.place key.packing key.params type = .ok layout

/-- The empty cache is sound for any types. -/
theorem sound_empty (known : DataType → Prop) : empty.Sound known :=
  fun _ _ found => nomatch found

/-- Counting does not change what is in a cache. -/
theorem Sound.countHit {known : DataType → Prop} (sound : cache.Sound known) :
    cache.countHit.Sound known := sound

/-- Counting does not change what is in a cache. -/
theorem Sound.countMiss {known : DataType → Prop} (sound : cache.Sound known) :
    cache.countMiss.Sound known := sound

end LayoutCache

namespace Compiler

open LayoutCache

variable {compiler : Compiler} {known : DataType → Prop} {type : DataType}
  {params required : Params} {cache next : LayoutCache} {layout : Layout}

/-- A cache stays sound when the layout of a known type is put into it. -/
theorem keep_sound (sound : cache.Sound known) (asked : known type)
    (placed : Layout.place compiler.packing required type = .ok layout) :
    (cache.keep (compiler.key type required) layout).Sound known := by
  intro other held found
  rw [find?_keep] at found
  split at found
  · next same =>
    cases found
    rw [same]
    exact ⟨type, asked, rfl, rfl, placed⟩
  · exact sound other held found

/-! ### One look-up -/

/-- The layout of a type made anew, with parts that may be taken from the cache. -/
def madeLayout (compiler : Compiler) (required : Params) : DataType → Attempt Layout
  | .scalar kind => pure (.scalar kind)
  | .enum type => pure (.enum type)
  | .record name fields => do
    let parts ← compiler.cachedFields required (VectorRun.padded compiler.packing fields) 0 fields
    liftExcept (Layout.ofFields name parts)
  | .array name element => do
    let capacity ← liftExcept (Layout.capacityOf name required)
    let item ← compiler.cachedLayout (required.inside DataType.itemPrefix) element
    return .array name capacity item

/-- A layout is taken from the cache, or else it is made and kept. -/
theorem cachedLayout_eq (compiler : Compiler) (params : Params) (type : DataType) :
    compiler.cachedLayout params type = (do
      let required ← liftExcept (params.requiredBy type compiler.maxParameter)
      match (← get).find? (compiler.key type required) with
      | some layout =>
        modify LayoutCache.countHit
        return layout
      | none =>
        modify LayoutCache.countMiss
        let layout ← compiler.madeLayout required type
        modify (·.keep (compiler.key type required) layout)
        return layout) := by
  rw [cachedLayout]
  refine bind_congr fun required => bind_congr fun held => ?_
  cases held.find? (compiler.key type required) with
  | some layout => rfl
  | none =>
    refine bind_congr fun _ => ?_
    cases type with
    | scalar kind => rfl
    | enum type => rfl
    | record name fields => simp only [madeLayout, bind_assoc]
    | array name element => simp only [madeLayout, bind_assoc, pure_bind]

/-- Where a parameter is refused the cache is not asked. -/
theorem runOn_of_refused {e : Error}
    (refused : params.requiredBy type compiler.maxParameter = .error e) :
    runOn (compiler.cachedLayout params type) cache = (.error e, cache) := by
  rw [cachedLayout_eq, refused]
  rfl

/-- A layout that is found is taken as it is. -/
theorem runOn_of_hit (checked : params.requiredBy type compiler.maxParameter = .ok required)
    (found : cache.find? (compiler.key type required) = some layout) :
    runOn (compiler.cachedLayout params type) cache = (.ok layout, cache.countHit) := by
  rw [cachedLayout_eq, checked, runOn_bind_of_ok (runOn_liftExcept _ _),
    runOn_bind_of_ok (runOn_get _), found]
  rfl

/-- A layout that is not found is made anew and kept. -/
theorem runOn_of_miss (checked : params.requiredBy type compiler.maxParameter = .ok required)
    (missing : cache.find? (compiler.key type required) = none) :
    runOn (compiler.cachedLayout params type) cache = runOn (do
      let layout ← compiler.madeLayout required type
      modify (·.keep (compiler.key type required) layout)
      return layout) cache.countMiss := by
  rw [cachedLayout_eq, checked, runOn_bind_of_ok (runOn_liftExcept _ _),
    runOn_bind_of_ok (runOn_get _), missing, runOn_bind_of_ok (runOn_modify _ _)]

/-- A layout that was given is in the cache. -/
theorem find?_of_runOn
    (given : runOn (compiler.cachedLayout params type) cache = (.ok layout, next)) :
    ∃ required, params.requiredBy type compiler.maxParameter = .ok required ∧
      next.find? (compiler.key type required) = some layout := by
  cases checked : params.requiredBy type compiler.maxParameter with
  | error e =>
    rw [runOn_of_refused checked] at given
    cases given
  | ok required =>
    refine ⟨required, rfl, ?_⟩
    cases found : cache.find? (compiler.key type required) with
    | some held =>
      rw [runOn_of_hit checked found] at given
      cases given
      exact found
    | none =>
      rw [runOn_of_miss checked found] at given
      rcases made : runOn (compiler.madeLayout required type) cache.countMiss with ⟨_ | held, after⟩
      · rw [runOn_bind_of_error made] at given
        cases given
      · rw [runOn_bind_of_ok made, runOn_bind_of_ok (runOn_modify _ _)] at given
        cases given
        rw [find?_keep, if_pos rfl]

/-- A layout that was given is given again, as one more hit. -/
theorem runOn_again (given : runOn (compiler.cachedLayout params type) cache = (.ok layout, next)) :
    runOn (compiler.cachedLayout params type) next = (.ok layout, next.countHit) := by
  obtain ⟨required, checked, found⟩ := find?_of_runOn given
  exact runOn_of_hit checked found

/-! ### Layouts with and without a cache -/

/-- If what is made anew is right, so is what is taken from a sound cache or else made anew. -/
theorem answers_of_made (told : ToldApart known) (asked : known type)
    (made : ∀ required, required.InRange compiler.maxParameter type.parameterNames →
      Answers (Sound known) (compiler.madeLayout required type)
        (Layout.place compiler.packing required type)) :
    Answers (Sound known) (compiler.cachedLayout params type) (compiler.layout type params) := by
  intro cache sound
  rw [Compiler.layout]
  cases checked : params.requiredBy type compiler.maxParameter with
  | error e =>
    rw [runOn_of_refused checked]
    exact ⟨rfl, sound⟩
  | ok required =>
    rw [ok_bind]
    cases found : cache.find? (compiler.key type required) with
    | some layout =>
      obtain ⟨kept, among, named, marked, placed⟩ := sound _ _ found
      -- What was kept belongs to the name and the fingerprint in the key, and one type has both.
      obtain rfl := told.unique kept type among asked named marked
      rw [runOn_of_hit checked found]
      exact ⟨placed.symm, sound.countHit⟩
    | none =>
      -- The bound is no part of the key; the parameters were checked against it before the look-up.
      have range : required.InRange compiler.maxParameter type.parameterNames := by
        intro name mem
        obtain ⟨value, -, kept, range⟩ := Params.requiredBy_ok checked name mem
        exact ⟨value, kept, range⟩
      obtain ⟨same, kept⟩ := made required range _ sound.countMiss
      rw [runOn_of_miss checked found]
      rcases run : runOn (compiler.madeLayout required type) cache.countMiss with ⟨_ | layout, next⟩
      · rw [run] at same kept
        rw [runOn_bind_of_error run]
        exact ⟨same, kept⟩
      · rw [run] at same kept
        rw [runOn_bind_of_ok run, runOn_bind_of_ok (runOn_modify _ _)]
        exact ⟨same, keep_sound kept asked same.symm⟩

/-- For a part the parameters are in range, as those of the whole are. -/
theorem answers_part (told : ToldApart known) (asked : known type)
    (range : params.InRange compiler.maxParameter type.parameterNames)
    (made : ∀ required, required.InRange compiler.maxParameter type.parameterNames →
      Answers (Sound known) (compiler.madeLayout required type)
        (Layout.place compiler.packing required type)) :
    Answers (Sound known) (compiler.cachedLayout params type)
      (Layout.place compiler.packing params type) := by
  rw [← layout_eq_place (told.buildable type asked) range]
  exact answers_of_made told asked made

mutual

/-- What is made anew is right: the parts come from a sound cache, and they are known. -/
theorem answers_madeLayout (told : ToldApart known) : ∀ {type : DataType} {required : Params},
    known type → required.InRange compiler.maxParameter type.parameterNames →
      Answers (Sound known) (compiler.madeLayout required type)
        (Layout.place compiler.packing required type)
  | .scalar kind, _, _, _ => .pure (Layout.scalar kind)
  | .enum type, _, _, _ => .pure (Layout.enum type)
  | .record name fields, required, asked, range => by
    have parts := told.parts _ asked
    have below := answers_cachedFields told (VectorRun.padded compiler.packing fields) 0
      (told.buildable _ asked).named (fun field mem => parts _ (List.mem_map_of_mem mem)) range
    exact below.bind fun placed _ => .liftExcept _
  | .array name element, required, asked, range => by
    have buildable := told.buildable _ asked
    have part := told.parts _ asked element List.mem_cons_self
    rw [DataType.parameterNames_array buildable.element] at range
    have inside : (required.inside DataType.itemPrefix).InRange compiler.maxParameter
        element.parameterNames :=
      Params.InRange.inside (by decide) fun name mem => range name (List.mem_cons_of_mem _ mem)
    have below := answers_part told part inside fun _ => answers_madeLayout told part
    exact (Answers.liftExcept _).bind fun capacity _ => below.bind fun item _ => .pure _

/-- So are the layouts of consecutive fields. -/
theorem answers_cachedFields (told : ToldApart known) (runs : List VectorRun) :
    ∀ {fields : List (String × DataType)} (position : Nat) {params : Params},
      (∀ field ∈ fields, field.1 ≠ "") → (∀ field ∈ fields, known field.2) →
      params.InRange compiler.maxParameter (DataType.fieldParameters "" fields) →
        Answers (Sound known) (compiler.cachedFields params runs position fields)
          (Layout.placeAll compiler.packing params runs position fields)
  | [], _, _, _, _, _ => by
    rw [cachedFields]
    exact .pure _
  | (name, type) :: rest, position, params, named, asked, range => by
    have part := asked _ List.mem_cons_self
    rw [DataType.fieldParameters_cons (told.buildable _ part)] at range
    have behind := answers_cachedFields told runs (position + 1)
      (fun field mem => named field (List.mem_cons_of_mem _ mem))
      (fun field mem => asked field (List.mem_cons_of_mem _ mem))
      fun name mem => range name (List.mem_append_right _ mem)
    have inside : (params.inside name).InRange compiler.maxParameter type.parameterNames :=
      Params.InRange.inside (named _ List.mem_cons_self)
        fun name mem => range name (List.mem_append_left _ mem)
    have below := answers_part told part inside fun _ => answers_madeLayout told part
    cases type with
    | scalar kind =>
      rw [cachedFields, Layout.placeAll]
      exact behind.bind fun others _ => .pure _
    | enum type =>
      rw [cachedFields, Layout.placeAll]
      exact behind.bind fun others _ => .pure _
    | record inner fields =>
      rw [cachedFields, Layout.placeAll]
      · exact below.bind fun layout _ => behind.bind fun others _ => .pure _
      · exact fun _ same => nomatch same
      · exact fun _ same => nomatch same
    | array inner element =>
      rw [cachedFields, Layout.placeAll]
      · exact below.bind fun layout _ => behind.bind fun others _ => .pure _
      · exact fun _ same => nomatch same
      · exact fun _ same => nomatch same

end

/-- An attempt on a sound cache gives the layout that is compiled without a cache. -/
theorem answers_of_sound (told : ToldApart known) (asked : known type) :
    Answers (Sound known) (compiler.cachedLayout params type) (compiler.layout type params) :=
  answers_of_made told asked fun _ => answers_madeLayout told asked

/-- So is the layout of a type without parameters. -/
theorem plain_answers_of_sound (told : ToldApart known) (asked : known type) :
    Answers (Sound known) (compiler.cachedPlainLayout type) (compiler.plainLayout type) :=
  (Answers.liftExcept _).bind fun _ _ => answers_of_sound told asked

/-- A plain layout that was given is given again, as one more hit. -/
theorem runOn_plain_again
    (given : runOn (compiler.cachedPlainLayout type) cache = (.ok layout, next)) :
    runOn (compiler.cachedPlainLayout type) next = (.ok layout, next.countHit) := by
  unfold cachedPlainLayout at given ⊢
  cases checked : checkPlain type with
  | error e =>
    rw [checked, runOn_bind_of_error (runOn_liftExcept _ _)] at given
    cases given
  | ok _ =>
    rw [checked, runOn_bind_of_ok (runOn_liftExcept _ _)] at given
    rw [runOn_bind_of_ok (runOn_liftExcept _ _)]
    exact runOn_again given

end Compiler

/-! ### Requests to a shared cache -/

namespace LayoutCache

/-- What is asked of a cache that compilers share. -/
inductive Request where
  /-- The layout of a type under parameters. -/
  | layout (compiler : Compiler) (type : DataType) (params : Params)
  /-- The layout of a type without parameters. -/
  | plainLayout (compiler : Compiler) (type : DataType)
  /-- To forget all layouts. -/
  | clear

namespace Request

variable {known : DataType → Prop} {registry : Registry} {cache next : LayoutCache}
  {layout : Layout}

/-- The type that is asked for is a known one. -/
def IsAbout (known : DataType → Prop) : Request → Prop
  | .layout _ type _ => known type
  | .plainLayout _ type => known type
  | clear => True

/-- The type that is asked for is one of the registry. -/
def IsFrom (registry : Registry) : Request → Prop := IsAbout registry.Knows

/-- The answer to a request, if it has one, and the cache behind it. -/
def serve (cache : LayoutCache) : Request → Option (Except Error Layout) × LayoutCache
  | .layout compiler type params =>
    Prod.map some id (runOn (compiler.cachedLayout params type) cache)
  | .plainLayout compiler type => Prod.map some id (runOn (compiler.cachedPlainLayout type) cache)
  | clear => (none, cache.clear)

/-- The cache after requests one after the other. -/
def serveAll (cache : LayoutCache) (history : List Request) : LayoutCache :=
  history.foldl (fun cache request => (request.serve cache).2) cache

/-- The answer that needs no cache. -/
def direct : Request → Option (Except Error Layout)
  | .layout compiler type params => some (compiler.layout type params)
  | .plainLayout compiler type => some (compiler.plainLayout type)
  | clear => none

/-- One request: a sound cache gives the answer that needs no cache, and it stays sound. -/
theorem serve_eq_direct (told : ToldApart known) (sound : cache.Sound known)
    {request : Request} (asked : request.IsAbout known) :
    (request.serve cache).1 = request.direct ∧ (request.serve cache).2.Sound known := by
  cases request with
  | layout compiler type params =>
    have shared : Answers (Sound known) (compiler.cachedLayout params type)
        (compiler.layout type params) := Compiler.answers_of_sound told asked
    obtain ⟨same, kept⟩ := shared cache sound
    exact ⟨congrArg some same, kept⟩
  | plainLayout compiler type =>
    have shared : Answers (Sound known) (compiler.cachedPlainLayout type)
        (compiler.plainLayout type) := Compiler.plain_answers_of_sound told asked
    obtain ⟨same, kept⟩ := shared cache sound
    exact ⟨congrArg some same, kept⟩
  | clear => exact ⟨rfl, sound_empty known⟩

/-- Any number of requests keep a cache sound. -/
theorem sound_serveAll (told : ToldApart known) :
    ∀ {history : List Request} {cache : LayoutCache}, cache.Sound known →
      (∀ request ∈ history, request.IsAbout known) → (serveAll cache history).Sound known
  | [], _, sound, _ => sound
  | request :: rest, cache, sound, asked => by
    obtain ⟨-, kept⟩ := serve_eq_direct told sound (asked request List.mem_cons_self)
    show (serveAll (request.serve cache).2 rest).Sound known
    exact sound_serveAll told kept fun other mem => asked other (List.mem_cons_of_mem _ mem)

/-- A layout that was given is given again, as one more hit. -/
theorem serve_again {request : Request} (given : request.serve cache = (some (.ok layout), next)) :
    request.serve next = (some (.ok layout), next.countHit) := by
  cases request with
  | layout compiler type params =>
    obtain ⟨outcome, after⟩ := Prod.mk.inj given
    exact congrArg (Prod.map some id)
      (Compiler.runOn_again (Prod.ext (Option.some.inj outcome) after))
  | plainLayout compiler type =>
    obtain ⟨outcome, after⟩ := Prod.mk.inj given
    exact congrArg (Prod.map some id)
      (Compiler.runOn_plain_again (Prod.ext (Option.some.inj outcome) after))
  | clear => cases given

/-- **A shared cache changes no answer**, whatever compilers with different packings and bounds
asked of it before: each request about types of one document is answered as it is on an empty cache,
which is the answer without any cache.  A layout that was just given is given again with one hit
more, with as many misses and the same layouts in the cache. -/
theorem serve_serveAll_eq_direct {schema : Schema} (resolved : schema.toRegistry = .ok registry)
    {history : List Request} (before : ∀ request ∈ history, request.IsFrom registry)
    {request : Request} (asked : request.IsFrom registry)
    (reached : cache = serveAll empty history) :
    (request.serve cache).1 = (request.serve empty).1 ∧
      (request.serve cache).1 = request.direct ∧
      ∀ layout next, request.serve cache = (some (.ok layout), next) →
        request.serve next = (some (.ok layout), ⟨next.entries, next.hits + 1, next.misses⟩) := by
  have told := (Schema.closed_of_toRegistry resolved).toldApart
  have sound : cache.Sound registry.Knows :=
    reached ▸ sound_serveAll told (sound_empty registry.Knows) before
  obtain ⟨here, -⟩ := serve_eq_direct told sound asked
  obtain ⟨fresh, -⟩ := serve_eq_direct told (sound_empty registry.Knows) asked
  exact ⟨here.trans fresh.symm, here, fun _ _ => serve_again⟩

/-- The document that declares scenes. -/
def sceneSchema : Schema where
  types := [
    .enum "State" ⟨[("1", "idle"), ("2", "moving")], by decide⟩,
    .record "Particle" [⟨"index", "int32", none⟩, ⟨"x", "float32", none⟩, ⟨"y", "float32", none⟩,
      ⟨"z", "float32", none⟩, ⟨"state", "State", none⟩],
    .array "Particles" "Particle",
    .record "Scene" [⟨"frame", "uint32", none⟩, ⟨"particles", "Particles", none⟩]]

/-- The types of that document. -/
def sceneRegistry : Registry where
  types := [.enum Scene.stateType, Scene.particleType, .array "Particles" Scene.particleType,
    Scene.sceneType]

/-- A scene of two particles was asked for, and a particle without padding. -/
def sceneHistory : List Request :=
  [.layout (.mk .aligned 5000) Scene.sceneType Scene.params,
    .plainLayout (.mk .unaligned 5000) Scene.particleType]

/-- A compiler that allows one particle gives no scene of two, although the cache holds one that
another compiler was asked for. -/
theorem serve_serveAll_eq_direct_scene :
    sceneSchema.toRegistry = .ok sceneRegistry ∧
      (∀ request ∈ sceneHistory, request.IsFrom sceneRegistry) ∧
      IsFrom sceneRegistry (.layout (.mk .aligned 1) Scene.sceneType Scene.params) ∧
      (serve (serveAll empty sceneHistory)
        (.layout (.mk .aligned 1) Scene.sceneType Scene.params)).1 =
          some (.error (Scene.params.refusal "Scene" 1 "particles_capacity")) := by
  have resolved : sceneSchema.toRegistry = .ok sceneRegistry := rfl
  have before : ∀ request ∈ sceneHistory, request.IsFrom sceneRegistry := by
    simp only [sceneHistory, List.forall_mem_cons, List.not_mem_nil, false_imp_iff, implies_true,
      and_true]
    exact ⟨rfl, rfl⟩
  have asked : IsFrom sceneRegistry (.layout (.mk .aligned 1) Scene.sceneType Scene.params) := rfl
  obtain ⟨-, same, -⟩ := serve_serveAll_eq_direct resolved before asked rfl
  exact ⟨resolved, before, asked, same.trans rfl⟩

end Request

/-! ### Caches that were used for known types -/

/-- The cache was asked for known types only: requests about them made it out of an empty one. -/
def UsedFor (known : DataType → Prop) (cache : LayoutCache) : Prop :=
  ∃ history : List Request, (∀ request ∈ history, request.IsAbout known) ∧
    cache = Request.serveAll empty history

/-- The cache is safe to ask for the type: all that was asked of it, along with the type, is told
apart by names and fingerprints. -/
def SafeFor (type : DataType) (cache : LayoutCache) : Prop :=
  ∃ known : DataType → Prop, ToldApart known ∧ known type ∧ cache.UsedFor known

variable {known : DataType → Prop} {cache : LayoutCache} {type : DataType}

/-- The empty cache was used for nothing. -/
theorem usedFor_empty (known : DataType → Prop) : empty.UsedFor known :=
  ⟨[], fun _ mem => absurd mem List.not_mem_nil, rfl⟩

/-- A cache that was used for known types alone is sound for them. -/
theorem UsedFor.sound (told : ToldApart known) (used : cache.UsedFor known) :
    cache.Sound known := by
  obtain ⟨history, about, rfl⟩ := used
  exact Request.sound_serveAll told (sound_empty known) about

/-- One more request about a known type. -/
theorem UsedFor.serve (used : cache.UsedFor known) {request : Request}
    (asked : request.IsAbout known) : (request.serve cache).2.UsedFor known := by
  obtain ⟨history, about, rfl⟩ := used
  refine ⟨history ++ [request], ?_, ?_⟩
  · intro other mem
    rcases List.mem_append.1 mem with mem | mem
    · exact about other mem
    · rwa [List.mem_singleton.1 mem]
  · rw [Request.serveAll, Request.serveAll, List.foldl_append]
    rfl

/-- The empty cache is safe for a type that has no two different parts of one name and one
fingerprint. -/
theorem safeFor_empty (buildable : type.Buildable)
    (unique : ∀ part other, type.Within part → type.Within other → part.name = other.name →
      part.fingerprint = other.fingerprint → part = other) : empty.SafeFor type :=
  ⟨type.Within, .within buildable unique, .whole, usedFor_empty _⟩

/-- A cache that is used for the types of one document is safe for each of them. -/
theorem UsedFor.safeFor {schema : Schema} {registry : Registry}
    (resolved : schema.toRegistry = .ok registry) (used : cache.UsedFor registry.Knows)
    (asked : registry.Knows type) : cache.SafeFor type :=
  ⟨registry.Knows, (Schema.closed_of_toRegistry resolved).toldApart, asked, used⟩

/-- A type that a cache is safe for can be built. -/
theorem SafeFor.buildable (safe : cache.SafeFor type) : type.Buildable := by
  obtain ⟨known, told, asked, -⟩ := safe
  exact told.buildable type asked

/-- What holds on caches used for known types holds on those that are safe for a type. -/
theorem SafeFor.outcome {α : Type} {attempt : Attempt α} {outcome : Except Error α}
    (safe : cache.SafeFor type)
    (answers : ∀ known, ToldApart known → known type → Answers (UsedFor known) attempt outcome) :
    (runOn attempt cache).1 = outcome := by
  obtain ⟨known, told, asked, used⟩ := safe
  exact (answers known told asked cache used).1

end LayoutCache

namespace Compiler

open LayoutCache

variable {compiler : Compiler} {known : DataType → Prop} {type : DataType} {params : Params}
  {cache : LayoutCache}

/-- **The cached compiler is the compiler without a cache**, on each cache that was used for types
which are told apart. -/
theorem answers_cachedLayout (told : ToldApart known) (asked : known type) :
    Answers (UsedFor known) (compiler.cachedLayout params type) (compiler.layout type params) := by
  intro cache used
  obtain ⟨same, -⟩ := answers_of_sound told asked cache (used.sound told)
  have about : Request.IsAbout known (.layout compiler type params) := asked
  exact ⟨same, used.serve about⟩

/-- So it is for types without parameters. -/
theorem answers_cachedPlainLayout (told : ToldApart known) (asked : known type) :
    Answers (UsedFor known) (compiler.cachedPlainLayout type) (compiler.plainLayout type) :=
  (Answers.liftExcept _).bind fun _ _ => answers_cachedLayout told asked

/-- On a cache that is safe for a type its layout is the one that is compiled without a cache. -/
theorem runOn_cachedLayout (safe : cache.SafeFor type) :
    (runOn (compiler.cachedLayout params type) cache).1 = compiler.layout type params :=
  safe.outcome fun _ told asked => answers_cachedLayout told asked

end Compiler

/-! ### Two parts of one name and one fingerprint -/

namespace Gantry

/-- The fingers of an arm. -/
def gripsType : DataType := .array "Grips" (.record "Grip" [("index", .scalar .int32)])

/-- The left arm. -/
def leftArm : DataType :=
  .record "Arm" [("torque", .scalar .int32), ("pad", .scalar .int32), ("grips", gripsType)]

/-- The right arm, which has other fields than the left one. -/
def rightArm : DataType :=
  .record "Arm" [("key_roll_pass", .scalar .int32), ("grips", gripsType)]

/-- Both arms. -/
def gantryType : DataType := .record "Gantry" [("left", leftArm), ("right", rightArm)]

/-- One finger for each arm. -/
def params : Params := .ofList [("left_grips_capacity", 1), ("right_grips_capacity", 1)]

/-- A gantry can be built. -/
theorem buildable_gantryType : gantryType.Buildable := by
  have grip : DataType.ofFields "Grip" [("index", .scalar .int32)] =
      .ok (.record "Grip" [("index", .scalar .int32)]) := rfl
  have grips : gripsType.Buildable := by
    have built : DataType.ofElement "Grips" (.record "Grip" [("index", .scalar .int32)]) =
        .ok gripsType := rfl
    exact .array (.record (by simp [DataType.Buildable.scalar]) grip) built
  have left : DataType.ofFields "Arm" [("torque", .scalar .int32), ("pad", .scalar .int32),
      ("grips", gripsType)] = .ok leftArm := rfl
  have right : DataType.ofFields "Arm" [("key_roll_pass", .scalar .int32), ("grips", gripsType)] =
      .ok rightArm := rfl
  have whole : DataType.ofFields "Gantry" [("left", leftArm), ("right", rightArm)] =
      .ok gantryType := rfl
  refine .record ?_ whole
  simp only [List.forall_mem_cons, List.not_mem_nil, false_imp_iff, implies_true, and_true]
  refine ⟨.record ?_ left, .record ?_ right⟩
  · simp [DataType.Buildable.scalar, grips]
  · simp [DataType.Buildable.scalar, grips]

/-- The arms share a name and a fingerprint although they differ, so no cache is safe for a
gantry. -/
theorem not_safeFor_gantryType (cache : LayoutCache) : ¬cache.SafeFor gantryType := by
  rintro ⟨known, told, asked, -⟩
  have left : known leftArm := told.parts _ asked _ List.mem_cons_self
  have right : known rightArm := told.parts _ asked _ (List.mem_cons_of_mem _ List.mem_cons_self)
  have same : leftArm.fingerprint = rightArm.fingerprint := by decide +kernel
  have equal := told.unique _ _ left right rfl same
  simp [leftArm, rightArm] at equal

end Gantry

namespace LayoutCache

/-- The types of that document are safe on a cache that was asked for a scene. -/
theorem safeFor_sceneType :
    (Request.serveAll empty Request.sceneHistory).SafeFor Scene.sceneType := by
  have resolved : Request.sceneSchema.toRegistry = .ok Request.sceneRegistry := rfl
  refine UsedFor.safeFor resolved ⟨Request.sceneHistory, ?_, rfl⟩ rfl
  simp only [Request.sceneHistory, List.forall_mem_cons, List.not_mem_nil, false_imp_iff,
    implies_true, and_true]
  exact ⟨rfl, rfl⟩

/-- A scene is safe on the empty cache. -/
theorem safeFor_sceneType_empty : empty.SafeFor Scene.sceneType := by
  have resolved : Request.sceneSchema.toRegistry = .ok Request.sceneRegistry := rfl
  exact (usedFor_empty _).safeFor resolved rfl

end LayoutCache

end DeviceBlob
