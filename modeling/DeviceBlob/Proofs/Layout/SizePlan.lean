import DeviceBlob.Layout.Plan
import DeviceBlob.Proofs.Layout.Cache

/-!
# Size plans compute the sizes of layouts

A size plan is made without parameters and walks the fields of a type by itself, and so does the
layout compiler.  Both agree: `evaluate_ofType` says that the plan of a type computes the size of
its layout, and `fieldTerms_fit` that the terms of a record stand for its parts one by one, padding
included.

The compiler keeps only the parameters that it has checked while a plan sees all of them, so the
statements are about two sets of parameters that agree where the type looks (`AgreeOn`).

A plan is made of the type alone, but a layout may come from a cache.  So the main result is about
caches that are safe for the type (`plan_agrees_with_layout`); where two parts share a name and a
fingerprint, the layout may be that of another type, and its size another one
(`plan_disagrees_with_layout_gantry`).
-/

namespace DeviceBlob

/-- Both sets of parameters give each array of the type one and the same positive capacity. -/
def Params.AgreeOn (type : DataType) (params other : Params) : Prop :=
  ∀ name ∈ type.parameterNames, ∃ value, params.get? name = some value ∧
    other.get? name = some value ∧ 1 ≤ value.toInt

namespace Params.AgreeOn

variable {params other : Params}

/-- What agrees on a record agrees on each field, below its name. -/
theorem field {name : String} {fields : List (String × DataType)} {field : String × DataType}
    (h : AgreeOn (.record name fields) params other)
    (buildable : (DataType.record name fields).Buildable) (mem : field ∈ fields) :
    AgreeOn field.2 (params.inside field.1) (other.inside field.1) := by
  intro parameter here
  have named := buildable.named field mem
  rw [get?_inside named, get?_inside named]
  exact h _ (DataType.join_mem_parameterNames buildable mem here)

/-- What agrees on an array agrees on its element, below the prefix of items. -/
theorem element {name : String} {element : DataType}
    (h : AgreeOn (.array name element) params other)
    (buildable : (DataType.array name element).Buildable) :
    AgreeOn element (params.inside DataType.itemPrefix) (other.inside DataType.itemPrefix) := by
  intro parameter here
  have named : DataType.itemPrefix ≠ "" := by decide
  rw [get?_inside named, get?_inside named]
  exact h _ (DataType.join_item_mem_parameterNames buildable here)

/-- Parameters that were checked for a type agree on it with those that they were taken from. -/
theorem of_requiredBy {type : DataType} {max : Nat}
    (h : other.requiredBy type max = .ok params) : AgreeOn type params other := by
  intro name mem
  obtain ⟨value, found, kept, positive, -⟩ := requiredBy_ok h name mem
  exact ⟨value, kept, found, positive⟩

end Params.AgreeOn

namespace SizePlan

/-- A term of a plan stands for a part of a layout: it has the name of the part and computes its
size. -/
def Fits (params : Params) (term : String × SizePlan) (part : String × Layout) : Prop :=
  term.1 = part.1 ∧ term.2.evaluate (params.inside term.1) = .ok part.2.size

/-! ### Sums of terms -/

/-- Terms that stand for parts add up to the size of the parts. -/
theorem evaluateTerms_of_fits {params : Params} {terms : List (String × SizePlan)}
    {parts : List (String × Layout)} (fit : List.Forall₂ (Fits params) terms parts) :
    evaluateTerms params terms = .ok (Layout.fieldsSize parts) := by
  induction fit with
  | nil => simp [evaluateTerms]
  | cons here _ ih =>
    simp only [evaluateTerms, here.2, ih, ok_bind, Layout.fieldsSize_cons]
    rfl

/-- The same sum where no term needs parameters. -/
theorem sum_fixed_of_fits {params : Params} {terms : List (String × SizePlan)}
    {parts : List (String × Layout)} (fit : List.Forall₂ (Fits params) terms parts)
    (fixed : ∀ term ∈ terms, ∃ bytes, term.2 = .fixed bytes) :
    terms.foldr (fun (_, plan) rest => plan.fixed?.getD 0 + rest) 0 =
      Layout.fieldsSize parts := by
  induction fit with
  | nil => rfl
  | @cons term part terms parts here _ ih =>
    obtain ⟨name, plan⟩ := term
    obtain ⟨bytes, rfl⟩ : ∃ bytes, plan = .fixed bytes := fixed (name, plan) List.mem_cons_self
    have size := here.2
    simp only [evaluate, Except.ok.injEq] at size
    rw [List.foldr_cons, ih fun term mem => fixed term (List.mem_cons_of_mem _ mem),
      Layout.fieldsSize_cons, ← size]
    rfl

/-! ### Plans of plain types -/

/-- The plan of a record is made of the terms of its fields. -/
theorem ofType_record (packing : Packing) (name : String) (fields : List (String × DataType)) :
    ofType packing (.record name fields) =
      ofTerms (DataType.fieldsPlain fields) name
        (fieldTerms packing (VectorRun.padded packing fields) 0 fields) := by
  simp only [ofType]

/-- The plan of a record with parameters is the sum of its terms. -/
theorem ofType_of_parametric {packing : Packing} {name : String}
    {fields : List (String × DataType)}
    (parametric : (DataType.record name fields).isPlain = false) :
    ofType packing (.record name fields) =
      record name (fieldTerms packing (VectorRun.padded packing fields) 0 fields) := by
  rw [ofType_record, ofTerms, if_neg]
  simpa only [DataType.isPlain, Bool.not_eq_true] using parametric

/-- The plan of a plain type needs no parameters. -/
theorem ofType_fixed_of_isPlain (packing : Packing) {type : DataType} (plain : type.isPlain = true) :
    ∃ bytes, ofType packing type = .fixed bytes := by
  cases type with
  | scalar kind => exact ⟨kind.width, by simp only [ofType]⟩
  | enum type => exact ⟨Scalar.int32.width, by simp only [ofType]⟩
  | record name fields =>
    have : DataType.fieldsPlain fields = true := by simpa only [DataType.isPlain] using plain
    rw [ofType_record, this, ofTerms, if_pos rfl]
    exact ⟨_, rfl⟩
  | array name element => simp [DataType.isPlain] at plain

/-- The terms of plain fields are fixed sizes. -/
theorem fieldTerms_fixed_of_plain (packing : Packing) (runs : List VectorRun) :
    ∀ (position : Nat) {fields : List (String × DataType)}, DataType.fieldsPlain fields = true →
      ∀ term ∈ fieldTerms packing runs position fields, ∃ bytes, term.2 = .fixed bytes
  | _, [], _, term, mem => by simp [fieldTerms] at mem
  | position, (name, type) :: rest, plain, term, mem => by
    simp only [DataType.fieldsPlain, Bool.and_eq_true] at plain
    simp only [fieldTerms, List.cons_append, List.mem_cons, List.mem_append] at mem
    rcases mem with rfl | padding | there
    · exact ofType_fixed_of_isPlain packing plain.1
    · simp only [paddingTerm, Option.mem_toList, Option.map_eq_some_iff] at padding
      obtain ⟨run, -, rfl⟩ := padding
      exact ⟨_, rfl⟩
    · exact fieldTerms_fixed_of_plain packing runs (position + 1) plain.2 term there

/-! ### Plan and layout -/

/-- The padding behind a field has its term. -/
theorem paddingTerm_fit (params : Params) (runs : List VectorRun) (position : Nat) :
    List.Forall₂ (Fits params) (paddingTerm runs position) (Layout.paddingBehind runs position) := by
  unfold paddingTerm Layout.paddingBehind
  cases runs.find? (·.last = position) with
  | none => exact .nil
  | some run => exact .cons ⟨rfl, by simp only [evaluate, Layout.size_padding]⟩ .nil

/-- A positive capacity that is given is the capacity. -/
theorem capacityOf_eq_ok {name : String} {params : Params} {value : Int64}
    (found : params.get? DataType.capacityParameter = some value) (positive : 1 ≤ value.toInt) :
    capacityOf name params = .ok value.toInt.toNat := by
  have below := value.toInt_lt
  unfold capacityOf
  rw [found]
  refine Params.capacity_eq_ok_iff.2 ⟨positive, ?_, rfl⟩
  unfold greatestCapacity
  omega

mutual

/-- The plan of a type computes the size of its layout. -/
theorem evaluate_ofType {packing : Packing} : ∀ {type : DataType} {params other : Params}
    {layout : Layout}, type.Buildable → Params.AgreeOn type params other →
      Layout.place packing params type = .ok layout →
        (ofType packing type).evaluate other = .ok layout.size
  | .scalar kind, _, _, _, _, _, placed => by
    simp only [Layout.place, Except.ok.injEq] at placed
    subst placed
    simp only [ofType, evaluate, Layout.size_scalar]
  | .enum type, _, _, _, _, _, placed => by
    simp only [Layout.place, Except.ok.injEq] at placed
    subst placed
    simp only [ofType, evaluate, Layout.size_enum, Scalar.width]
  | .array name element, params, other, _, buildable, agree, placed => by
    obtain ⟨capacity, item, found, below, rfl⟩ := Layout.place_array_eq_ok_iff.1 placed
    obtain ⟨value, held, -, rfl⟩ := Layout.capacityOf_eq_ok_iff.1 found
    obtain ⟨value', held', same, positive⟩ :=
      agree _ (DataType.capacity_mem_parameterNames name element)
    cases held.symm.trans held'
    have bytes := evaluate_ofType buildable.element (agree.element buildable) below
    simp only [ofType, evaluate, capacityOf_eq_ok same positive, bytes, ok_bind, Layout.size_array]
    rfl
  | .record name fields, params, other, _, buildable, agree, placed => by
    obtain ⟨parts, all, -, rfl⟩ := Layout.place_record_eq_ok_iff.1 placed
    have fit := fieldTerms_fit buildable.of_mem_fields (fun _ => agree.field buildable) all
    rw [ofType_record, ofTerms]
    split
    · next plain =>
      rw [evaluate, sum_fixed_of_fits fit (fieldTerms_fixed_of_plain _ _ _ plain)]
      rfl
    · rw [evaluate, evaluateTerms_of_fits fit]
      rfl

/-- The terms of consecutive fields stand for their parts, one by one. -/
theorem fieldTerms_fit {packing : Packing} {runs : List VectorRun} :
    ∀ {fields : List (String × DataType)} {position : Nat} {params other : Params}
      {parts : List (String × Layout)}, (∀ field ∈ fields, field.2.Buildable) →
      (∀ field ∈ fields,
        Params.AgreeOn field.2 (params.inside field.1) (other.inside field.1)) →
      Layout.placeAll packing params runs position fields = .ok parts →
        List.Forall₂ (Fits other) (fieldTerms packing runs position fields) parts
  | [], _, _, _, _, _, _, placed => by
    simp only [Layout.placeAll, Except.ok.injEq] at placed
    subst placed
    simp only [fieldTerms]
    exact .nil
  | (name, type) :: rest, position, params, other, _, buildable, agree, placed => by
    obtain ⟨layout, others, here, there, rfl⟩ := Layout.placeAll_cons_eq_ok_iff.1 placed
    have size := evaluate_ofType (buildable _ List.mem_cons_self) (agree _ List.mem_cons_self) here
    have behind := fieldTerms_fit (fun field mem => buildable field (List.mem_cons_of_mem _ mem))
      (fun field mem => agree field (List.mem_cons_of_mem _ mem)) there
    simp only [fieldTerms, List.cons_append]
    exact .cons ⟨rfl, size⟩ (List.rel_append (paddingTerm_fit other runs position) behind)

end

open LayoutCache (Request runOn)

/-- **The size plan of a type agrees with its layout**, whatever the packing and the parameters
that the layout was made with, and whatever was asked before of the cache that it comes from, if the
cache is safe for the type.  The plan computes the size of the layout; that of a plain type is the
size itself; the terms of a record are its parts in order, each with the name and the size of its
part, and the terms before a part add up to its offset; and the item of an array computes the size
of its elements. -/
theorem plan_agrees_with_layout {compiler : Compiler} {type : DataType} {params : Params}
    {layout : Layout} {cache : LayoutCache} (safe : cache.SafeFor type)
    (compiled : (runOn (compiler.cachedLayout params type) cache).1 = .ok layout) :
    (ofType compiler.packing type).evaluate params = .ok layout.size ∧
    (type.isPlain = true → ofType compiler.packing type = .fixed layout.size) ∧
    (∀ name fields, type = .record name fields → type.isPlain = false →
      ∃ terms, ofType compiler.packing type = .record name terms ∧
        terms.length = layout.fields.length ∧
        ∀ (i : Nat) (ht : i < terms.length) (hf : i < layout.fields.length),
          terms[i].1 = layout.fields[i].name ∧
          terms[i].2.evaluate (params.inside terms[i].1) = .ok layout.fields[i].content.size ∧
          evaluateTerms params (terms.take i) = .ok layout.fields[i].offset) ∧
    (∀ name element, type = .array name element →
      ∃ item capacity elementLayout,
        ofType compiler.packing type = .array name element.name item ∧
        layout = .array name capacity elementLayout ∧
        item.evaluate (params.inside DataType.itemPrefix) = .ok elementLayout.size) := by
  have buildable := safe.buildable
  rw [Compiler.runOn_cachedLayout safe] at compiled
  obtain ⟨required, checked, placed⟩ := Compiler.layout_eq_ok_iff.1 compiled
  have agree := Params.AgreeOn.of_requiredBy checked
  have size := evaluate_ofType buildable agree placed
  refine ⟨size, ?_, ?_, ?_⟩
  · intro plain
    obtain ⟨bytes, plan⟩ := ofType_fixed_of_isPlain compiler.packing plain
    rw [plan] at size ⊢
    simpa only [evaluate, Except.ok.injEq, SizePlan.fixed.injEq] using size
  · rintro name fields rfl parametric
    obtain ⟨parts, all, -, rfl⟩ := Layout.place_record_eq_ok_iff.1 placed
    have fit := fieldTerms_fit buildable.of_mem_fields (fun _ => agree.field buildable) all
    have same := Layout.length_fields (.record name parts)
    refine ⟨_, ?_, fit.length_eq.trans same.symm, ?_⟩
    · rw [ofType_record, ofTerms, if_neg]
      simpa only [DataType.isPlain, Bool.not_eq_true] using parametric
    · intro i ht hf
      have bound : i < parts.length := same ▸ hf
      have part := Layout.getElem_fields (.record name parts) i bound hf
      have here := fit.get ht bound
      have before := evaluateTerms_of_fits (List.forall₂_take i fit)
      rw [part]
      exact ⟨here.1, here.2, before⟩
  · rintro name element rfl
    obtain ⟨capacity, item, -, below, rfl⟩ := Layout.place_array_eq_ok_iff.1 placed
    have bytes := evaluate_ofType buildable.element (agree.element buildable) below
    refine ⟨_, capacity, item, ?_, rfl, bytes⟩
    simp only [ofType]

/-- The plan of a scene with an array of padded particles computes the size of its layout: four
bytes for the frame, a header, and twice 24 bytes.  The cache holds that layout already. -/
theorem plan_agrees_with_layout_scene :
    (Request.serveAll .empty Request.sceneHistory).SafeFor Scene.sceneType ∧
      (runOn ((Compiler.mk .aligned 5000).cachedLayout Scene.params Scene.sceneType)
        (Request.serveAll .empty Request.sceneHistory)).1 = .ok Scene.sceneLayout ∧
      (ofType .aligned Scene.sceneType).evaluate Scene.params = .ok 60 := by
  have safe := LayoutCache.safeFor_sceneType
  have compiled : (runOn ((Compiler.mk .aligned 5000).cachedLayout Scene.params Scene.sceneType)
      (Request.serveAll .empty Request.sceneHistory)).1 = .ok Scene.sceneLayout := by
    rw [Compiler.runOn_cachedLayout safe, Scene.layout_sceneType]
  exact ⟨safe, compiled, (plan_agrees_with_layout safe compiled).1⟩

/-- The two arms of a gantry share a name and a fingerprint, so on an empty cache the right arm gets
the layout of the left one.  The plan of the gantry measures both arms as they are, and comes to 36
bytes where the layout has 40. -/
theorem plan_disagrees_with_layout_gantry :
    Gantry.gantryType.Buildable ∧
      (ofType .aligned Gantry.gantryType).evaluate Gantry.params = .ok 36 ∧
      ∃ layout, (runOn ((Compiler.mk .aligned 5000).cachedLayout Gantry.params
        Gantry.gantryType) .empty).1 = .ok layout ∧ layout.size = 40 := by
  have sizes : (runOn ((Compiler.mk .aligned 5000).cachedLayout Gantry.params Gantry.gantryType)
      .empty).1.map Layout.size = .ok 40 := by decide +kernel
  exact ⟨Gantry.buildable_gantryType, rfl, map_eq_ok.1 sizes⟩

end SizePlan

end DeviceBlob
