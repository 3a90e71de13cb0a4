import ObjectMachine.Proofs.Outlines
import Mathlib.Data.List.Nodup
import Mathlib.Data.List.Perm.Subperm
import Mathlib.Logic.Relation

/-!
# Which images have an outline

An outline is made exactly if all numbers in the types and the signatures of an image name what they
should and no method is listed twice. Then the table of types is made exactly if no class descends
from itself.

That a chain of classes ends is seen by counting: without a cycle a chain passes every class at most
once, so it takes no more steps than there are types.
-/

namespace ObjectMachine

def TypeDef.listed : TypeDef → List Int32
  | .ofClass c => c.methods
  | .ofArray _ => []

namespace Image

def HasType (image : Image) (index : Int32) : Prop :=
  -4 ≤ index.toInt ∧ index.toInt < image.types.length

def Declares (image : Image) (index : Int32) : Prop :=
  0 ≤ index.toInt ∧ index.toInt < image.methods.length

def allListed (image : Image) : List Int32 :=
  image.types.flatMap TypeDef.listed

def Extends (image : Image) (place above : Nat) : Prop :=
  ∃ c base, image.types[place]? = some (.ofClass c) ∧ c.base = some base ∧ base.toInt = above

end Image

namespace Image

variable {image : Image}

/-!
## Numbers
-/

theorem exists_placeOf?_iff {builtins declared : Nat} {index : Int32} :
    (∃ place, placeOf? builtins declared index = some place) ↔
      -builtins ≤ index.toInt ∧ index.toInt < declared := by
  simp only [placeOf?_eq_some_iff]
  constructor
  · intro found
    rcases found with ⟨place, found⟩
    omega
  · intro inside
    by_cases negative : index.toInt < 0
    · exact ⟨(-index.toInt - 1).toNat, Or.inl (by omega)⟩
    · exact ⟨builtins + index.toInt.toNat, Or.inr (by omega)⟩

theorem exists_typeRef_iff {index : Int32} :
    (∃ ref, image.typeRef index = .ok ref) ↔ image.HasType index := by
  have places := @exists_placeOf?_iff primitiveCount image.types.length index
  simp only [typeRef_eq_ok_iff]
  constructor
  · intro found
    rcases found with ⟨ref, found⟩
    exact places.mp ⟨ref.index, found⟩
  · intro inside
    rcases places.mpr inside with ⟨place, found⟩
    exact ⟨⟨place⟩, found⟩

theorem exists_methodRef_iff {index : Int32} :
    (∃ ref, image.methodRef index = .ok ref) ↔
      -7 ≤ index.toInt ∧ index.toInt < image.methods.length := by
  have places := @exists_placeOf?_iff builtinCount image.methods.length index
  simp only [methodRef_eq_ok_iff]
  constructor
  · intro found
    rcases found with ⟨ref, found⟩
    exact places.mp ⟨ref.index, found⟩
  · intro inside
    rcases places.mpr inside with ⟨place, found⟩
    exact ⟨⟨place⟩, found⟩

theorem toInt_of_methodRef {index : Int32} {ref : MethodRef}
    (resolved : image.methodRef index = .ok ref) (late : builtinCount ≤ ref.index) :
    index.toInt = (ref.index - builtinCount : Nat) := by
  have cases' := placeOf?_eq_some_iff.mp (methodRef_eq_ok_iff.mp resolved)
  omega

theorem declares_iff {index : Int32} :
    image.Declares index ↔
      ∃ ref, image.methodRef index = .ok ref ∧ builtinCount ≤ ref.index := by
  simp only [methodRef_eq_ok_iff, placeOf?_eq_some_iff, Declares]
  constructor
  · intro inside
    refine ⟨⟨builtinCount + index.toInt.toNat⟩, Or.inr ?_, Nat.le_add_right _ _⟩
    simp only
    omega
  · intro found
    rcases found with ⟨ref, found, late⟩
    omega

theorem methodRef_inj {index index' : Int32} {ref : MethodRef}
    (resolved : image.methodRef index = .ok ref) (resolved' : image.methodRef index' = .ok ref) :
    index = index' := by
  have cases' := placeOf?_eq_some_iff.mp (methodRef_eq_ok_iff.mp resolved)
  have cases'' := placeOf?_eq_some_iff.mp (methodRef_eq_ok_iff.mp resolved')
  apply Int32.toInt_inj.mp
  omega

/-!
## Outlines
-/

def Unclaimed (image : Image) (indices : List Int32) (claims : Claims) : Prop :=
  ∀ index ∈ indices, ∀ ref owner, image.methodRef index = .ok ref → (ref, owner) ∉ claims

theorem unclaimed_cons_iff {index : Int32} {indices : List Int32} {ref : MethodRef}
    {owner : TypeRef} {claims : Claims} (resolved : image.methodRef index = .ok ref) :
    image.Unclaimed indices ((ref, owner) :: claims) ↔
      index ∉ indices ∧ image.Unclaimed indices claims := by
  constructor
  · intro unclaimed
    constructor
    · intro mem
      exact unclaimed index mem ref owner resolved List.mem_cons_self
    · intro other mem ref' owner' resolved' held
      exact unclaimed other mem ref' owner' resolved' (List.mem_cons_of_mem _ held)
  · intro both other mem ref' owner' resolved' held
    rcases List.mem_cons.mp held with same | held
    · cases same
      exact both.1 (methodRef_inj resolved resolved' ▸ mem)
    · exact both.2 other mem ref' owner' resolved' held

theorem exists_claimMethods_iff {className : String} {this : TypeRef} {indices : List Int32}
    {claims : Claims} :
    (∃ result, image.claimMethods className this indices claims = .ok result) ↔
      (∀ index ∈ indices, image.Declares index) ∧ indices.Nodup ∧
        image.Unclaimed indices claims := by
  induction indices generalizing claims with
  | nil => simp [claimMethods, Unclaimed]
  | cons index rest ih =>
      rw [claimMethods, Except.exists_bind_iff]
      simp only [Except.mapError_eq_ok_iff]
      constructor
      · intro found
        rcases found with ⟨ref, resolved, result, found⟩
        split at found
        · cases found
        · next late =>
            split at found
            · cases found
            · next absent =>
                rcases Except.bind_eq_ok_iff.mp found with ⟨later, second, _⟩
                rcases ih.mp ⟨later, second⟩ with ⟨declared, nodup, unclaimed⟩
                rcases (unclaimed_cons_iff resolved).mp unclaimed with ⟨fresh, unclaimed⟩
                refine ⟨?_, List.nodup_cons.mpr ⟨fresh, nodup⟩, ?_⟩
                · intro other mem
                  rcases List.mem_cons.mp mem with rfl | mem
                  · exact declares_iff.mpr ⟨ref, resolved, Nat.le_of_not_lt late⟩
                  · exact declared other mem
                · intro other mem ref' owner resolved' held
                  rcases List.mem_cons.mp mem with rfl | mem
                  · rw [resolved] at resolved'
                    cases resolved'
                    exact absent (isSome_lookup_iff.mpr ⟨owner, held⟩)
                  · exact unclaimed other mem ref' owner resolved' held
      · intro given
        rcases given with ⟨declared, nodup, unclaimed⟩
        rcases declares_iff.mp (declared index List.mem_cons_self) with ⟨ref, resolved, late⟩
        rcases List.nodup_cons.mp nodup with ⟨fresh, nodup⟩
        have absent : ¬ (claims.lookup ref).isSome := by
          rw [isSome_lookup_iff]
          intro held
          rcases held with ⟨owner, held⟩
          exact unclaimed index List.mem_cons_self ref owner resolved held
        have unclaimed' : image.Unclaimed rest claims :=
          fun other mem => unclaimed other (List.mem_cons_of_mem _ mem)
        have second : ∃ result,
            image.claimMethods className this rest ((ref, this) :: claims) = .ok result :=
          ih.mpr ⟨fun other mem => declared other (List.mem_cons_of_mem _ mem), nodup,
            (unclaimed_cons_iff resolved).mpr ⟨fresh, unclaimed'⟩⟩
        refine ⟨ref, resolved, ?_⟩
        rw [if_neg (Nat.not_lt.mpr late), if_neg absent, Except.exists_bind_iff]
        rcases second with ⟨result, second⟩
        exact ⟨result, second, _, rfl⟩

theorem baseRef_eq_ok_iff {className : String} {this : TypeRef} {base : Option Int32}
    {found : Option TypeRef} :
    image.baseRef className this base = .ok found ↔
      (base = none ∧ found = none) ∨
      ∃ index ref, base = some index ∧ found = some ref ∧ image.typeRef index = .ok ref ∧
        image.isClass ref = true ∧ ref ≠ this := by
  cases base with
  | none =>
      constructor
      · intro same
        cases same
        exact Or.inl ⟨rfl, rfl⟩
      · intro given
        rcases given with ⟨_, rfl⟩ | ⟨_, _, same, _⟩
        · rfl
        · cases same
  | some index =>
      rw [baseRef, Except.bind_eq_ok_iff]
      simp only [Except.mapError_eq_ok_iff]
      constructor
      · intro given
        rcases given with ⟨ref, resolved, given⟩
        split at given
        · next suits =>
            cases given
            rw [Bool.and_eq_true, bne_iff_ne] at suits
            exact Or.inr ⟨index, ref, rfl, rfl, resolved, suits.1, suits.2⟩
        · cases given
      · intro given
        rcases given with ⟨none, _⟩ | ⟨index', ref, same, rfl, resolved, isClass, other⟩
        · cases none
        · cases same
          refine ⟨ref, resolved, ?_⟩
          rw [if_pos (by rw [Bool.and_eq_true, bne_iff_ne]; exact ⟨isClass, other⟩)]

theorem isClass_iff {index : Int32} {ref : TypeRef} (resolved : image.typeRef index = .ok ref) :
    image.isClass ref = true ↔ ∃ c, image.typeAt? index = some (.ofClass c) := by
  rw [← typeDef?_eq_typeAt? resolved]
  unfold isClass
  split
  · next c found => simp [found]
  · next other =>
      simp only [Bool.false_eq_true, false_iff, not_exists]
      exact other

/-- What makes a type fit to be outlined, apart from the methods that were claimed before. -/
def GoodType (image : Image) (this : TypeRef) : TypeDef → Prop
  | .ofClass c => (∃ base, image.baseRef c.name this c.base = .ok base) ∧
      (∀ index ∈ c.fields, image.HasType index) ∧ ∀ index ∈ c.methods, image.Declares index
  | .ofArray element => image.HasType element

theorem exists_outlineType_iff {this : TypeRef} {type : TypeDef} {claims : Claims} :
    (∃ result, image.outlineType this type claims = .ok result) ↔
      image.GoodType this type ∧ type.listed.Nodup ∧ image.Unclaimed type.listed claims := by
  cases type with
  | ofArray element =>
      simp only [outlineType, Except.exists_bind_iff, Except.mapError_eq_ok_iff, GoodType,
        TypeDef.listed, List.nodup_nil, true_and, ← exists_typeRef_iff]
      constructor
      · intro found
        rcases found with ⟨ref, resolved, _⟩
        exact ⟨⟨ref, resolved⟩, fun _ mem => absurd mem List.not_mem_nil⟩
      · intro given
        rcases given with ⟨⟨ref, resolved⟩, _⟩
        exact ⟨ref, resolved, _, rfl⟩
  | ofClass c =>
      have fields_iff : (∃ refs, image.typeRefs c.fields = .ok refs) ↔
          ∀ index ∈ c.fields, image.HasType index := by
        simp only [typeRefs, Except.exists_mapM_iff, exists_typeRef_iff]
      simp only [outlineType, Except.exists_bind_iff, Except.mapError_eq_ok_iff, GoodType,
        TypeDef.listed, ← fields_iff]
      constructor
      · intro found
        rcases found with ⟨base, based, refs, resolved, result, claimed, _⟩
        rcases exists_claimMethods_iff.mp ⟨result, claimed⟩ with ⟨declared, nodup, unclaimed⟩
        exact ⟨⟨⟨base, based⟩, ⟨refs, resolved⟩, declared⟩, nodup, unclaimed⟩
      · intro given
        rcases given with ⟨⟨⟨base, based⟩, ⟨refs, resolved⟩, declared⟩, nodup, unclaimed⟩
        rcases exists_claimMethods_iff.mpr ⟨declared, nodup, unclaimed⟩ with ⟨result, claimed⟩
        exact ⟨base, based, refs, resolved, result, claimed, _, rfl⟩

theorem OutlinedAs.mem_methods_iff {this : TypeRef} {type : TypeDef} {outlined : TypeOutline}
    (same : OutlinedAs image this type outlined) {ref : MethodRef} :
    (∃ c, outlined = .ofClass c ∧ ref ∈ c.methods) ↔
      ∃ index ∈ type.listed, image.methodRef index = .ok ref := by
  cases same with
  | ofArray resolved => simp [TypeDef.listed]
  | ofClass based resolved resolved' =>
      simp only [TypeDef.listed, TypeOutline.ofClass.injEq, exists_eq_left']
      exact Except.mem_iff_of_mapM resolved'

theorem declares_of_goodType {this : TypeRef} {type : TypeDef} (good : image.GoodType this type) :
    ∀ index ∈ type.listed, image.Declares index := by
  cases type with
  | ofClass c => exact good.2.2
  | ofArray element => exact nofun

theorem unclaimed_iff_of_outlineType {this : TypeRef} {type : TypeDef} {outlined : TypeOutline}
    {claims claims' : Claims} {indices : List Int32} (good : image.GoodType this type)
    (first : image.outlineType this type claims = .ok (outlined, claims')) :
    image.Unclaimed indices claims' ↔
      (∀ index ∈ type.listed, index ∉ indices) ∧ image.Unclaimed indices claims := by
  rcases outlineType_cases first with ⟨same, claims_iff⟩
  have held_iff : ∀ ref owner, (ref, owner) ∈ claims' ↔
      (owner = this ∧ ∃ index ∈ type.listed, image.methodRef index = .ok ref) ∨
        (ref, owner) ∈ claims := by
    intro ref owner
    rw [claims_iff, ← same.mem_methods_iff]
    constructor
    · intro either
      rcases either with ⟨c, isClass, here, mem⟩ | held
      · exact Or.inl ⟨here, c, isClass, mem⟩
      · exact Or.inr held
    · intro either
      rcases either with ⟨here, c, isClass, mem⟩ | held
      · exact Or.inl ⟨c, isClass, here, mem⟩
      · exact Or.inr held
  constructor
  · intro unclaimed
    constructor
    · intro index listed mem
      rcases declares_iff.mp (declares_of_goodType good index listed) with ⟨ref, resolved, _⟩
      exact unclaimed index mem ref this resolved
        ((held_iff _ _).mpr (Or.inl ⟨rfl, index, listed, resolved⟩))
    · intro index mem ref owner resolved held
      exact unclaimed index mem ref owner resolved ((held_iff _ _).mpr (Or.inr held))
  · intro both index mem ref owner resolved held
    rcases (held_iff _ _).mp held with ⟨_, index', listed, resolved'⟩ | held
    · exact both.1 index (methodRef_inj resolved resolved' ▸ listed) mem
    · exact both.2 index mem ref owner resolved held

theorem exists_outlineTypes_iff {place : Nat} {types : List TypeDef} {claims : Claims} :
    (∃ result, image.outlineTypes place types claims = .ok result) ↔
      (∀ (i : Nat) type, types[i]? = some type → image.GoodType ⟨place + i⟩ type) ∧
        (types.flatMap TypeDef.listed).Nodup ∧
        image.Unclaimed (types.flatMap TypeDef.listed) claims := by
  induction types generalizing place claims with
  | nil => simp [outlineTypes, Unclaimed]
  | cons type rest ih =>
      rw [outlineTypes, Except.exists_bind_iff, List.flatMap_cons, List.nodup_append']
      constructor
      · intro found
        rcases found with ⟨⟨outlined, middle⟩, first, result, found⟩
        rcases Except.bind_eq_ok_iff.mp found with ⟨later, second, _⟩
        rcases exists_outlineType_iff.mp ⟨_, first⟩ with ⟨good, nodup, unclaimed⟩
        rcases ih.mp ⟨later, second⟩ with ⟨goods, nodup', unclaimed'⟩
        rcases (unclaimed_iff_of_outlineType good first).mp unclaimed' with
          ⟨apart, unclaimed'⟩
        refine ⟨?_, ⟨nodup, nodup', ?_⟩, ?_⟩
        · intro i type' at_i
          cases i with
          | zero =>
              cases at_i
              exact good
          | succ i =>
              rw [← Nat.succ_add_eq_add_succ]
              exact goods i type' at_i
        · intro index mem mem'
          exact apart index mem mem'
        · intro index mem
          rcases List.mem_append.mp mem with mem | mem
          · exact unclaimed index mem
          · exact unclaimed' index mem
      · intro given
        rcases given with ⟨goods, ⟨nodup, nodup', apart⟩, unclaimed⟩
        have good : image.GoodType ⟨place⟩ type := goods 0 type rfl
        have here : image.Unclaimed type.listed claims :=
          fun index mem => unclaimed index (List.mem_append_left _ mem)
        have beyond : image.Unclaimed (rest.flatMap TypeDef.listed) claims :=
          fun index mem => unclaimed index (List.mem_append_right _ mem)
        rcases exists_outlineType_iff.mpr ⟨good, nodup, here⟩ with ⟨⟨outlined, middle⟩, first⟩
        have second : ∃ result, image.outlineTypes (place + 1) rest middle = .ok result := by
          apply ih.mpr
          refine ⟨?_, nodup', ?_⟩
          · intro i type' at_i
            rw [Nat.succ_add_eq_add_succ]
            exact goods (i + 1) type' at_i
          · exact (unclaimed_iff_of_outlineType good first).mpr
              ⟨fun index mem mem' => apart mem mem', beyond⟩
        refine ⟨_, first, ?_⟩
        rw [Except.exists_bind_iff]
        rcases second with ⟨result, second⟩
        exact ⟨result, second, _, rfl⟩

structure GoodSignature (image : Image) (method : MethodDef) : Prop where
  returns : ∀ index, method.returns = some index → image.HasType index
  params : ∀ index ∈ method.params, image.HasType index
  locals : ∀ index ∈ method.locals, image.HasType index

theorem exists_outlineMethod_iff {claims : Claims} {this : MethodRef} {method : MethodDef} :
    (∃ outlined, image.outlineMethod claims this method = .ok outlined) ↔
      image.GoodSignature method := by
  have types_iff : ∀ indices, (∃ refs, image.typeRefs indices = .ok refs) ↔
      ∀ index ∈ indices, image.HasType index := by
    intro indices
    simp only [typeRefs, Except.exists_mapM_iff, exists_typeRef_iff]
  have returns_iff : (∃ found, method.returns.mapM image.typeRef = .ok found) ↔
      ∀ index, method.returns = some index → image.HasType index := by
    cases method.returns with
    | none => simp [pure, Except.pure]
    | some index =>
        simp only [Option.some.injEq, forall_eq', ← exists_typeRef_iff]
        constructor
        · intro found
          rcases found with ⟨result, found⟩
          rcases Except.bind_eq_ok_iff.mp found with ⟨ref, resolved, _⟩
          exact ⟨ref, resolved⟩
        · intro given
          rcases given with ⟨ref, resolved⟩
          exact ⟨some ref, Except.bind_eq_ok_iff.mpr ⟨ref, resolved, rfl⟩⟩
  simp only [outlineMethod, Except.exists_bind_iff]
  constructor
  · intro found
    rcases found with ⟨returns, first, params, second, locals, third, _⟩
    exact ⟨returns_iff.mp ⟨_, first⟩, (types_iff _).mp ⟨_, second⟩, (types_iff _).mp ⟨_, third⟩⟩
  · intro good
    rcases returns_iff.mpr good.returns with ⟨returns, first⟩
    rcases (types_iff _).mpr good.params with ⟨params, second⟩
    rcases (types_iff _).mpr good.locals with ⟨locals, third⟩
    exact ⟨returns, first, params, second, locals, third, _, rfl⟩

theorem exists_outlineMethods_iff {claims : Claims} {place : Nat} {methods : List MethodDef} :
    (∃ outlined, image.outlineMethods claims place methods = .ok outlined) ↔
      ∀ method ∈ methods, image.GoodSignature method := by
  induction methods generalizing place with
  | nil => simp [outlineMethods]
  | cons method rest ih =>
      rw [outlineMethods, Except.exists_bind_iff, List.forall_mem_cons]
      simp only [Except.exists_bind_iff]
      constructor
      · intro found
        rcases found with ⟨outlined, first, later, second, _⟩
        exact ⟨exists_outlineMethod_iff.mp ⟨_, first⟩, ih.mp ⟨_, second⟩⟩
      · intro good
        rcases exists_outlineMethod_iff.mpr good.1 with ⟨outlined, first⟩
        rcases ih.mpr good.2 with ⟨later, second⟩
        exact ⟨outlined, first, later, second, _, rfl⟩

theorem exists_outline_iff :
    (∃ outline, image.outline = .ok outline) ↔
      (∀ (i : Nat) type, image.types[i]? = some type →
        image.GoodType ⟨primitiveCount + i⟩ type) ∧
      image.allListed.Nodup ∧ ∀ method ∈ image.methods, image.GoodSignature method := by
  simp only [outline, Except.exists_bind_iff, Except.mapError_eq_ok_iff]
  constructor
  · intro found
    rcases found with ⟨⟨types, claims⟩, first, methods, second, _⟩
    rcases exists_outlineTypes_iff.mp ⟨_, first⟩ with ⟨goods, nodup, _⟩
    exact ⟨goods, nodup, exists_outlineMethods_iff.mp ⟨_, second⟩⟩
  · intro given
    rcases given with ⟨goods, nodup, signatures⟩
    have unclaimed : image.Unclaimed image.allListed [] := by
      intro index mem ref owner resolved held
      cases held
    rcases exists_outlineTypes_iff.mpr ⟨goods, nodup, unclaimed⟩ with ⟨⟨types, claims⟩, first⟩
    rcases exists_outlineMethods_iff.mpr signatures with ⟨methods, second⟩
    exact ⟨_, first, methods, second, _, rfl⟩

/-!
## Chains of classes
-/

variable {outline : Outline} {claims : Claims}

theorem typeAt?_eq_some_iff {index : Int32} {type : TypeDef} :
    image.typeAt? index = some type ↔
      ∃ place : Nat, index.toInt = place ∧ image.types[place]? = some type := by
  unfold typeAt?
  constructor
  · intro found
    split at found
    · cases found
    · next positive => exact ⟨index.toInt.toNat, by omega, found⟩
  · intro found
    rcases found with ⟨place, same, found⟩
    rw [if_neg (by omega), same, Int.toNat_natCast]
    exact found

theorem index_of_typeRef {index : Int32} {ref : TypeRef} {place : Nat}
    (resolved : image.typeRef index = .ok ref) (same : index.toInt = place) :
    ref = ⟨primitiveCount + place⟩ := by
  have cases' := placeOf?_eq_some_iff.mp (typeRef_eq_ok_iff.mp resolved)
  cases ref with
  | mk index' =>
      rw [TypeRef.mk.injEq]
      simp only at cases'
      omega

theorem typeDef?_add_primitiveCount (image : Image) (place : Nat) :
    image.typeDef? ⟨primitiveCount + place⟩ = image.types[place]? := by
  rw [typeDef?, if_neg (by simp), Nat.add_sub_cancel_left]

theorem lt_of_class? {place : Nat} {o : ClassOutline}
    (known : outline.class? ⟨primitiveCount + place⟩ = some o) :
    place < outline.types.length := by
  rcases Outline.class?_eq_some_iff.mp known with ⟨i, at_i, same⟩
  rw [Nat.add_left_cancel (TypeRef.mk.inj same)]
  exact (List.getElem?_eq_some_iff.mp at_i).1

namespace Outlines

theorem extends_of_base (outlines : Outlines image outline claims) {place : Nat} {base : TypeRef}
    {o : ClassOutline} (known : outline.class? ⟨primitiveCount + place⟩ = some o)
    (has : o.base = some base) :
    ∃ above b, base = ⟨primitiveCount + above⟩ ∧ image.types[above]? = some (.ofClass b) ∧
      image.Extends place above := by
  rcases outlines.class_of_class? known with ⟨c, found, same⟩
  rw [typeDef?_add_primitiveCount] at found
  cases same with
  | ofClass based _ _ =>
      simp only at has
      rcases baseRef_eq_ok_iff.mp based with
        ⟨_, none⟩ | ⟨index, ref, declared, some', resolved, isClass, _⟩
      · rw [has] at none
        cases none
      · rw [has] at some'
        cases some'
        rcases (isClass_iff resolved).mp isClass with ⟨b, at_base⟩
        rcases typeAt?_eq_some_iff.mp at_base with ⟨above, same, at_above⟩
        exact ⟨above, b, index_of_typeRef resolved same, at_above, c, index, found, declared,
          same⟩

theorem base_of_extends (outlines : Outlines image outline claims) {place above : Nat}
    (extending : image.Extends place above) :
    ∃ o, outline.class? ⟨primitiveCount + place⟩ = some o ∧
      o.base = some ⟨primitiveCount + above⟩ := by
  rcases extending with ⟨c, base, found, declared, same⟩
  rw [← typeDef?_add_primitiveCount] at found
  rcases outlines.class?_of_class found with ⟨o, known, same'⟩
  refine ⟨o, known, ?_⟩
  cases same' with
  | ofClass based _ _ =>
      rcases baseRef_eq_ok_iff.mp based with
        ⟨none, _⟩ | ⟨index, ref, declared', some', resolved, _, _⟩
      · rw [declared] at none
        cases none
      · rw [declared] at declared'
        cases declared'
        simp only [some', index_of_typeRef resolved same]

theorem shorter_chain (outlines : Outlines image outline claims) {place above : Nat}
    (descends : Relation.TransGen image.Extends place above)
    {chain : List (TypeRef × ClassOutline)}
    (chained : outline.Chained ⟨primitiveCount + place⟩ chain) :
    ∃ rest, outline.Chained ⟨primitiveCount + above⟩ rest ∧ rest.length < chain.length := by
  have one : ∀ {place above : Nat} {chain : List (TypeRef × ClassOutline)},
      image.Extends place above → outline.Chained ⟨primitiveCount + place⟩ chain →
      ∃ rest, outline.Chained ⟨primitiveCount + above⟩ rest ∧ rest.length < chain.length := by
    intro place above chain extending chained
    rcases outlines.base_of_extends extending with ⟨o, known, has⟩
    rcases chained.eq_cons known has with ⟨rest, chained', rfl⟩
    exact ⟨rest, chained', Nat.lt_succ_self _⟩
  induction descends with
  | single extending => exact one extending chained
  | tail _ extending ih =>
      rcases ih with ⟨middle, chained', shorter⟩
      rcases one extending chained' with ⟨rest, chained'', shorter'⟩
      exact ⟨rest, chained'', Nat.lt_trans shorter' shorter⟩

theorem acyclic_of_chained (outlines : Outlines image outline claims)
    (chained : ∀ ref o, outline.class? ref = some o → ∃ chain, outline.Chained ref chain)
    (place : Nat) : ¬ Relation.TransGen image.Extends place place := by
  intro cycle
  rcases Relation.TransGen.head'_iff.mp cycle with ⟨above, extending, _⟩
  rcases outlines.base_of_extends extending with ⟨o, known, _⟩
  rcases chained _ o known with ⟨chain, chained⟩
  rcases outlines.shorter_chain cycle chained with ⟨rest, chained', shorter⟩
  rw [chained'.unique chained] at shorter
  exact Nat.lt_irrefl _ shorter

theorem length_lt_of_fresh {passed : List Nat} {place size : Nat} (nodup : passed.Nodup)
    (inside : ∀ other ∈ passed, other < size) (fresh : place ∉ passed) (known : place < size) :
    passed.length < size := by
  have nodup' : (place :: passed).Nodup := List.nodup_cons.mpr ⟨fresh, nodup⟩
  have inside' : place :: passed ⊆ List.range size := by
    intro other mem
    rw [List.mem_range]
    rcases List.mem_cons.mp mem with rfl | mem
    · exact known
    · exact inside other mem
  have bound := (nodup'.subperm inside').length_le
  rwa [List.length_range] at bound

/-- Without cycles no class is met twice, so the way up from a class comes to an end. -/
theorem exists_chained (outlines : Outlines image outline claims)
    (acyclic : ∀ place, ¬ Relation.TransGen image.Extends place place) {steps place : Nat}
    {passed : List Nat} (nodup : passed.Nodup)
    (enough : steps + passed.length = outline.types.length)
    (below : ∀ other ∈ passed, other < outline.types.length ∧
      Relation.TransGen image.Extends other place) :
    ∃ chain, outline.Chained ⟨primitiveCount + place⟩ chain := by
  induction steps generalizing passed place with
  | zero =>
      cases known : outline.class? ⟨primitiveCount + place⟩ with
      | none => exact ⟨[], .outside known⟩
      | some o =>
          have fresh : place ∉ passed := fun mem => acyclic place (below place mem).2
          have room := length_lt_of_fresh nodup (fun other mem => (below other mem).1) fresh
            (lt_of_class? known)
          omega
  | succ steps ih =>
      cases known : outline.class? ⟨primitiveCount + place⟩ with
      | none => exact ⟨[], .outside known⟩
      | some o =>
          have fresh : place ∉ passed := fun mem => acyclic place (below place mem).2
          cases has : o.base with
          | none => exact ⟨_, .top known has⟩
          | some base =>
              rcases outlines.extends_of_base known has with ⟨above, _, rfl, _, extending⟩
              have next : ∃ chain, outline.Chained ⟨primitiveCount + above⟩ chain := by
                apply ih (List.nodup_cons.mpr ⟨fresh, nodup⟩)
                · rw [List.length_cons]
                  omega
                · intro other mem
                  rcases List.mem_cons.mp mem with rfl | mem
                  · exact ⟨lt_of_class? known, .single extending⟩
                  · exact ⟨(below other mem).1, (below other mem).2.tail extending⟩
              rcases next with ⟨chain, chained⟩
              exact ⟨_, .link known has chained⟩

/-- The table of types is made exactly if no class descends from itself. -/
theorem exists_typeTable_iff (outlines : Outlines image outline claims) :
    (∃ types, outline.typeTable = .ok types) ↔
      ∀ place, ¬ Relation.TransGen image.Extends place place := by
  rw [Outline.exists_typeTable_iff]
  constructor
  · exact outlines.acyclic_of_chained
  · intro acyclic ref o known
    rcases Outline.class?_eq_some_iff.mp known with ⟨i, _, rfl⟩
    exact outlines.exists_chained acyclic List.nodup_nil rfl nofun

end Outlines

end Image
end ObjectMachine
