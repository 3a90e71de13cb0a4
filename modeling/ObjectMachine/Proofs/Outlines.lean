import ObjectMachine.Proofs.LinkedCode

/-!
# Outlines of images

The number of a type or a method is resolved if it counts an entry that is built in or declared. An
outline that was made has an entry for every type and every method of the image, with its numbers
replaced by what they resolve to; and a method belongs to a class exactly if the class lists it.
-/

namespace ObjectMachine

theorem isSome_lookup_iff {α β : Type} [BEq α] [LawfulBEq α] {key : α}
    {table : List (α × β)} : (table.lookup key).isSome ↔ ∃ entry, (key, entry) ∈ table := by
  constructor
  · intro found
    rcases Option.isSome_iff_exists.mp found with ⟨entry, found⟩
    rcases List.lookup_eq_some_iff.mp found with ⟨front, back, rfl, _⟩
    exact ⟨entry, by simp⟩
  · intro present
    rcases present with ⟨entry, mem⟩
    by_contra absent
    rw [Option.not_isSome_iff_eq_none, List.lookup_eq_none_iff] at absent
    simpa using absent _ mem

namespace Image

variable {image : Image}

/-!
## Numbers
-/

theorem placeOf?_eq_some_iff {builtins declared place : Nat} {index : Int32} :
    placeOf? builtins declared index = some place ↔
      (index.toInt < 0 ∧ -index.toInt - 1 = place ∧ place < builtins) ∨
      (0 ≤ index.toInt ∧ index.toInt < declared ∧ builtins + index.toInt = place) := by
  unfold placeOf?
  simp only
  split
  · next negative =>
      split
      · next inside =>
          rw [Option.some.injEq]
          omega
      · next outside =>
          constructor
          · intro same
            cases same
          · omega
  · next positive =>
      split
      · next inside =>
          rw [Option.some.injEq]
          omega
      · next outside =>
          constructor
          · intro same
            cases same
          · omega

theorem typeRef_eq_ok_iff {index : Int32} {ref : TypeRef} :
    image.typeRef index = .ok ref ↔
      placeOf? primitiveCount image.types.length index = some ref.index := by
  cases ref with
  | mk place =>
      unfold typeRef
      split
      · next found => simp [found]
      · next absent => simp [absent]

theorem methodRef_eq_ok_iff {index : Int32} {ref : MethodRef} :
    image.methodRef index = .ok ref ↔
      placeOf? builtinCount image.methods.length index = some ref.index := by
  cases ref with
  | mk place =>
      unfold methodRef
      split
      · next found => simp [found]
      · next absent => simp [absent]

def typeAt? (image : Image) (index : Int32) : Option TypeDef :=
  if index.toInt < 0 then none else image.types[index.toInt.toNat]?

theorem typeDef?_eq_typeAt? {index : Int32} {ref : TypeRef}
    (resolved : image.typeRef index = .ok ref) : image.typeDef? ref = image.typeAt? index := by
  unfold typeDef? typeAt?
  rcases placeOf?_eq_some_iff.mp (typeRef_eq_ok_iff.mp resolved) with
    ⟨negative, _, inside⟩ | ⟨positive, _, place⟩
  · rw [if_pos inside, if_pos negative]
  · rw [if_neg (by omega), if_neg (by omega)]
    congr 1
    omega

/-!
## Methods of classes
-/

theorem claimMethods_cases {className : String} {this : TypeRef} {indices : List Int32}
    {claims claims' : Claims} {methods : List MethodRef}
    (claimed : image.claimMethods className this indices claims = .ok (methods, claims')) :
    indices.mapM image.methodRef = .ok methods ∧
      ∀ method type, (method, type) ∈ claims' ↔
        (type = this ∧ method ∈ methods) ∨ (method, type) ∈ claims := by
  induction indices generalizing claims methods with
  | nil =>
      cases claimed
      exact ⟨rfl, by simp⟩
  | cons index rest ih =>
      rcases Except.bind_eq_ok_iff.mp claimed with ⟨first, resolved, claimed⟩
      split at claimed
      · cases claimed
      · split at claimed
        · cases claimed
        · rcases Except.bind_eq_ok_iff.mp claimed with ⟨⟨later, claims''⟩, second, claimed⟩
          cases claimed
          rcases ih second with ⟨resolved', claims_iff⟩
          constructor
          · rw [Except.mapM_eq_ok_iff] at resolved' ⊢
            exact .cons (Except.mapError_eq_ok_iff.mp resolved) resolved'
          · intro method type
            rw [claims_iff, List.mem_cons, List.mem_cons, Prod.mk.injEq]
            constructor
            · intro cases'
              rcases cases' with ⟨same, mem⟩ | ⟨same, same'⟩ | mem
              · exact Or.inl ⟨same, Or.inr mem⟩
              · exact Or.inl ⟨same', Or.inl same⟩
              · exact Or.inr mem
            · intro cases'
              rcases cases' with ⟨same', same | mem⟩ | mem
              · exact Or.inr (Or.inl ⟨same, same'⟩)
              · exact Or.inl ⟨same', mem⟩
              · exact Or.inr (Or.inr mem)

/-!
## Types
-/

/-- A type and its outline: the numbers are replaced by what they resolve to. -/
inductive OutlinedAs (image : Image) (this : TypeRef) : TypeDef → TypeOutline → Prop where
  | ofClass {c : ClassDef} {base : Option TypeRef} {ownFields : List TypeRef}
      {methods : List MethodRef} : image.baseRef c.name this c.base = .ok base →
      image.typeRefs c.fields = .ok ownFields → c.methods.mapM image.methodRef = .ok methods →
      OutlinedAs image this (.ofClass c) (.ofClass ⟨c.name, base, ownFields, methods⟩)
  | ofArray {element : Int32} {ref : TypeRef} : image.typeRef element = .ok ref →
      OutlinedAs image this (.ofArray element) (.ofArray ref)

theorem outlineType_cases {this : TypeRef} {type : TypeDef} {claims claims' : Claims}
    {outline : TypeOutline}
    (outlined : image.outlineType this type claims = .ok (outline, claims')) :
    OutlinedAs image this type outline ∧
      ∀ method owner, (method, owner) ∈ claims' ↔
        (∃ c, outline = .ofClass c ∧ owner = this ∧ method ∈ c.methods) ∨
          (method, owner) ∈ claims := by
  cases type with
  | ofClass c =>
      rcases Except.bind_eq_ok_iff.mp outlined with ⟨base, based, outlined⟩
      rcases Except.bind_eq_ok_iff.mp outlined with ⟨ownFields, resolved, outlined⟩
      rcases Except.bind_eq_ok_iff.mp outlined with ⟨⟨methods, claims''⟩, claimed, same⟩
      cases same
      rcases claimMethods_cases claimed with ⟨resolved', claims_iff⟩
      refine ⟨.ofClass based (Except.mapError_eq_ok_iff.mp resolved) resolved', ?_⟩
      intro method owner
      simp [claims_iff]
  | ofArray element =>
      rcases Except.bind_eq_ok_iff.mp outlined with ⟨ref, resolved, same⟩
      cases same
      refine ⟨.ofArray (Except.mapError_eq_ok_iff.mp resolved), ?_⟩
      intro method owner
      simp

theorem outlineTypes_cases {place : Nat} {types : List TypeDef} {claims claims' : Claims}
    {outlines : List TypeOutline}
    (outlined : image.outlineTypes place types claims = .ok (outlines, claims')) :
    outlines.length = types.length ∧
      (∀ (i : Nat) type outline, types[i]? = some type → outlines[i]? = some outline →
        OutlinedAs image ⟨place + i⟩ type outline) ∧
      ∀ method owner, (method, owner) ∈ claims' ↔
        (∃ (i : Nat) (c : ClassOutline), outlines[i]? = some (.ofClass c) ∧
          owner = ⟨place + i⟩ ∧ method ∈ c.methods) ∨ (method, owner) ∈ claims := by
  induction types generalizing place claims outlines with
  | nil =>
      cases outlined
      exact ⟨rfl, nofun, by simp⟩
  | cons type rest ih =>
      rcases Except.bind_eq_ok_iff.mp outlined with ⟨⟨first, middle⟩, here, outlined⟩
      rcases Except.bind_eq_ok_iff.mp outlined with ⟨⟨later, last⟩, second, same⟩
      cases same
      rcases outlineType_cases here with ⟨outlinedAs, claims_here⟩
      rcases ih second with ⟨length, each, claims_later⟩
      refine ⟨by simp [length], ?_, ?_⟩
      · intro i type' outline at_i at_i'
        cases i with
        | zero =>
            cases at_i
            cases at_i'
            exact outlinedAs
        | succ i =>
            rw [← Nat.succ_add_eq_add_succ]
            exact each i type' outline at_i at_i'
      · intro method owner
        rw [claims_later, claims_here]
        constructor
        · intro cases'
          rcases cases' with ⟨i, c, at_i, place', mem⟩ | ⟨c, rfl, place', mem⟩ | mem
          · rw [Nat.succ_add_eq_add_succ] at place'
            exact Or.inl ⟨i + 1, c, at_i, place', mem⟩
          · exact Or.inl ⟨0, c, rfl, place', mem⟩
          · exact Or.inr mem
        · intro cases'
          rcases cases' with ⟨i, c, at_i, place', mem⟩ | mem
          · cases i with
            | zero =>
                cases at_i
                exact Or.inr (Or.inl ⟨c, rfl, place', mem⟩)
            | succ i =>
                rw [← Nat.succ_add_eq_add_succ] at place'
                exact Or.inl ⟨i, c, at_i, place', mem⟩
          · exact Or.inr (Or.inr mem)

/-!
## Methods
-/

structure MethodOutlined (image : Image) (claims : Claims) (this : MethodRef) (source : MethodDef)
    (method : MethodOutline) : Prop where
  name : method.name = source.name
  owner : method.owner = claims.lookup this
  returns : source.returns.mapM image.typeRef = .ok method.returns
  params : image.typeRefs source.params = .ok method.params
  locals : image.typeRefs source.locals = .ok method.locals

theorem outlineMethod_cases {claims : Claims} {this : MethodRef} {source : MethodDef}
    {method : MethodOutline} (outlined : image.outlineMethod claims this source = .ok method) :
    MethodOutlined image claims this source method := by
  rcases Except.bind_eq_ok_iff.mp outlined with ⟨returns, resolved, outlined⟩
  rcases Except.bind_eq_ok_iff.mp outlined with ⟨params, resolved', outlined⟩
  rcases Except.bind_eq_ok_iff.mp outlined with ⟨locals, resolved'', same⟩
  cases same
  exact ⟨rfl, rfl, resolved, resolved', resolved''⟩

theorem outlineMethods_cases {claims : Claims} {place : Nat} {sources : List MethodDef}
    {methods : List MethodOutline}
    (outlined : image.outlineMethods claims place sources = .ok methods) :
    methods.length = sources.length ∧
      ∀ (i : Nat) source method, sources[i]? = some source → methods[i]? = some method →
        MethodOutlined image claims ⟨place + i⟩ source method := by
  induction sources generalizing place methods with
  | nil =>
      cases outlined
      exact ⟨rfl, nofun⟩
  | cons source rest ih =>
      rcases Except.bind_eq_ok_iff.mp outlined with ⟨first, here, outlined⟩
      rcases Except.bind_eq_ok_iff.mp outlined with ⟨later, second, same⟩
      cases same
      rcases ih second with ⟨length, each⟩
      refine ⟨by simp [length], ?_⟩
      intro i source' method at_i at_i'
      cases i with
      | zero =>
          cases at_i
          cases at_i'
          exact outlineMethod_cases here
      | succ i =>
          rw [← Nat.succ_add_eq_add_succ]
          exact each i source' method at_i at_i'

/-!
## Outlines
-/

structure Outlines (image : Image) (outline : Outline) (claims : Claims) : Prop where
  types_length : outline.types.length = image.types.length
  types : ∀ (i : Nat) type outlined, image.types[i]? = some type →
    outline.types[i]? = some outlined → OutlinedAs image ⟨primitiveCount + i⟩ type outlined
  methods_length : outline.methods.length = image.methods.length
  methods : ∀ (i : Nat) source method, image.methods[i]? = some source →
    outline.methods[i]? = some method →
    MethodOutlined image claims ⟨builtinCount + i⟩ source method
  /-- Methods belong to the classes that list them. -/
  claims : ∀ method owner, (method, owner) ∈ claims ↔
    ∃ c, outline.class? owner = some c ∧ method ∈ c.methods

end Image

namespace Image

variable {image : Image} {outline : Outline} {claims : Claims}

theorem outline_cases (outlined : image.outline = .ok outline) :
    ∃ claims, Outlines image outline claims := by
  rcases Except.bind_eq_ok_iff.mp outlined with ⟨⟨types, claims⟩, first, outlined⟩
  rcases Except.bind_eq_ok_iff.mp outlined with ⟨methods, second, same⟩
  cases same
  rcases outlineTypes_cases first with ⟨length, each, claims_iff⟩
  rcases outlineMethods_cases (Except.mapError_eq_ok_iff.mp second) with ⟨length', each'⟩
  refine ⟨claims, length, each, length', each', ?_⟩
  intro method owner
  rw [claims_iff]
  constructor
  · intro cases'
    rcases cases' with ⟨i, c, at_i, rfl, mem⟩ | mem
    · exact ⟨c, Outline.class?_eq_some_iff.mpr ⟨i, at_i, rfl⟩, mem⟩
    · cases mem
  · intro found
    rcases found with ⟨c, found, mem⟩
    rcases Outline.class?_eq_some_iff.mp found with ⟨i, at_i, rfl⟩
    exact Or.inl ⟨i, c, at_i, rfl, mem⟩

namespace Outlines

theorem type (outlines : Outlines image outline claims) {ref : TypeRef} {type : TypeDef}
    (found : image.typeDef? ref = some type) :
    ∃ outlined, outline.types[ref.index - primitiveCount]? = some outlined ∧
      primitiveCount ≤ ref.index ∧ OutlinedAs image ref type outlined := by
  unfold typeDef? at found
  split at found
  · cases found
  · next late =>
      have inside : ref.index - primitiveCount < outline.types.length := by
        rw [outlines.types_length]
        exact (List.getElem?_eq_some_iff.mp found).1
      have at_i := List.getElem?_eq_getElem inside
      refine ⟨_, at_i, Nat.le_of_not_lt late, ?_⟩
      have outlined := outlines.types _ _ _ found at_i
      rw [Nat.add_sub_of_le (Nat.le_of_not_lt late)] at outlined
      exact outlined

theorem class_of_class? (outlines : Outlines image outline claims) {ref : TypeRef}
    {o : ClassOutline} (found : outline.class? ref = some o) :
    ∃ c, image.typeDef? ref = some (.ofClass c) ∧
      OutlinedAs image ref (.ofClass c) (.ofClass o) := by
  rcases Outline.class?_eq_some_iff.mp found with ⟨i, at_i, rfl⟩
  have inside : i < image.types.length := by
    rw [← outlines.types_length]
    exact (List.getElem?_eq_some_iff.mp at_i).1
  have at_i' := List.getElem?_eq_getElem inside
  have outlined := outlines.types i _ _ at_i' at_i
  generalize image.types[i] = type at at_i' outlined
  cases outlined with
  | ofClass based resolved resolved' =>
      refine ⟨_, ?_, .ofClass based resolved resolved'⟩
      rw [typeDef?, if_neg (by simp), Nat.add_sub_cancel_left]
      exact at_i'

theorem class?_of_class (outlines : Outlines image outline claims) {ref : TypeRef} {c : ClassDef}
    (found : image.typeDef? ref = some (.ofClass c)) :
    ∃ o, outline.class? ref = some o ∧ OutlinedAs image ref (.ofClass c) (.ofClass o) := by
  rcases outlines.type found with ⟨outlined, at_i, late, same⟩
  cases same with
  | ofClass based resolved resolved' =>
      refine ⟨_, ?_, .ofClass based resolved resolved'⟩
      rw [Outline.class?, if_neg (by omega), at_i]

theorem owner_iff (outlines : Outlines image outline claims) {i : Nat} {method : MethodOutline}
    (at_i : outline.methods[i]? = some method) :
    method.owner.isSome ↔
      ∃ owner c, outline.class? owner = some c ∧ ⟨builtinCount + i⟩ ∈ c.methods := by
  have inside : i < image.methods.length := by
    rw [← outlines.methods_length]
    exact (List.getElem?_eq_some_iff.mp at_i).1
  rw [(outlines.methods i _ _ (List.getElem?_eq_getElem inside) at_i).owner, isSome_lookup_iff]
  exact exists_congr fun owner => outlines.claims _ owner

/-- The class that a method belongs to lists it. -/
theorem listed_by_owner (outlines : Outlines image outline claims) {i : Nat}
    {method : MethodOutline} (at_i : outline.methods[i]? = some method) {owner : TypeRef}
    (owned : method.owner = some owner) :
    ∃ c, outline.class? owner = some c ∧ ⟨builtinCount + i⟩ ∈ c.methods := by
  have inside : i < image.methods.length := by
    rw [← outlines.methods_length]
    exact (List.getElem?_eq_some_iff.mp at_i).1
  rw [(outlines.methods i _ _ (List.getElem?_eq_getElem inside) at_i).owner] at owned
  rcases List.lookup_eq_some_iff.mp owned with ⟨front, back, split, _⟩
  apply (outlines.claims _ owner).mp
  rw [split]
  simp

end Outlines
end Image
end ObjectMachine
