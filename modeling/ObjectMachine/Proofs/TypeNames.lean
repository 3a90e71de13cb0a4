import Mathlib.Logic.Relation
import ObjectMachine.Proofs.LinkedImages

/-!
# Names of types

The name of an array is that of its elements with brackets behind it, so it comes from the class or
the primitive type to which element links lead. Linking refuses a class above itself, but not an
array that is made of itself, directly or by way of other arrays. From such an array element links
lead nowhere, and a search for its name that counts no steps does not end. All other types have the
names that a program gives them.
-/

namespace ObjectMachine
namespace Program

variable {image : Image} {program : Program} {ref last : TypeRef} {name : String}

/-- The first type is an array with elements of the second. -/
def HasElement (program : Program) (ref element : TypeRef) : Prop :=
  ∃ a, program.type? ref = some (.ofArray a) ∧ a.element = element

/-- The name of a type, as it comes from the name of its elements. No steps are counted. -/
inductive Named (program : Program) : TypeRef → String → Prop where
  | primitive {ref : TypeRef} {p : Primitive} : program.type? ref = some (.primitive p) →
      Named program ref p.name
  | ofClass {ref : TypeRef} {c : ClassDescriptor} : program.type? ref = some (.ofClass c) →
      Named program ref c.name
  | ofArray {ref : TypeRef} {a : ArrayDescriptor} {name : String} :
      program.type? ref = some (.ofArray a) → Named program a.element name →
      Named program ref (name ++ "[]")
  | outside {ref : TypeRef} : program.type? ref = none → Named program ref ref.describe

/-- No array that element links lead to is made of itself. -/
def Founded (program : Program) (ref : TypeRef) : Prop :=
  ∀ array, Relation.ReflTransGen program.HasElement ref array →
    ¬ Relation.TransGen program.HasElement array array

/-!
## Names that come about
-/

theorem Named.unique {name' : String} (named : program.Named ref name)
    (named' : program.Named ref name') : name = name' := by
  induction named generalizing name' with
  | primitive found =>
      cases named' with
      | primitive found' => rw [found] at found'; cases found'; rfl
      | _ found' => rw [found] at found'; cases found'
  | ofClass found =>
      cases named' with
      | ofClass found' => rw [found] at found'; cases found'; rfl
      | _ found' => rw [found] at found'; cases found'
  | ofArray found _ ih =>
      cases named' with
      | ofArray found' later => rw [found] at found'; cases found'; rw [ih later]
      | _ found' => rw [found] at found'; cases found'
  | outside found =>
      cases named' with
      | outside _ => rfl
      | _ found' => rw [found] at found'; cases found'

theorem rightUnique_hasElement (program : Program) : Relator.RightUnique program.HasElement := by
  intro ref element element' has has'
  rcases has with ⟨a, found, rfl⟩
  rcases has' with ⟨a', found', rfl⟩
  rw [found] at found'
  cases found'
  rfl

theorem named_of_typeNameWithin? {steps : Nat}
    (shown : program.typeNameWithin? steps ref = some name) : program.Named ref name := by
  fun_induction typeNameWithin? program steps ref generalizing name with
  | case1 steps ref p found => cases shown; exact .primitive found
  | case2 steps ref c found => cases shown; exact .ofClass found
  | case3 ref a found => cases shown
  | case4 ref a found steps ih =>
      rcases Option.map_eq_some_iff.mp shown with ⟨name, inner, rfl⟩
      exact .ofArray found (ih inner)
  | case5 steps ref found => cases shown; exact .outside found

/-- A type has a name exactly if element links lead from it to something that is no array. -/
theorem exists_named_iff :
    (∃ name, program.Named ref name) ↔
      ∃ last, Relation.ReflTransGen program.HasElement ref last ∧ program.array? last = none := by
  constructor
  · intro given
    rcases given with ⟨name, named⟩
    induction named with
    | @primitive ref p found => exact ⟨ref, .refl, by simp [array?, found]⟩
    | @ofClass ref c found => exact ⟨ref, .refl, by simp [array?, found]⟩
    | @outside ref found => exact ⟨ref, .refl, by simp [array?, found]⟩
    | @ofArray ref a name found _ ih =>
        rcases ih with ⟨last, links, flat⟩
        exact ⟨last, .head ⟨a, found, rfl⟩ links, flat⟩
  · intro given
    rcases given with ⟨last, links, flat⟩
    induction links using Relation.ReflTransGen.head_induction_on with
    | refl =>
        cases found : program.type? last with
        | none => exact ⟨_, .outside found⟩
        | some type =>
            cases type with
            | primitive p => exact ⟨_, .primitive found⟩
            | ofClass c => exact ⟨_, .ofClass found⟩
            | ofArray a => simp [array?, found] at flat
    | head has _ ih =>
        rcases has with ⟨a, found, rfl⟩
        rcases ih with ⟨name, named⟩
        exact ⟨_, .ofArray found named⟩

/-!
## Arrays that are made of themselves
-/

theorem Founded.element {element : TypeRef} (founded : program.Founded ref)
    (has : program.HasElement ref element) : program.Founded element :=
  fun array links => founded array (.head has links)

theorem founded_of_element {element : TypeRef} (has : program.HasElement ref element)
    (founded : program.Founded element) : program.Founded ref := by
  intro array links cycle
  rcases links.cases_head with rfl | ⟨element', has', links⟩
  · -- The first link of the cycle leads to the element, so the cycle goes through the element.
    rcases Relation.TransGen.head'_iff.mp cycle with ⟨element', has', links⟩
    cases rightUnique_hasElement program has has'
    exact founded element .refl (.tail' links has)
  · cases rightUnique_hasElement program has has'
    exact founded array links cycle

theorem founded_of_flat (flat : program.array? ref = none) : program.Founded ref := by
  have none : ∀ element, ¬ program.HasElement ref element := by
    intro element has
    rcases has with ⟨a, found, _⟩
    simp [array?, found] at flat
  intro array links cycle
  rcases links.cases_head with rfl | ⟨element, has, _⟩
  · rcases Relation.TransGen.head'_iff.mp cycle with ⟨element, has, _⟩
    exact none element has
  · exact none element has

theorem founded_of_links (links : Relation.ReflTransGen program.HasElement ref last)
    (flat : program.array? last = none) : program.Founded ref := by
  induction links using Relation.ReflTransGen.head_induction_on with
  | refl => exact founded_of_flat flat
  | head has _ ih => exact founded_of_element has ih

theorem Founded.room (founded : program.Founded ref) {passed : List Nat} (nodup : passed.Nodup)
    (before : ∀ other ∈ passed, other < program.types.size ∧
      Relation.TransGen program.HasElement ⟨other⟩ ref)
    {type : TypeDescriptor} (found : program.type? ref = some type) :
    ref.index ∉ passed ∧ passed.length < program.types.size := by
  have fresh : ref.index ∉ passed := fun mem => founded ref .refl (before _ mem).2
  exact ⟨fresh, Image.Outlines.length_lt_of_fresh nodup (fun other mem => (before other mem).1)
    fresh (Array.getElem?_eq_some_iff.mp found).1⟩

/-- Without a cycle no array is met twice, and the steps that are left are enough for the types that
have not been passed. -/
theorem exists_typeNameWithin? (founded : program.Founded ref) {steps : Nat} {passed : List Nat}
    (nodup : passed.Nodup) (enough : steps + passed.length = program.types.size)
    (before : ∀ other ∈ passed, other < program.types.size ∧
      Relation.TransGen program.HasElement ⟨other⟩ ref) :
    ∃ name, program.typeNameWithin? steps ref = some name := by
  fun_induction typeNameWithin? program steps ref generalizing passed with
  | case1 => exact ⟨_, rfl⟩
  | case2 => exact ⟨_, rfl⟩
  | case3 ref a found =>
      have room := (founded.room nodup before found).2
      omega
  | case4 ref a found steps ih =>
      rcases founded.room nodup before found with ⟨fresh, room⟩
      have has : program.HasElement ref a.element := ⟨a, found, rfl⟩
      have inner : ∃ name, program.typeNameWithin? steps a.element = some name := by
        apply ih (founded.element has) (List.nodup_cons.mpr ⟨fresh, nodup⟩)
        · rw [List.length_cons]
          omega
        · intro other mem
          rcases List.mem_cons.mp mem with rfl | mem
          · exact ⟨(Array.getElem?_eq_some_iff.mp found).1, .single has⟩
          · exact ⟨(before other mem).1, (before other mem).2.tail has⟩
      rcases inner with ⟨name, inner⟩
      exact ⟨name ++ "[]", Option.map_eq_some_iff.mpr ⟨name, inner, rfl⟩⟩
  | case5 => exact ⟨_, rfl⟩

theorem founded_iff : program.Founded ref ↔ ∃ name, program.Named ref name := by
  constructor
  · intro founded
    rcases exists_typeNameWithin? founded List.nodup_nil (Nat.add_zero _) nofun with ⟨name, shown⟩
    exact ⟨name, named_of_typeNameWithin? shown⟩
  · intro given
    rcases exists_named_iff.mp given with ⟨last, links, flat⟩
    exact founded_of_links links flat

/-- As many steps as there are types are enough for every name that comes about. -/
theorem typeName?_eq_some_iff : program.typeName? ref = some name ↔ program.Named ref name := by
  constructor
  · exact named_of_typeNameWithin?
  · intro named
    have founded := founded_iff.mpr ⟨name, named⟩
    rcases exists_typeNameWithin? founded List.nodup_nil (Nat.add_zero _) nofun with ⟨name', shown⟩
    rw [typeName?, shown, named.unique (named_of_typeNameWithin? shown)]

theorem isSome_typeName?_iff : (program.typeName? ref).isSome ↔ program.Founded ref := by
  simp only [founded_iff, Option.isSome_iff_exists, typeName?_eq_some_iff]

/-!
## Linked programs
-/

theorem hasElement_iff (linked : image.link = .ok program) {element : TypeRef} :
    program.HasElement ref element ↔ ∃ (i : Nat) (index : Int32), ref = ⟨4 + i⟩ ∧
      image.types[i]? = some (.ofArray index) ∧ element = Image.typePlace index := by
  rcases Image.link_cases linked with ⟨outline, _, outlined, made, _⟩
  rcases Image.outline_cases outlined with ⟨claims, outlines⟩
  constructor
  · intro has
    rcases has with ⟨a, found, rfl⟩
    have late : 4 ≤ ref.index := by
      rcases Outline.typeTable_cases made found with ⟨_, _, same⟩ | ⟨late, _⟩ | ⟨_, _, _, _, same⟩
      · cases same
      · exact late
      · cases same
    have place : ref = ⟨4 + (ref.index - 4)⟩ := by rw [Nat.add_sub_of_le late]
    have inside : ref.index - 4 < image.types.length := by
      have size : program.types.size = 4 + outline.types.length :=
        (Outline.declares_of_typeTable made).size_eq
      have inside := (Array.getElem?_eq_some_iff.mp found).1
      rw [outlines.types_length] at size
      omega
    have at_i := List.getElem?_eq_getElem inside
    generalize image.types[ref.index - 4] = type at at_i
    cases type with
    | ofClass c =>
        rcases class_kept outlines made at_i with ⟨d, isClass, _⟩
        rw [← place, class?_eq_some_iff, found] at isClass
        cases isClass
    | ofArray index =>
        rcases array_kept outlines made at_i with ⟨type, _, isArray⟩
        rw [← place, array?_eq_some_iff, found] at isArray
        cases isArray
        exact ⟨_, index, place, at_i, rfl⟩
  · intro given
    rcases given with ⟨i, index, rfl, at_i, rfl⟩
    rcases array_kept outlines made at_i with ⟨type, _, isArray⟩
    exact ⟨_, array?_eq_some_iff.mp isArray, rfl⟩

theorem element_known (linked : image.link = .ok program) {element : TypeRef}
    (has : program.HasElement ref element) : ∃ type, program.type? element = some type := by
  rcases Image.link_cases linked with ⟨outline, _, outlined, made, _⟩
  rcases Image.outline_cases outlined with ⟨claims, outlines⟩
  rcases (hasElement_iff linked).mp has with ⟨i, index, _, at_i, rfl⟩
  rcases array_kept outlines made at_i with ⟨type, found, _⟩
  exact ⟨type, found⟩

theorem methodName_eq (linked : image.link = .ok program) {ref : MethodRef}
    {method : MethodDescriptor} (known : program.method? ref = some method) {owner : TypeRef}
    (owned : method.owner = some owner) :
    ∃ name, program.typeName? owner = some name ∧
      program.methodName ref = name ++ "." ++ method.name := by
  rcases (owner_eq_some_iff linked known).mp owned with ⟨c, isClass, _⟩
  refine ⟨c.name, typeName?_eq_some_iff.mpr (.ofClass (class?_eq_some_iff.mp isClass)), ?_⟩
  simp [methodName, known, owned, isClass]

def Plain (program : Program) (ref : TypeRef) : Prop :=
  (∃ p, program.type? ref = some (.primitive p)) ∨ ∃ c, program.type? ref = some (.ofClass c)

theorem known_of_links (linked : image.link = .ok program) {type : TypeDescriptor}
    (found : program.type? ref = some type)
    (links : Relation.ReflTransGen program.HasElement ref last) :
    ∃ type, program.type? last = some type := by
  cases links with
  | refl => exact ⟨type, found⟩
  | tail _ has => exact element_known linked has

theorem plain_iff : program.Plain ref ↔
    (∃ type, program.type? ref = some type) ∧ program.array? ref = none := by
  rw [array?, Plain]
  cases program.type? ref with
  | none => simp
  | some type =>
      cases type with
      | primitive p => simp
      | ofClass c => simp
      | ofArray a => simp

/-- A program has the arrays of its image, and every type from which element links end has a
name. -/
structure NamesTypes (image : Image) (program : Program) : Prop where
  elements : ∀ ref element, program.HasElement ref element ↔
    ∃ (i : Nat) (index : Int32), ref = ⟨4 + i⟩ ∧ image.types[i]? = some (.ofArray index) ∧
      element = Image.typePlace index
  /-- Element links from a type of the program end with a class or a built-in type, or not at
  all. -/
  ends : ∀ ref type, program.type? ref = some type →
    (program.Founded ref ↔
      ∃ last, Relation.ReflTransGen program.HasElement ref last ∧ program.Plain last)
  named : ∀ ref, program.Founded ref ↔ ∃ name, program.Named ref name
  shown : ∀ ref name, program.Named ref name → program.typeName? ref = some name
  /-- No number of steps is enough for a name that does not come about. -/
  endless : ∀ ref, ¬ program.Founded ref → ∀ steps, program.typeNameWithin? steps ref = none

theorem link_namesTypes (linked : image.link = .ok program) : NamesTypes image program := by
  refine ⟨fun _ _ => hasElement_iff linked, ?_, fun _ => founded_iff, ?_, ?_⟩
  · intro ref type found
    rw [founded_iff, exists_named_iff]
    refine exists_congr fun last => and_congr_right fun links => ?_
    rw [plain_iff, and_iff_right (known_of_links linked found links)]
  · intro ref name named
    exact typeName?_eq_some_iff.mpr named
  · intro ref unfounded steps
    rw [Option.eq_none_iff_forall_not_mem]
    intro name shown
    exact unfounded (founded_iff.mpr ⟨name, named_of_typeNameWithin? shown⟩)

/-- The array of squares has the name of squares in front of its brackets. -/
theorem link_namesTypes_drawing :
    drawingImage.link = .ok drawingProgram ∧ drawingProgram.typeName? ⟨4⟩ = some "Square[]" ∧
      drawingProgram.Founded ⟨4⟩ ∧ NamesTypes drawingImage drawingProgram := by
  have names := link_namesTypes link_drawingImage
  have shown : drawingProgram.typeName? ⟨4⟩ = some "Square[]" := rfl
  have named := typeName?_eq_some_iff.mp shown
  exact ⟨link_drawingImage, names.shown _ _ named, (names.named _).mpr ⟨_, named⟩, names⟩

end Program

/-- An image with an array of which every element is an array of the same type. It makes such an
array and casts it to a class. -/
def endlessImage : Image where
  types := [.ofArray 0, .ofClass ⟨"Box", none, [], []⟩]
  methods := [⟨"Main", none, [], [], [⟨.ldcI4, .int 1⟩, ⟨.newarr, .type 0⟩, ⟨.castclass, .type 1⟩,
    ⟨.pop, .none⟩, ⟨.ret, .none⟩]⟩]
  main := 0

def endlessProgram : Program :=
  endlessImage.link.toOption.getD default

theorem link_endlessImage : endlessImage.link = .ok endlessProgram :=
  Except.eq_ok_getD rfl

namespace Program

theorem not_founded_endlessProgram : ¬ endlessProgram.Founded ⟨4⟩ := by
  have has : endlessProgram.HasElement ⟨4⟩ ⟨4⟩ :=
    (hasElement_iff link_endlessImage).mpr ⟨0, 0, rfl, rfl, rfl⟩
  intro founded
  exact founded ⟨4⟩ .refl (.single has)

/-- From the array, element links lead to the array again and nowhere else. -/
theorem not_ends_endlessProgram :
    endlessImage.link = .ok endlessProgram ∧ (∃ type, endlessProgram.type? ⟨4⟩ = some type) ∧
      ¬ ∃ last, Relation.ReflTransGen endlessProgram.HasElement ⟨4⟩ last ∧
        endlessProgram.Plain last := by
  refine ⟨link_endlessImage, ⟨_, rfl⟩, ?_⟩
  intro given
  rcases given with ⟨last, links, plain⟩
  exact not_founded_endlessProgram (founded_of_links links (plain_iff.mp plain).2)

end Program
end ObjectMachine
