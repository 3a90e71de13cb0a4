import ObjectMachine.Proofs.Lineages

/-!
# Where virtual calls lead

A name on an instance of a class leads to the nearest method of that name: the classes are gone
through from the class itself upwards, and of the first list that has a method of the name the last
one counts. No two classes list the same method, so the class that lists it is the class that it
belongs to, and the instance descends from that class.
-/

namespace ObjectMachine

/-!
## One class for a method
-/

namespace Image

variable {image : Image}

def Claims.Single (claims : Claims) : Prop :=
  ∀ method first second, (method, first) ∈ claims → (method, second) ∈ claims → first = second

theorem Claims.Single.cons {claims : Claims} (single : Single claims) {method : MethodRef}
    (free : ¬ (claims.lookup method).isSome) (owner : TypeRef) :
    Single ((method, owner) :: claims) := by
  rw [isSome_lookup_iff] at free
  intro method' first second mem mem'
  rcases List.mem_cons.mp mem with same | mem
  · rcases List.mem_cons.mp mem' with same' | mem'
    · cases same
      cases same'
      rfl
    · cases same
      exact absurd ⟨second, mem'⟩ free
  · rcases List.mem_cons.mp mem' with same' | mem'
    · cases same'
      exact absurd ⟨first, mem⟩ free
    · exact single method' first second mem mem'

theorem Claims.Single.claimMethods {claims claims' : Claims} (single : Single claims)
    {className : String} {this : TypeRef} {indices : List Int32} {methods : List MethodRef}
    (claimed : image.claimMethods className this indices claims = .ok (methods, claims')) :
    Single claims' := by
  induction indices generalizing claims methods with
  | nil =>
      cases claimed
      exact single
  | cons index rest ih =>
      rcases Except.bind_eq_ok_iff.mp claimed with ⟨method, _, claimed⟩
      split at claimed
      · cases claimed
      · split at claimed
        · cases claimed
        · next free =>
            rcases Except.bind_eq_ok_iff.mp claimed with ⟨⟨later, last⟩, second, same⟩
            cases same
            exact ih (single.cons free this) second

theorem Claims.Single.outlineTypes {claims claims' : Claims} (single : Single claims) {place : Nat}
    {types : List TypeDef} {outlines : List TypeOutline}
    (outlined : image.outlineTypes place types claims = .ok (outlines, claims')) :
    Single claims' := by
  induction types generalizing place claims outlines with
  | nil =>
      cases outlined
      exact single
  | cons type rest ih =>
      rcases Except.bind_eq_ok_iff.mp outlined with ⟨⟨first, middle⟩, here, outlined⟩
      rcases Except.bind_eq_ok_iff.mp outlined with ⟨⟨later, last⟩, second, same⟩
      cases same
      refine ih ?_ second
      cases type with
      | ofClass c =>
          rcases Except.bind_eq_ok_iff.mp here with ⟨base, _, here⟩
          rcases Except.bind_eq_ok_iff.mp here with ⟨ownFields, _, here⟩
          rcases Except.bind_eq_ok_iff.mp here with ⟨⟨methods, claims''⟩, claimed, same⟩
          cases same
          exact single.claimMethods claimed
      | ofArray element =>
          rcases Except.bind_eq_ok_iff.mp here with ⟨ref, _, same⟩
          cases same
          exact single

theorem class_unique {outline : Outline} (outlined : image.outline = .ok outline)
    {first second : TypeRef} {o o' : ClassOutline} {method : MethodRef}
    (known : outline.class? first = some o) (listed : method ∈ o.methods)
    (known' : outline.class? second = some o') (listed' : method ∈ o'.methods) :
    first = second := by
  rcases Except.bind_eq_ok_iff.mp outlined with ⟨⟨types, claims⟩, typed, outlined⟩
  rcases Except.bind_eq_ok_iff.mp outlined with ⟨methods, _, same⟩
  cases same
  rcases outlineTypes_cases typed with ⟨_, _, claims_iff⟩
  have single : Claims.Single claims := by
    have none : Claims.Single [] := nofun
    exact none.outlineTypes typed
  have claimed : ∀ {owner : TypeRef} {o : ClassOutline},
      Outline.class? ⟨types, methods⟩ owner = some o → method ∈ o.methods →
      (method, owner) ∈ claims := by
    intro owner o known listed
    rcases Outline.class?_eq_some_iff.mp known with ⟨i, at_i, rfl⟩
    exact (claims_iff _ _).mpr (Or.inl ⟨i, o, at_i, rfl, listed⟩)
  exact single method first second (claimed known listed) (claimed known' listed')

end Image

theorem Image.Outlines.declared_of_listed {image : Image} {outline : Outline} {claims : Claims}
    (outlines : Image.Outlines image outline claims) (outlined : image.outline = .ok outline)
    {owner : TypeRef} {o : ClassOutline} (known : outline.class? owner = some o) {ref : MethodRef}
    (listed : ref ∈ o.methods) :
    ∃ i method, ref = ⟨builtinCount + i⟩ ∧ outline.methods[i]? = some method := by
  have late := outline_eq_ok outlined known ref listed
  rcases outlines.class_of_class? known with ⟨c, _, same⟩
  cases same with
  | ofClass _ _ resolved =>
      rcases (Except.mem_iff_of_mapM resolved).mp listed with ⟨index, _, resolved⟩
      have place := placeOf?_eq_some_iff.mp (methodRef_eq_ok_iff.mp resolved)
      have inside : ref.index - builtinCount < outline.methods.length := by
        rw [outlines.methods_length]
        omega
      refine ⟨ref.index - builtinCount, _, ?_, List.getElem?_eq_getElem inside⟩
      rw [Nat.add_sub_of_le late]

/-!
## Methods of a name
-/

theorem findSome?_congr {α β : Type} {f g : α → Option β} {l : List α}
    (same : ∀ a ∈ l, f a = g a) : l.findSome? f = l.findSome? g := by
  induction l with
  | nil => rfl
  | cons a rest ih =>
      rw [List.findSome?_cons, List.findSome?_cons, same a List.mem_cons_self,
        ih fun b mem => same b (List.mem_cons_of_mem _ mem)]

namespace Program

variable {image : Image} {program : Program}

/-- A class lists the methods that belong to it, and no others. -/
theorem owner_eq_some_iff (linked : image.link = .ok program) {ref : MethodRef}
    {method : MethodDescriptor} (known : program.method? ref = some method) {owner : TypeRef} :
    method.owner = some owner ↔ ∃ c, program.class? owner = some c ∧ ref ∈ c.methods := by
  rcases Image.link_cases linked with ⟨outline, methods, outlined, made, coded, table⟩
  rcases Image.outline_cases outlined with ⟨claims, outlines⟩
  constructor
  · intro owned
    rcases method_cases table known with ⟨_, builtin, rfl⟩ | ⟨late, at_i⟩
    · cases owned
    · rcases Image.getElem?_linkMethods coded at_i with ⟨_, _, _, _, _, at_i', rfl, _, _⟩
      rw [List.getElem?_zip_eq_some] at at_i'
      rcases outlines.listed_by_owner at_i'.1 owned with ⟨o, known', listed⟩
      rw [Nat.add_sub_of_le late] at listed
      rcases class?_of_outline made known' with ⟨chain, _, found⟩
      exact ⟨_, found, listed⟩
  · intro lists
    rcases lists with ⟨c, found, listed⟩
    rcases class_cases made found with ⟨o, chain, known', _, rfl⟩
    rcases outlines.declared_of_listed outlined known' listed with ⟨i, method', rfl, at_i⟩
    rcases method?_of_outline outlines coded table at_i with ⟨_, code, _, _, _, found', _, _⟩
    rw [known] at found'
    cases found'
    have owned : method'.owner.isSome := (outlines.owner_iff at_i).mpr ⟨owner, o, known', listed⟩
    rcases Option.isSome_iff_exists.mp owned with ⟨owner', owned⟩
    rcases outlines.listed_by_owner at_i owned with ⟨o', known'', listed'⟩
    rw [Image.class_unique outlined known' listed known'' listed']
    exact owned

def lastNamed? (program : Program) (name : String) (ref : TypeRef) : Option MethodRef :=
  (program.class? ref).bind fun c =>
    (c.methods.filter fun method => (program.method? method).any (·.name == name)).getLast?

theorem lastNamed?_eq_some {name : String} {ref : TypeRef} {target : MethodRef}
    (last : program.lastNamed? name ref = some target) :
    ∃ c called, program.class? ref = some c ∧ target ∈ c.methods ∧
      program.method? target = some called ∧ called.name = name := by
  rcases Option.bind_eq_some_iff.mp last with ⟨c, found, last⟩
  rcases List.mem_filter.mp (List.mem_of_getLast? last) with ⟨listed, named⟩
  rcases Option.any_eq_true _ _ |>.mp named with ⟨called, known, named⟩
  exact ⟨c, called, found, listed, known, eq_of_beq named⟩

theorem isSome_lastNamed? {ref : TypeRef} {c : ClassDescriptor} {target : MethodRef}
    {called : MethodDescriptor} (found : program.class? ref = some c)
    (listed : target ∈ c.methods) (known : program.method? target = some called) :
    (program.lastNamed? called.name ref).isSome := by
  rw [lastNamed?, found, Option.bind_some, List.getLast?_isSome]
  exact List.ne_nil_of_mem (List.mem_filter.mpr ⟨listed, by simp [known]⟩)

theorem lastNamed?_eq {outline : Outline} {claims : Claims} {methods : List MethodDescriptor}
    {strings : StringTable} (outlines : Image.Outlines image outline claims)
    (outlined : image.outline = .ok outline) (made : outline.typeTable = .ok program.types)
    (coded : image.linkMethods program.types (outline.methods.zip image.methods) .empty =
      .ok (methods, strings))
    (table : program.methods = (Builtin.all.map Builtin.descriptor ++ methods).toArray)
    {ref : TypeRef} {o : ClassOutline} (known : outline.class? ref = some o) (name : String) :
    program.lastNamed? name ref = outline.lastNamed? name o := by
  rcases class?_of_outline made known with ⟨chain, _, found⟩
  rw [lastNamed?, found, Option.bind_some, Outline.lastNamed?]
  refine congrArg List.getLast? (List.filter_congr ?_)
  intro method listed
  rcases outlines.declared_of_listed outlined known listed with ⟨i, method', rfl, at_i⟩
  rcases method?_of_outline outlines coded table at_i with ⟨_, code, _, _, _, found', _, _⟩
  simp [found', Outline.methodName, at_i, MethodOutline.descriptor]

/-- A name leads to the last method of that name in the first list that has one, from the class
itself upwards. -/
theorem resolveVirtual?_eq (linked : image.link = .ok program) (ref : TypeRef) (name : String) :
    program.resolveVirtual? ref name =
      (program.chain ref).findSome? (program.lastNamed? name) := by
  rcases Image.link_cases linked with ⟨outline, methods, outlined, made, coded, table⟩
  rcases Image.outline_cases outlined with ⟨claims, outlines⟩
  cases found : program.class? ref with
  | none =>
      have alone : program.chain ref = [ref] := by
        have lineage := lineage_chain linked ref
        generalize program.chain ref = line at lineage
        cases lineage with
        | top _ => rfl
        | link has _ =>
            rw [base?, found] at has
            cases has
      simp [alone, resolveVirtual?, lastNamed?, found]
  | some c =>
      rcases class_cases made found with ⟨o, chain, known, chained, rfl⟩
      have same : ∀ entry ∈ chain,
          outline.lastNamed? name entry.2 = (program.lastNamed? name ∘ Prod.fst) entry := by
        intro entry mem
        have known' := chained.classes mem
        exact (lastNamed?_eq outlines outlined made coded table known' name).symm
      rw [(lineage_of_chain outlines made known chained).2, List.findSome?_map, resolveVirtual?,
        found, Option.bind_some]
      exact (outline.lookup_layoutOf chain name).trans (findSome?_congr same)

theorem dispatched (linked : image.link = .ok program) {actual : TypeRef} {name : String}
    {target : MethodRef} {called : MethodDescriptor}
    (resolved : program.resolveVirtual? actual name = some target)
    (known : program.method? target = some called) :
    ∃ owner, called.owner = some owner ∧ program.isSubclass actual owner = true := by
  rw [resolveVirtual?_eq linked] at resolved
  rcases List.exists_of_findSome?_eq_some resolved with ⟨owner, above, last⟩
  rcases lastNamed?_eq_some last with ⟨c, _, found, listed, _, _⟩
  exact ⟨owner, (owner_eq_some_iff linked known).mpr ⟨c, found, listed⟩,
    List.contains_iff_mem.mpr above⟩

/-!
## The nearest method
-/

/-- Names lead to the nearest methods: on a line of classes, the first class that lists anything of
a name counts, and of its list the last method of that name. -/
structure DispatchesNearest (program : Program) : Prop where
  nearest : ∀ ref, ∃ line, program.Lineage ref line ∧
    ∀ name, program.resolveVirtual? ref name = line.findSome? (program.lastNamed? name)
  /-- What replaces a method of a class comes from that class or from below. -/
  replaced : ∀ ref method owner actual, program.method? ref = some method →
    method.owner = some owner → program.isSubclass actual owner = true →
    ∃ below above target called type, program.Lineage actual (below ++ owner :: above) ∧
      program.resolveVirtual? actual method.name = some target ∧
      program.method? target = some called ∧ called.name = method.name ∧
      called.owner = some type ∧ type ∈ below ++ [owner]

theorem link_dispatchesNearest (linked : image.link = .ok program) :
    program.DispatchesNearest := by
  constructor
  · intro ref
    exact ⟨_, lineage_chain linked ref, resolveVirtual?_eq linked ref⟩
  · intro ref method owner actual known owned descends
    rcases (owner_eq_some_iff linked known).mp owned with ⟨c, found, listed⟩
    rcases List.append_of_mem (List.contains_iff_mem.mp descends) with ⟨below, above, line⟩
    -- The owner has a method of the name, so nothing above it is looked at.
    have near : ((below ++ [owner]).findSome? (program.lastNamed? method.name)).isSome :=
      List.findSome?_isSome_iff.mpr
        ⟨owner, List.mem_append_right _ (List.mem_singleton_self _),
          isSome_lastNamed? found listed known⟩
    have resolved : program.resolveVirtual? actual method.name =
        (below ++ [owner]).findSome? (program.lastNamed? method.name) := by
      rw [resolveVirtual?_eq linked, line, List.append_cons, List.findSome?_append,
        Option.or_of_isSome near]
    rcases Option.isSome_iff_exists.mp near with ⟨target, entered⟩
    rcases List.exists_of_findSome?_eq_some entered with ⟨type, mem, last⟩
    rcases lastNamed?_eq_some last with ⟨c', called, found', listed', known', named⟩
    have lineage := lineage_chain linked actual
    rw [line] at lineage
    exact ⟨below, above, target, called, type, lineage, resolved.trans entered, known', named,
      (owner_eq_some_iff linked known').mpr ⟨c', found', listed'⟩, mem⟩

end Program

/-- An image with a class that is declared before its base, and methods that share a name. -/
def drawingImage : Image where
  types := [.ofArray 1, .ofClass ⟨"Square", some 2, [-3, -1], [3, 4]⟩,
    .ofClass ⟨"Shape", none, [-4, 0], [0, 1, 2]⟩]
  methods := [
    ⟨"draw", none, [], [], [⟨.ldstr, .str "shape"⟩, ⟨.pop, .none⟩, ⟨.ret, .none⟩]⟩,
    ⟨"label", some (-4), [], [], [⟨.ldthis, .none⟩, ⟨.ldfld, .field 2 0⟩, ⟨.ret, .none⟩]⟩,
    ⟨"draw", none, [], [], [⟨.ldstr, .str ""⟩, ⟨.pop, .none⟩, ⟨.ret, .none⟩]⟩,
    ⟨"draw", none, [], [], [⟨.ldstr, .str "square"⟩, ⟨.pop, .none⟩, ⟨.ret, .none⟩]⟩,
    ⟨"draw", none, [], [0], [⟨.ldthis, .none⟩, ⟨.ldfld, .field 1 3⟩, ⟨.brtrue, .branch 2⟩,
      ⟨.ldstr, .str "shape"⟩, ⟨.pop, .none⟩, ⟨.ret, .none⟩]⟩,
    ⟨"Main", none, [], [], [⟨.newobj, .type 1⟩, ⟨.callvirt, .method 0⟩, ⟨.ret, .none⟩]⟩]
  main := 5

def drawingProgram : Program :=
  drawingImage.link.toOption.getD default

theorem link_drawingImage : drawingImage.link = .ok drawingProgram :=
  Except.eq_ok_getD (by decide +kernel)

/-- A square is drawn by the last of its own methods and labelled by the method of shapes. -/
theorem link_dispatchesNearest_drawing :
    drawingImage.link = .ok drawingProgram ∧ drawingProgram.isSubclass ⟨5⟩ ⟨6⟩ = true ∧
      drawingProgram.resolveVirtual? ⟨6⟩ "draw" = some ⟨9⟩ ∧
      drawingProgram.resolveVirtual? ⟨5⟩ "draw" = some ⟨11⟩ ∧
      drawingProgram.resolveVirtual? ⟨5⟩ "label" = some ⟨8⟩ ∧
      drawingProgram.DispatchesNearest :=
  ⟨link_drawingImage, by decide +kernel, by decide +kernel, by decide +kernel, by decide +kernel,
    Program.link_dispatchesNearest link_drawingImage⟩

end ObjectMachine
