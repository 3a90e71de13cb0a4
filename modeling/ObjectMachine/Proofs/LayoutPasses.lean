import ObjectMachine.Proofs.Chains
import ObjectMachine.Proofs.Outcomes

/-!
# Passes that make layouts

While layouts are made, the classes that have one are those that are recorded. What is above such a
class has its layout too, and its layout is the one that its chain gives. A class gets its layout
when its base has one, so this stays true, in whatever order the classes are declared.

The way up from a class marks what it passes. It meets a class that it has marked only if a class
descends from itself, so the work comes to its end exactly if every class has a chain.
-/

namespace ObjectMachine

/-!
## Types without layouts
-/

def TypeDescriptor.bare : TypeDescriptor → TypeDescriptor
  | .primitive p => .primitive p
  | .ofClass c => .ofClass (c.outline.describe .empty)
  | .ofArray a => .ofArray a

namespace Outline

variable {outline : Outline}

theorem getElem?_shells_of_primitive {i : Nat} {p : Primitive}
    (at_i : Primitive.all[i]? = some p) : outline.shells[i]? = some (.primitive p) := by
  have inside : i < (Primitive.all.map TypeDescriptor.primitive).length := by
    rw [List.length_map]
    exact (List.getElem?_eq_some_iff.mp at_i).1
  rw [shells, List.getElem?_append_left inside, List.getElem?_map, at_i]
  rfl

theorem getElem?_shells_add (place : Nat) :
    outline.shells[Image.primitiveCount + place]? =
      (outline.types[place]?).map TypeOutline.shell := by
  have count : (Primitive.all.map TypeDescriptor.primitive).length = Image.primitiveCount := rfl
  rw [shells, List.getElem?_append_right (by omega), count, Nat.add_sub_cancel_left,
    List.getElem?_map]

theorem getElem?_shells_cases {i : Nat} {type : TypeDescriptor}
    (at_i : outline.shells[i]? = some type) :
    (∃ p, Primitive.all[i]? = some p ∧ type = .primitive p) ∨
    ∃ place declared, i = Image.primitiveCount + place ∧ outline.types[place]? = some declared ∧
      type = declared.shell := by
  by_cases front : i < Image.primitiveCount
  · have at_p := List.getElem?_eq_getElem (show i < Primitive.all.length from front)
    rw [getElem?_shells_of_primitive at_p] at at_i
    cases at_i
    exact Or.inl ⟨_, at_p, rfl⟩
  · have place : Image.primitiveCount + (i - Image.primitiveCount) = i :=
      Nat.add_sub_of_le (Nat.le_of_not_lt front)
    rw [← place, getElem?_shells_add] at at_i
    rcases Option.map_eq_some_iff.mp at_i with ⟨declared, at_place, rfl⟩
    exact Or.inr ⟨_, declared, place.symm, at_place, rfl⟩

/-- Types that are those of an outline, whatever layouts their classes have. -/
def Declares (outline : Outline) (types : Array TypeDescriptor) : Prop :=
  types.toList.map TypeDescriptor.bare = outline.shells

variable {types : Array TypeDescriptor}

namespace Declares

theorem size_eq (declares : outline.Declares types) :
    types.size = Image.primitiveCount + outline.types.length := by
  have length := congrArg List.length declares
  rw [List.length_map, Array.length_toList, shells, List.length_append, List.length_map,
    List.length_map] at length
  exact length

theorem getElem?_eq (declares : outline.Declares types) (i : Nat) :
    (types[i]?).map TypeDescriptor.bare = outline.shells[i]? := by
  rw [← Array.getElem?_toList, ← List.getElem?_map, declares]

theorem cases (declares : outline.Declares types) {ref : TypeRef} {type : TypeDescriptor}
    (found : types[ref.index]? = some type) :
    (∃ p, Primitive.all[ref.index]? = some p ∧ type = .primitive p) ∨
    (Image.primitiveCount ≤ ref.index ∧ ∃ element, type = .ofArray ⟨element, element.kind⟩) ∨
    ∃ c, type = .ofClass c ∧ outline.class? ref = some c.outline := by
  have same := declares.getElem?_eq ref.index
  rw [found] at same
  rcases getElem?_shells_cases same.symm with
    ⟨p, at_p, bare⟩ | ⟨place, declared, late, at_place, bare⟩
  · cases type with
    | primitive p' =>
        cases bare
        exact Or.inl ⟨_, at_p, rfl⟩
    | _ => cases bare
  · cases declared with
    | ofArray element =>
        cases type with
        | ofArray a =>
            cases bare
            exact Or.inr (Or.inl ⟨late ▸ Nat.le_add_right _ _, element, rfl⟩)
        | _ => cases bare
    | ofClass o =>
        cases type with
        | ofClass c =>
            have same : c.outline = o :=
              congrArg ClassDescriptor.outline (TypeDescriptor.ofClass.inj bare)
            refine Or.inr (Or.inr ⟨c, rfl, class?_eq_some_iff.mpr ⟨place, ?_, ?_⟩⟩)
            · rw [same, at_place]
            · cases ref
              exact congrArg TypeRef.mk late
        | _ => cases bare

theorem primitive (declares : outline.Declares types) {i : Nat} {p : Primitive}
    (at_i : Primitive.all[i]? = some p) : types[i]? = some (.primitive p) := by
  have same := declares.getElem?_eq i
  rw [getElem?_shells_of_primitive at_i] at same
  rcases Option.map_eq_some_iff.mp same with ⟨type, found, bare⟩
  cases type with
  | primitive p' =>
      cases bare
      exact found
  | _ => cases bare

theorem array (declares : outline.Declares types) {i : Nat} {element : TypeRef}
    (at_i : outline.types[i]? = some (.ofArray element)) :
    types[Image.primitiveCount + i]? = some (.ofArray ⟨element, element.kind⟩) := by
  have same := declares.getElem?_eq (Image.primitiveCount + i)
  rw [getElem?_shells_add, at_i] at same
  rcases Option.map_eq_some_iff.mp same with ⟨type, found, bare⟩
  cases type with
  | ofArray a =>
      cases bare
      exact found
  | _ => cases bare

theorem class_of_class? (declares : outline.Declares types) {ref : TypeRef} {o : ClassOutline}
    (known : outline.class? ref = some o) :
    ∃ c, types[ref.index]? = some (.ofClass c) ∧ c.outline = o := by
  rcases class?_eq_some_iff.mp known with ⟨i, at_i, rfl⟩
  have same := declares.getElem?_eq (Image.primitiveCount + i)
  rw [getElem?_shells_add, at_i] at same
  rcases Option.map_eq_some_iff.mp same with ⟨type, found, bare⟩
  cases type with
  | ofClass c =>
      exact ⟨c, found, congrArg ClassDescriptor.outline (TypeDescriptor.ofClass.inj bare)⟩
  | _ => cases bare

theorem setClass (declares : outline.Declares types) {ref : TypeRef} {o : ClassOutline}
    (known : outline.class? ref = some o) (layout : Layout) :
    outline.Declares (types.setIfInBounds ref.index (.ofClass (o.describe layout))) := by
  rcases declares.class_of_class? known with ⟨c, found, rfl⟩
  have inside := (Array.getElem?_eq_some_iff.mp found).1
  refine List.ext_getElem? fun i => ?_
  rw [List.getElem?_map, Array.getElem?_toList, Array.getElem?_setIfInBounds,
    ← declares.getElem?_eq i]
  by_cases here : ref.index = i
  · subst here
    rw [if_pos rfl, if_pos inside, found]
    rfl
  · rw [if_neg here]

end Declares

end Outline

namespace LayoutPass

variable {outline : Outline} {pass after : LayoutPass} {ref other : TypeRef}

theorem class?_eq_some_iff {c : ClassDescriptor} :
    pass.class? ref = some c ↔ pass.types[ref.index]? = some (.ofClass c) := by
  unfold class?
  cases found : pass.types[ref.index]? with
  | none => simp
  | some type => cases type <;> simp

theorem outline_of_class? (declares : outline.Declares pass.types) {c : ClassDescriptor}
    (known : pass.class? ref = some c) : outline.class? ref = some c.outline := by
  rcases declares.cases (class?_eq_some_iff.mp known) with
    ⟨_, _, same⟩ | ⟨_, _, same⟩ | ⟨_, same, found⟩
  · cases same
  · cases same
  · cases same
    exact found

theorem class?_of_outline (declares : outline.Declares pass.types) {o : ClassOutline}
    (known : outline.class? ref = some o) : ∃ c, pass.class? ref = some c ∧ c.outline = o := by
  rcases declares.class_of_class? known with ⟨c, found, same⟩
  exact ⟨c, class?_eq_some_iff.mpr found, same⟩

theorem class?_eq_none_iff (declares : outline.Declares pass.types) :
    pass.class? ref = none ↔ outline.class? ref = none := by
  constructor
  · intro none
    cases known : outline.class? ref with
    | none => rfl
    | some o =>
        rcases class?_of_outline declares known with ⟨c, found, _⟩
        rw [none] at found
        cases found
  · intro outside
    cases known : pass.class? ref with
    | none => rfl
    | some c =>
        rw [outline_of_class? declares known] at outside
        cases outside

theorem getElem?_set {α : Type} {xs : Array α} (inside : ref.index < xs.size) (x : α)
    (other : TypeRef) : (xs.setIfInBounds ref.index x)[other.index]? =
      if other = ref then some x else xs[other.index]? := by
  rw [Array.getElem?_setIfInBounds]
  by_cases here : other = ref
  · subst here
    rw [if_pos rfl, if_pos rfl, if_pos inside]
  · have apart : ref.index ≠ other.index := fun same => here (congrArg TypeRef.mk same).symm
    rw [if_neg here, if_neg apart]

theorem stateOf_set {states : Array LayoutState} {state : LayoutState}
    (same : after.states = states.setIfInBounds ref.index state) (inside : ref.index < states.size)
    (other : TypeRef) : after.stateOf other =
      if other = ref then state else (states[other.index]?).getD .pending := by
  rw [stateOf, same, getElem?_set inside]
  split <;> rfl

theorem class?_set {c : ClassDescriptor}
    (same : after.types = pass.types.setIfInBounds ref.index (.ofClass c))
    (inside : ref.index < pass.types.size) (other : TypeRef) :
    after.class? other = if other = ref then some c else pass.class? other := by
  rw [class?, class?, same, getElem?_set inside]
  by_cases here : other = ref
  · simp only [if_pos here]
  · simp only [if_neg here]

/-!
## Passes
-/

/-- What is true of a pass, whatever it has made so far. -/
structure Follows (outline : Outline) (pass : LayoutPass) : Prop where
  declares : outline.Declares pass.types
  states : pass.states.size = pass.types.size
  /-- The classes that have their layouts are recorded, each once, and none in front of its base. -/
  recorded : ∀ ref c, (ref, c) ∈ pass.made ↔ pass.stateOf ref = .done ∧ pass.class? ref = some c
  once : (pass.made.map Prod.fst).Nodup
  ordered : pass.made.Pairwise fun early late => early.2.base ≠ some late.1
  /-- They have the layouts of their chains, and so has what is above them. -/
  laid : ∀ ref c, pass.stateOf ref = .done → pass.class? ref = some c →
    ∃ chain, outline.Chained ref chain ∧ c = outline.describeClass c.outline chain ∧
      ∀ entry ∈ chain, pass.stateOf entry.1 = .done

namespace Follows

theorem inside (follows : Follows outline pass) {o : ClassOutline}
    (known : outline.class? ref = some o) : ref.index < pass.states.size := by
  rcases follows.declares.class_of_class? known with ⟨c, found, _⟩
  rw [follows.states]
  exact (Array.getElem?_eq_some_iff.mp found).1

theorem baseLayout_eq (follows : Follows outline pass) {o : ClassOutline} {c : ClassDescriptor}
    (known : outline.class? ref = some o) (same : c.outline = o)
    (ready : ∀ base, o.base = some base →
      outline.class? base = none ∨ pass.stateOf base = .done) :
    ∃ above, outline.Chained ref ((ref, o) :: above) ∧
      pass.baseLayout c = outline.layoutOf above ∧
      ∀ entry ∈ above, pass.stateOf entry.1 = .done := by
  subst same
  cases has : c.base with
  | none =>
      refine ⟨[], .top known has, ?_, nofun⟩
      rw [baseLayout, has]
      rfl
  | some base =>
      cases isClass : pass.class? base with
      | none =>
          have outside := (class?_eq_none_iff follows.declares).mp isClass
          refine ⟨[], .link known has (.outside outside), ?_, nofun⟩
          rw [baseLayout, has, Option.bind_some, isClass]
          rfl
      | some b =>
          have isDone : pass.stateOf base = .done := by
            rcases ready base has with outside | isDone
            · rw [outline_of_class? follows.declares isClass] at outside
              cases outside
            · exact isDone
          rcases follows.laid base b isDone isClass with ⟨above, chained, described, allDone⟩
          refine ⟨above, .link known has chained, ?_, allDone⟩
          rw [baseLayout, has, Option.bind_some, isClass, described]
          rfl

theorem base_done (follows : Follows outline pass) {c : ClassDescriptor}
    (isDone : pass.stateOf ref = .done) (found : pass.class? ref = some c) {base : TypeRef}
    (has : c.base = some base) {o : ClassOutline} (known : outline.class? base = some o) :
    pass.stateOf base = .done := by
  rcases follows.laid ref c isDone found with ⟨chain, chained, _, allDone⟩
  rcases chained.eq_cons (outline_of_class? follows.declares found) has with ⟨above, upper, rfl⟩
  rcases upper.head known with ⟨rest, rfl⟩
  exact allDone _ (List.mem_cons_of_mem _ List.mem_cons_self)

/-- A class that has no layout yet, but whose base has, gets its layout. -/
theorem next (follows : Follows outline pass) {o : ClassOutline}
    (known : outline.class? ref = some o) (fresh : pass.stateOf ref ≠ .done)
    {above : List (TypeRef × ClassOutline)} (chained : outline.Chained ref ((ref, o) :: above))
    (allDone : ∀ entry ∈ above, pass.stateOf entry.1 = .done) {c : ClassDescriptor}
    (described : c = outline.describeClass o ((ref, o) :: above))
    (types : after.types = pass.types.setIfInBounds ref.index (.ofClass c))
    (states : after.states = pass.states.setIfInBounds ref.index .done)
    (made : after.made = pass.made ++ [(ref, c)]) : Follows outline after := by
  have inside := follows.inside known
  have stateOf : ∀ other, after.stateOf other =
      if other = ref then .done else pass.stateOf other := stateOf_set states inside
  have class? : ∀ other, after.class? other = if other = ref then some c else pass.class? other :=
    class?_set types (follows.states ▸ inside)
  have stays : ∀ {other}, pass.stateOf other = .done → other ≠ ref := by
    intro other isDone same
    rw [same] at isDone
    exact fresh isDone
  constructor
  case declares =>
    rw [types, described]
    exact follows.declares.setClass known _
  case states =>
    rw [states, types, Array.size_setIfInBounds, Array.size_setIfInBounds, follows.states]
  case recorded =>
    intro other d
    rw [made, List.mem_append, List.mem_singleton, follows.recorded, stateOf, class?]
    by_cases here : other = ref
    · subst here
      simp [fresh, eq_comm]
    · simp [here]
  case once =>
    rw [made, List.map_append, List.map_singleton, List.nodup_append]
    refine ⟨follows.once, List.nodup_singleton _, ?_⟩
    intro other mem last mem' same
    rcases List.mem_map.mp mem with ⟨⟨_, d⟩, recorded, rfl⟩
    exact stays ((follows.recorded _ d).mp recorded).1 (same.trans (List.mem_singleton.mp mem'))
  case ordered =>
    rw [made, List.pairwise_append]
    refine ⟨follows.ordered, List.pairwise_singleton _ _, ?_⟩
    intro early mem late mem' has
    rw [List.mem_singleton.mp mem'] at has
    rcases (follows.recorded _ _).mp mem with ⟨isDone, found⟩
    exact fresh (follows.base_done isDone found has known)
  case laid =>
    intro other d isDone found
    rw [stateOf] at isDone
    rw [class?] at found
    by_cases here : other = ref
    · subst here
      rw [if_pos rfl] at found
      cases found
      refine ⟨_, chained, by rw [described]; rfl, ?_⟩
      intro entry mem
      rw [stateOf]
      rcases List.mem_cons.mp mem with rfl | mem
      · exact if_pos rfl
      · rw [if_neg (stays (allDone entry mem))]
        exact allDone entry mem
    · rw [if_neg here] at isDone found
      rcases follows.laid other d isDone found with ⟨chain, chained', described', allDone'⟩
      refine ⟨chain, chained', described', ?_⟩
      intro entry mem
      rw [stateOf, if_neg (stays (allDone' entry mem))]
      exact allDone' entry mem

theorem layOut (follows : Follows outline pass) {o : ClassOutline}
    (known : outline.class? ref = some o) (fresh : pass.stateOf ref ≠ .done)
    (ready : ∀ base, o.base = some base →
      outline.class? base = none ∨ pass.stateOf base = .done) :
    Follows outline (pass.layOut outline.methodName ref) ∧
      ∀ other, (pass.layOut outline.methodName ref).stateOf other =
        if other = ref then .done else pass.stateOf other := by
  rcases class?_of_outline follows.declares known with ⟨c, found, same⟩
  rcases follows.baseLayout_eq known same ready with ⟨above, chained, layout, allDone⟩
  unfold LayoutPass.layOut
  rw [found]
  refine ⟨follows.next known fresh chained allDone ?_ rfl rfl rfl,
    stateOf_set rfl (follows.inside known)⟩
  rw [same, layout]
  rfl

end Follows

/-!
## The way up
-/

/-- The classes from one up to the first that has its layout. -/
inductive Climbs (outline : Outline) (pass : LayoutPass) :
    Option TypeRef → List TypeRef → Prop where
  | top : Climbs outline pass none []
  | outside {ref : TypeRef} : outline.class? ref = none → Climbs outline pass (some ref) []
  | made {ref : TypeRef} : pass.stateOf ref = .done → Climbs outline pass (some ref) []
  | link {ref : TypeRef} {o : ClassOutline} {above : List TypeRef} :
      outline.class? ref = some o → pass.stateOf ref ≠ .done → Climbs outline pass o.base above →
      Climbs outline pass (some ref) (ref :: above)

theorem Climbs.congr {start : Option TypeRef} {chain : List TypeRef}
    (climbs : Climbs outline after start chain)
    (same : ∀ ref, after.stateOf ref = .done ↔ pass.stateOf ref = .done) :
    Climbs outline pass start chain := by
  induction climbs with
  | top => exact .top
  | outside outside => exact .outside outside
  | made isDone => exact .made ((same _).mp isDone)
  | link known fresh _ ih => exact .link known (fun isDone => fresh ((same _).mpr isDone)) ih

/-- Classes have been marked, and nothing else has happened. -/
structure Marks (chain : List TypeRef) (pass after : LayoutPass) : Prop where
  types : after.types = pass.types
  made : after.made = pass.made
  size : after.states.size = pass.states.size
  pending : ∀ ref ∈ chain, pass.stateOf ref = .pending
  states : ∀ ref, after.stateOf ref = if ref ∈ chain then .visiting else pass.stateOf ref

theorem marks_nil (pass : LayoutPass) : Marks [] pass pass :=
  ⟨rfl, rfl, rfl, nofun, fun _ => rfl⟩

theorem marks_visit (inside : ref.index < pass.states.size)
    (pending : pass.stateOf ref = .pending) : Marks [ref] pass (pass.visit ref) := by
  refine ⟨rfl, rfl, Array.size_setIfInBounds, ?_, ?_⟩
  · intro other mem
    rw [List.mem_singleton.mp mem]
    exact pending
  · intro other
    simp only [List.mem_singleton]
    exact stateOf_set rfl inside other

namespace Marks

variable {chain above : List TypeRef}

theorem done_iff (marks : Marks chain pass after) (ref : TypeRef) :
    after.stateOf ref = .done ↔ pass.stateOf ref = .done := by
  rw [marks.states]
  split
  · next mem => simp [marks.pending ref mem]
  · exact Iff.rfl

theorem follows (marks : Marks chain pass after) (follows : Follows outline pass) :
    Follows outline after := by
  have class? : ∀ ref, after.class? ref = pass.class? ref := by
    intro ref
    rw [LayoutPass.class?, LayoutPass.class?, marks.types]
  constructor
  case declares => rw [marks.types]; exact follows.declares
  case states => rw [marks.size, marks.types]; exact follows.states
  case recorded =>
    intro ref c
    rw [marks.made, marks.done_iff, class?]
    exact follows.recorded ref c
  case once => rw [marks.made]; exact follows.once
  case ordered => rw [marks.made]; exact follows.ordered
  case laid =>
    intro ref c isDone found
    rw [marks.done_iff] at isDone
    rw [class?] at found
    rcases follows.laid ref c isDone found with ⟨chain, chained, described, allDone⟩
    exact ⟨chain, chained, described, fun entry mem => (marks.done_iff _).mpr (allDone entry mem)⟩

theorem fresh {middle : LayoutPass} (first : Marks [ref] pass middle)
    (rest : Marks above middle after) : ref ∉ above := by
  intro mem
  have pending := rest.pending ref mem
  rw [first.states, if_pos List.mem_cons_self] at pending
  cases pending

theorem cons {middle : LayoutPass} (first : Marks [ref] pass middle)
    (rest : Marks above middle after) : Marks (ref :: above) pass after := by
  have fresh := first.fresh rest
  refine ⟨rest.types.trans first.types, rest.made.trans first.made, rest.size.trans first.size,
    ?_, ?_⟩
  · intro other mem
    rcases List.mem_cons.mp mem with rfl | mem
    · exact first.pending _ List.mem_cons_self
    · have pending := rest.pending other mem
      rw [first.states] at pending
      split at pending
      · cases pending
      · exact pending
  · intro other
    rw [rest.states, first.states]
    simp only [List.mem_cons, List.not_mem_nil, or_false]
    by_cases here : other = ref
    · subst here
      simp [fresh]
    · simp [here]

end Marks

/-- What a climb can come to: an end at once, a class to mark and what is above it, or a fault. -/
theorem climb_eq (steps : Nat) (ref : TypeRef) (pass : LayoutPass) :
    (climb steps (some ref) pass = .ok [] pass ∧
      (pass.class? ref = none ∨ pass.stateOf ref = .done)) ∨
    (∃ c fewer, pass.class? ref = some c ∧ pass.stateOf ref = .pending ∧ steps = fewer + 1 ∧
      climb steps (some ref) pass =
        match climb fewer c.base (pass.visit ref) with
        | .ok above after => .ok (ref :: above) after
        | .error fault after => .error fault after) ∨
    ∃ c, pass.class? ref = some c ∧ (pass.stateOf ref = .visiting ∨ steps = 0) ∧
      climb steps (some ref) pass = .error (.inheritanceCycle c.name) pass := by
  rw [climb]
  cases known : pass.class? ref with
  | none => exact Or.inl ⟨rfl, Or.inl rfl⟩
  | some c =>
      cases state : pass.stateOf ref with
      | done => exact Or.inl ⟨rfl, Or.inr rfl⟩
      | visiting => exact Or.inr (Or.inr ⟨c, rfl, Or.inl rfl, rfl⟩)
      | pending =>
          cases steps with
          | zero => exact Or.inr (Or.inr ⟨c, rfl, Or.inr rfl, rfl⟩)
          | succ fewer => exact Or.inr (Or.inl ⟨c, fewer, rfl, rfl, rfl, rfl⟩)

/-- A climb marks the classes that it passes, whether it comes to an end or not. -/
theorem climb_cases (follows : Follows outline pass) (steps : Nat) (start : Option TypeRef) :
    (∃ chain after, climb steps start pass = .ok chain after ∧ Marks chain pass after ∧
      chain.Nodup ∧ Climbs outline pass start chain) ∨
    ∃ fault chain after, climb steps start pass = .error fault after ∧ Marks chain pass after := by
  induction steps using Nat.strongRecOn generalizing start pass with
  | ind steps ih =>
      cases start with
      | none => exact Or.inl ⟨[], pass, by rw [climb], marks_nil pass, List.nodup_nil, .top⟩
      | some ref =>
          rcases climb_eq steps ref pass with
            ⟨ends, here⟩ | ⟨c, fewer, found, pending, rfl, climbs⟩ | ⟨c, _, _, refused⟩
          · refine Or.inl ⟨[], pass, ends, marks_nil pass, List.nodup_nil, ?_⟩
            rcases here with none | isDone
            · exact .outside ((class?_eq_none_iff follows.declares).mp none)
            · exact .made isDone
          · have known := outline_of_class? follows.declares found
            have first := marks_visit (follows.inside known) pending
            rcases ih fewer (Nat.lt_succ_self _) (first.follows follows) c.base with
              ⟨above, after, climbs', rest, nodup, line⟩ | ⟨fault, above, after, failed, rest⟩
            · rw [climbs'] at climbs
              refine Or.inl ⟨ref :: above, after, climbs, first.cons rest,
                List.nodup_cons.mpr ⟨first.fresh rest, nodup⟩, ?_⟩
              exact .link known (by simp [pending]) (line.congr first.done_iff)
            · rw [failed] at climbs
              exact Or.inr ⟨fault, ref :: above, after, climbs, first.cons rest⟩
          · exact Or.inr ⟨_, [], pass, refused, marks_nil pass⟩

/-- With enough steps a climb comes to the end of a chain on which no class is marked. -/
theorem exists_climb (follows : Follows outline pass) {chain : List (TypeRef × ClassOutline)}
    (chained : outline.Chained ref chain) {steps : Nat} (enough : chain.length ≤ steps)
    (unmarked : ∀ entry ∈ chain, pass.stateOf entry.1 ≠ .visiting) :
    ∃ classes after, climb steps (some ref) pass = .ok classes after := by
  induction chained generalizing pass steps with
  | @outside ref outside =>
      rcases climb_eq steps ref pass with ⟨ends, _⟩ | ⟨c, _, found, _⟩ | ⟨c, found, _⟩
      · exact ⟨_, _, ends⟩
      · rw [(class?_eq_none_iff follows.declares).mpr outside] at found
        cases found
      · rw [(class?_eq_none_iff follows.declares).mpr outside] at found
        cases found
  | @top ref o known none =>
      rcases climb_eq steps ref pass with
        ⟨ends, _⟩ | ⟨c, fewer, found, _, _, climbs⟩ | ⟨c, _, stuck, _⟩
      · exact ⟨_, _, ends⟩
      · rw [outline_of_class? follows.declares found] at known
        cases known
        have top : c.base = Option.none := none
        rw [top, climb] at climbs
        exact ⟨_, _, climbs⟩
      · rcases stuck with visiting | empty
        · exact absurd visiting (unmarked _ List.mem_cons_self)
        · rw [List.length_singleton] at enough
          omega
  | @link ref base o above known has chained ih =>
      rcases climb_eq steps ref pass with
        ⟨ends, _⟩ | ⟨c, fewer, found, pending, rfl, climbs⟩ | ⟨c, _, stuck, _⟩
      · exact ⟨_, _, ends⟩
      · have first := marks_visit (follows.inside known) pending
        have fresh := (List.nodup_cons.mp (Outline.Chained.link known has chained).nodup).1
        have climbs' : ∃ classes after,
            climb fewer (some base) (pass.visit ref) = .ok classes after := by
          refine ih (first.follows follows) (Nat.le_of_succ_le_succ enough) ?_
          intro entry mem
          rw [first.states, if_neg]
          · exact unmarked entry (List.mem_cons_of_mem _ mem)
          · intro here
            have again : entry.1 ∈ above.map Prod.fst := List.mem_map_of_mem mem
            rw [List.mem_singleton.mp here] at again
            exact fresh again
        rcases climbs' with ⟨classes, after, climbs'⟩
        rw [outline_of_class? follows.declares found] at known
        cases known
        have base_eq : c.base = some base := has
        rw [base_eq, climbs'] at climbs
        exact ⟨_, _, climbs⟩
      · rcases stuck with visiting | empty
        · exact absurd visiting (unmarked _ List.mem_cons_self)
        · rw [List.length_cons] at enough
          omega

/-!
## The way down
-/

/-- The classes that a climb has passed get their layouts from the top down. -/
theorem follows_foldr (follows : Follows outline pass) {start : Option TypeRef}
    {chain : List TypeRef} (climbs : Climbs outline pass start chain) (nodup : chain.Nodup) :
    Follows outline (chain.foldr (layOut outline.methodName) pass) ∧
      ∀ other, (chain.foldr (layOut outline.methodName) pass).stateOf other =
        if other ∈ chain then .done else pass.stateOf other := by
  induction climbs with
  | top => exact ⟨follows, fun _ => rfl⟩
  | outside _ => exact ⟨follows, fun _ => rfl⟩
  | made _ => exact ⟨follows, fun _ => rfl⟩
  | @link ref o above known fresh rest ih =>
      rcases List.nodup_cons.mp nodup with ⟨new, nodup'⟩
      rcases ih nodup' with ⟨follows', states⟩
      have fresh' : (above.foldr (layOut outline.methodName) pass).stateOf ref ≠ .done := by
        rw [states, if_neg new]
        exact fresh
      have ready : ∀ base, o.base = some base → outline.class? base = none ∨
          (above.foldr (layOut outline.methodName) pass).stateOf base = .done := by
        intro base has
        rw [has] at rest
        cases rest with
        | outside outside => exact Or.inl outside
        | made isDone => exact Or.inr isDone
        | link _ _ _ =>
            right
            rw [states]
            exact if_pos List.mem_cons_self
      rcases follows'.layOut known fresh' ready with ⟨follows'', states'⟩
      refine ⟨follows'', fun other => ?_⟩
      rw [List.foldr_cons, states', states]
      by_cases here : other = ref
      · subst here
        simp
      · simp [here]

def Settled (pass : LayoutPass) : Prop :=
  ∀ ref, pass.stateOf ref ≠ .visiting

/-- A class gets its layout with all that are above it, and the classes that have theirs keep it; or
there is a fault, and the classes have what they had. -/
theorem layoutClass_cases (follows : Follows outline pass) (settled : pass.Settled)
    (ref : TypeRef) :
    (∃ after, layoutClass outline.methodName ref pass = .ok () after ∧ Follows outline after ∧
      after.Settled ∧ ((pass.class? ref).isSome → after.stateOf ref = .done) ∧
      ∀ other, pass.stateOf other = .done → after.stateOf other = .done) ∨
    ∃ fault after, layoutClass outline.methodName ref pass = .error fault after ∧
      Follows outline after := by
  rcases climb_cases follows pass.types.size (some ref) with
    ⟨chain, middle, climbed, marks, nodup, climbs⟩ | ⟨fault, chain, middle, failed, marks⟩
  · left
    have climbs' : Climbs outline middle (some ref) chain :=
      climbs.congr fun other => (marks.done_iff other).symm
    rcases follows_foldr (marks.follows follows) climbs' nodup with ⟨follows', states⟩
    have ran : layoutClass outline.methodName ref pass =
        .ok () (chain.foldr (layOut outline.methodName) middle) := by
      rw [layoutClass, get_bind, bind_of_ok climbed]
      rfl
    refine ⟨_, ran, follows', ?_, ?_, ?_⟩
    · intro other
      rw [states]
      split
      · exact nofun
      · next unpassed =>
          rw [marks.states, if_neg unpassed]
          exact settled other
    · intro isClass
      rw [states]
      cases climbs with
      | outside outside =>
          rw [(class?_eq_none_iff follows.declares).mpr outside] at isClass
          cases isClass
      | made isDone =>
          rw [if_neg List.not_mem_nil]
          exact (marks.done_iff ref).mpr isDone
      | link _ _ _ => exact if_pos List.mem_cons_self
    · intro other isDone
      rw [states]
      split
      · rfl
      · exact (marks.done_iff other).mpr isDone
  · right
    have ran : layoutClass outline.methodName ref pass = .error fault middle := by
      rw [layoutClass, get_bind, bind_of_error failed]
    exact ⟨fault, middle, ran, marks.follows follows⟩

/-- The classes among some types get their layouts, or there is a fault. -/
theorem layoutClasses_cases (follows : Follows outline pass) (settled : pass.Settled)
    (refs : List TypeRef) :
    (∃ after, layoutClasses outline.methodName refs pass = .ok () after ∧ Follows outline after ∧
      (∀ ref ∈ refs, (outline.class? ref).isSome → after.stateOf ref = .done) ∧
      ∀ other, pass.stateOf other = .done → after.stateOf other = .done) ∨
    ∃ fault after, layoutClasses outline.methodName refs pass = .error fault after ∧
      Follows outline after := by
  induction refs generalizing pass with
  | nil => exact Or.inl ⟨pass, rfl, follows, nofun, fun _ => id⟩
  | cons ref rest ih =>
      rw [layoutClasses, get_bind]
      cases isClass : pass.class? ref with
      | none =>
          have outside := (class?_eq_none_iff follows.declares).mp isClass
          rcases ih follows settled with ⟨after, ran, follows', covered, keeps⟩ | failed
          · refine Or.inl ⟨after, ran, follows', ?_, keeps⟩
            intro other mem isClass'
            rcases List.mem_cons.mp mem with rfl | mem
            · rw [outside] at isClass'
              cases isClass'
            · exact covered other mem isClass'
          · exact Or.inr failed
      | some c =>
          rw [Option.isSome_some, if_pos rfl]
          rcases layoutClass_cases follows settled ref with
            ⟨middle, first, follows', settled', isDone, keeps⟩ | ⟨fault, after, failed, follows'⟩
          · rw [bind_of_ok first]
            rcases ih follows' settled' with ⟨after, ran, follows'', covered, keeps'⟩ | failed
            · refine Or.inl ⟨after, ran, follows'', ?_, fun other isDone =>
                keeps' other (keeps other isDone)⟩
              intro other mem isClass'
              rcases List.mem_cons.mp mem with rfl | mem
              · exact keeps' other (isDone (by rw [isClass]; rfl))
              · exact covered other mem isClass'
            · exact Or.inr failed
          · exact Or.inr ⟨fault, after, bind_of_error failed, follows'⟩

theorem exists_layoutClasses (follows : Follows outline pass) (settled : pass.Settled)
    (chained : ∀ ref o, outline.class? ref = some o → ∃ chain, outline.Chained ref chain)
    (refs : List TypeRef) :
    ∃ after, layoutClasses outline.methodName refs pass = .ok () after := by
  induction refs generalizing pass with
  | nil => exact ⟨pass, rfl⟩
  | cons ref rest ih =>
      rw [layoutClasses, get_bind]
      cases isClass : pass.class? ref with
      | none => exact ih follows settled
      | some c =>
          rcases chained ref _ (outline_of_class? follows.declares isClass) with ⟨chain, chained'⟩
          have enough : chain.length ≤ pass.types.size := by
            rw [follows.declares.size_eq]
            exact chained'.length_le
          rcases exists_climb follows chained' enough (fun entry _ => settled entry.1) with
            ⟨classes, middle, climbed⟩
          rcases layoutClass_cases follows settled ref with
            ⟨after, first, follows', settled', _⟩ | ⟨fault, after, failed, _⟩
          · rw [Option.isSome_some, if_pos rfl, bind_of_ok first]
            exact ih follows' settled'
          · rw [layoutClass, get_bind, bind_of_ok climbed] at failed
            cases failed

end LayoutPass

/-!
## Tables of types
-/

namespace Outline

variable {outline : Outline} {types : Array TypeDescriptor}

theorem stateOf_beforeLayouts (outline : Outline) (ref : TypeRef) :
    outline.beforeLayouts.stateOf ref = .pending := by
  rw [LayoutPass.stateOf, beforeLayouts, Array.getElem?_replicate]
  split <;> rfl

theorem follows_beforeLayouts (outline : Outline) :
    LayoutPass.Follows outline outline.beforeLayouts := by
  constructor
  case declares =>
    refine List.ext_getElem? fun i => ?_
    rw [List.getElem?_map]
    show (outline.shells[i]?).map _ = _
    cases at_i : outline.shells[i]? with
    | none => rfl
    | some type =>
        rcases getElem?_shells_cases at_i with ⟨p, _, rfl⟩ | ⟨_, declared, _, _, rfl⟩
        · rfl
        · cases declared <;> rfl
  case states => exact Array.size_replicate
  case recorded =>
    intro ref c
    rw [stateOf_beforeLayouts]
    constructor
    · intro mem
      cases mem
    · intro made
      cases made.1
  case once => exact List.nodup_nil
  case ordered => exact .nil
  case laid =>
    intro ref c isDone
    rw [stateOf_beforeLayouts] at isDone
    cases isDone

theorem settled_beforeLayouts (outline : Outline) : outline.beforeLayouts.Settled := by
  intro ref
  rw [stateOf_beforeLayouts]
  exact nofun

theorem mem_refs {ref : TypeRef} {o : ClassOutline} (known : outline.class? ref = some o) :
    ref ∈ (List.range outline.shells.length).map TypeRef.mk := by
  have inside := (follows_beforeLayouts outline).inside known
  have size : outline.beforeLayouts.states.size = outline.shells.length := Array.size_replicate
  exact List.mem_map.mpr ⟨ref.index, List.mem_range.mpr (size ▸ inside), rfl⟩

/-- A pass over all types ends with all layouts, or with a fault. -/
theorem makeLayouts_cases (outline : Outline) :
    (∃ pass, outline.makeLayouts = .ok () pass ∧ LayoutPass.Follows outline pass ∧
      ∀ ref c, pass.class? ref = some c → pass.stateOf ref = .done) ∨
    ∃ fault pass, outline.makeLayouts = .error fault pass ∧ LayoutPass.Follows outline pass := by
  rcases LayoutPass.layoutClasses_cases (follows_beforeLayouts outline)
    (settled_beforeLayouts outline) ((List.range outline.shells.length).map TypeRef.mk) with
    ⟨pass, ran, follows, covered, _⟩ | failed
  · refine Or.inl ⟨pass, ran, follows, ?_⟩
    intro ref c found
    have known := LayoutPass.outline_of_class? follows.declares found
    exact covered ref (mem_refs known) (by rw [known]; rfl)
  · exact Or.inr failed

theorem typeTable_eq_ok (made : outline.typeTable = .ok types) :
    ∃ pass, outline.makeLayouts = .ok () pass ∧ pass.types = types ∧
      LayoutPass.Follows outline pass ∧
      ∀ ref c, pass.class? ref = some c → pass.stateOf ref = .done := by
  rcases makeLayouts_cases outline with ⟨pass, ran, follows, allDone⟩ | ⟨fault, pass, failed, _⟩
  · rw [typeTable, ran] at made
    cases made
    exact ⟨pass, ran, rfl, follows, allDone⟩
  · rw [typeTable, failed] at made
    cases made

theorem declares_of_typeTable (made : outline.typeTable = .ok types) : outline.Declares types := by
  rcases typeTable_eq_ok made with ⟨pass, _, rfl, follows, _⟩
  exact follows.declares

/-- The classes of the table are those of the outline, with the layouts that their chains give. -/
theorem class_cases {ref : TypeRef} {c : ClassDescriptor}
    (made : outline.typeTable = .ok types) (found : types[ref.index]? = some (.ofClass c)) :
    ∃ o chain, outline.class? ref = some o ∧ outline.Chained ref chain ∧
      c = outline.describeClass o chain := by
  rcases typeTable_eq_ok made with ⟨pass, _, rfl, follows, allDone⟩
  have found' := LayoutPass.class?_eq_some_iff.mpr found
  rcases follows.laid ref c (allDone ref c found') found' with ⟨chain, chained, described, _⟩
  exact ⟨_, chain, LayoutPass.outline_of_class? follows.declares found', chained, described⟩

theorem typeTable_cases {ref : TypeRef} {descriptor : TypeDescriptor}
    (made : outline.typeTable = .ok types) (found : types[ref.index]? = some descriptor) :
    (∃ p, Primitive.all[ref.index]? = some p ∧ descriptor = .primitive p) ∨
    (Image.primitiveCount ≤ ref.index ∧
      ∃ element, descriptor = .ofArray ⟨element, element.kind⟩) ∨
    ∃ o chain, outline.class? ref = some o ∧ outline.Chained ref chain ∧
      descriptor = .ofClass (outline.describeClass o chain) := by
  rcases (declares_of_typeTable made).cases found with primitive | array | ⟨c, rfl, _⟩
  · exact Or.inl primitive
  · exact Or.inr (Or.inl array)
  · rcases class_cases made found with ⟨o, chain, known, chained, rfl⟩
    exact Or.inr (Or.inr ⟨o, chain, known, chained, rfl⟩)

theorem exists_chained_of_typeTable {ref : TypeRef} {o : ClassOutline}
    (made : outline.typeTable = .ok types) (known : outline.class? ref = some o) :
    ∃ chain, outline.Chained ref chain ∧
      types[ref.index]? = some (.ofClass (outline.describeClass o chain)) := by
  rcases (declares_of_typeTable made).class_of_class? known with ⟨c, found, _⟩
  rcases class_cases made found with ⟨o', chain, known', chained, rfl⟩
  rw [known] at known'
  cases known'
  exact ⟨chain, chained, found⟩

/-- The table of types is made exactly if every class has a chain. -/
theorem exists_typeTable_iff :
    (∃ types, outline.typeTable = .ok types) ↔
      ∀ ref o, outline.class? ref = some o → ∃ chain, outline.Chained ref chain := by
  constructor
  · intro given ref o known
    rcases given with ⟨types, made⟩
    rcases exists_chained_of_typeTable made known with ⟨chain, chained, _⟩
    exact ⟨chain, chained⟩
  · intro chained
    rcases LayoutPass.exists_layoutClasses (follows_beforeLayouts outline)
      (settled_beforeLayouts outline) chained
      ((List.range outline.shells.length).map TypeRef.mk) with ⟨pass, ran⟩
    exact ⟨pass.types, by rw [typeTable, makeLayouts, ran]⟩

/-!
## The order of the layouts
-/

/-- What is recorded has the layout of its chain, also if there is a fault later on. -/
theorem chained_of_mem_layoutOrder {ref : TypeRef} {c : ClassDescriptor}
    (mem : (ref, c) ∈ outline.layoutOrder) :
    ∃ o chain, outline.class? ref = some o ∧ outline.Chained ref chain ∧
      c = outline.describeClass o chain := by
  have recorded : ∃ pass, LayoutPass.Follows outline pass ∧ (ref, c) ∈ pass.made := by
    rcases makeLayouts_cases outline with ⟨pass, ran, follows, _⟩ | ⟨fault, pass, failed, follows⟩
    · rw [layoutOrder, ran] at mem
      exact ⟨pass, follows, mem⟩
    · rw [layoutOrder, failed] at mem
      exact ⟨pass, follows, mem⟩
  rcases recorded with ⟨pass, follows, mem⟩
  rcases (follows.recorded ref c).mp mem with ⟨isDone, found⟩
  rcases follows.laid ref c isDone found with ⟨chain, chained, described, _⟩
  exact ⟨_, chain, LayoutPass.outline_of_class? follows.declares found, chained, described⟩

/-- If there is a table, then its classes are those that are recorded. Each is recorded once, and
none in front of its base. -/
theorem layoutOrder_of_typeTable (made : outline.typeTable = .ok types) :
    (∀ ref c, (ref, c) ∈ outline.layoutOrder ↔ types[ref.index]? = some (.ofClass c)) ∧
      (outline.layoutOrder.map Prod.fst).Nodup ∧
      outline.layoutOrder.Pairwise fun early late => early.2.base ≠ some late.1 := by
  rcases typeTable_eq_ok made with ⟨pass, ran, rfl, follows, allDone⟩
  have order : outline.layoutOrder = pass.made := by rw [layoutOrder, ran]
  rw [order]
  refine ⟨?_, follows.once, follows.ordered⟩
  intro ref c
  rw [follows.recorded, LayoutPass.class?_eq_some_iff]
  constructor
  · exact And.right
  · intro found
    exact ⟨allDone ref c (LayoutPass.class?_eq_some_iff.mpr found), found⟩

end Outline
end ObjectMachine
