import ObjectMachine.Linking.Outline

/-!
# Layouts

An instance has the fields of its base first, then those its class adds, one after the other
without gaps. So a field lies at the same offset in all descendants of the class that added it.
The dispatch table likewise starts from that of the base, and a method replaces one of its name.

Layouts are made in the order of the types. From a class the way leads up through the classes that
have no layout yet; then they get their layouts from the top down, each from the one that its base
has by now. A way that comes back to a class that it has passed is a cycle, and ends the work.

Offsets and sizes are numbers without bound here. As words they are the same as long as the fields
of every class take less than `2 ^ 32` bytes. That is taken for granted wherever a size is used: for
the places of fields that instructions name, and for the room that an instance needs.
-/

namespace ObjectMachine

structure Layout where
  fields : List FieldSlot
  /-- The bytes that the fields take, less than `2 ^ 32` for a layout that fits in words. -/
  size : Nat
  /-- The methods by name, in the order of the names. -/
  vtable : List (String × MethodRef)
  deriving DecidableEq, Repr

namespace Layout

def empty : Layout := ⟨[], 0, []⟩

def addField (layout : Layout) (type : TypeRef) : Layout :=
  { layout with
    fields := layout.fields ++ [{ type, kind := type.kind, offset := layout.size }]
    size := layout.size + type.kind.width }

/-- A method is entered under a name, in place of any other of that name. -/
def enter (name : String) (method : MethodRef) :
    List (String × MethodRef) → List (String × MethodRef)
  | [] => [(name, method)]
  | entry :: rest =>
      if name < entry.1 then (name, method) :: entry :: rest
      else if name = entry.1 then (name, method) :: rest
      else entry :: enter name method rest

def extend (base : Layout) (nameOf : MethodRef → String) (c : ClassOutline) : Layout :=
  let layout := c.ownFields.foldl addField base
  { layout with
    vtable := c.methods.foldl (fun table method => enter (nameOf method) method table)
      base.vtable }

end Layout

/-!
## Descriptions of classes
-/

def ClassOutline.describe (c : ClassOutline) (layout : Layout) : ClassDescriptor where
  name := c.name
  base := c.base
  ownFields := c.ownFields
  methods := c.methods
  fields := layout.fields
  size := layout.size
  vtable := layout.vtable

namespace ClassDescriptor

def outline (c : ClassDescriptor) : ClassOutline where
  name := c.name
  base := c.base
  ownFields := c.ownFields
  methods := c.methods

def layout (c : ClassDescriptor) : Layout where
  fields := c.fields
  size := c.size
  vtable := c.vtable

end ClassDescriptor

def TypeOutline.shell : TypeOutline → TypeDescriptor
  | .ofClass c => .ofClass (c.describe .empty)
  | .ofArray element => .ofArray { element, elementKind := element.kind }

/-!
## Making layouts
-/

inductive LayoutState where
  | pending
  | visiting
  | done
  deriving DecidableEq, Repr

/-- The table of types while layouts are made. -/
structure LayoutPass where
  types : Array TypeDescriptor
  states : Array LayoutState
  /-- The classes that have their layouts, in the order in which they got them. -/
  made : List (TypeRef × ClassDescriptor)

namespace LayoutPass

abbrev Op := EStateM ImageFault LayoutPass

def class? (pass : LayoutPass) (ref : TypeRef) : Option ClassDescriptor :=
  match pass.types[ref.index]? with
  | some (.ofClass c) => some c
  | _ => none

def stateOf (pass : LayoutPass) (ref : TypeRef) : LayoutState :=
  (pass.states[ref.index]?).getD .pending

def visit (pass : LayoutPass) (ref : TypeRef) : LayoutPass :=
  { pass with states := pass.states.setIfInBounds ref.index .visiting }

/-- A class and those above it, up to the first that has its layout. They are marked on the way, so
a class that is met again is on a cycle. No way without repetition has more steps than the table has
types. -/
def climb : Nat → Option TypeRef → Op (List TypeRef)
  | _, none, pass => .ok [] pass
  | steps, some ref, pass =>
      match pass.class? ref with
      | none => .ok [] pass
      | some c =>
          match pass.stateOf ref, steps with
          | .done, _ => .ok [] pass
          | .pending, steps + 1 =>
              match climb steps c.base (pass.visit ref) with
              | .ok above pass => .ok (ref :: above) pass
              | .error fault pass => .error fault pass
          | _, _ => .error (.inheritanceCycle c.name) pass

def baseLayout (pass : LayoutPass) (c : ClassDescriptor) : Layout :=
  ((c.base.bind pass.class?).map ClassDescriptor.layout).getD .empty

def layOut (nameOf : MethodRef → String) (ref : TypeRef) (pass : LayoutPass) : LayoutPass :=
  match pass.class? ref with
  | none => pass
  | some c =>
      let c := c.outline.describe ((pass.baseLayout c).extend nameOf c.outline)
      { types := pass.types.setIfInBounds ref.index (.ofClass c)
        states := pass.states.setIfInBounds ref.index .done
        made := pass.made ++ [(ref, c)] }

/-- A class gets its layout, after all classes above it. -/
def layoutClass (nameOf : MethodRef → String) (ref : TypeRef) : Op Unit := do
  let steps := (← get).types.size
  let chain ← climb steps (some ref)
  modify (chain.foldr (layOut nameOf))

def layoutClasses (nameOf : MethodRef → String) : List TypeRef → Op Unit
  | [] => pure ()
  | ref :: rest => do
      if ((← get).class? ref).isSome then
        layoutClass nameOf ref
      layoutClasses nameOf rest

end LayoutPass

namespace Outline

def methodName (outline : Outline) (ref : MethodRef) : String :=
  ((outline.methods[ref.index - Image.builtinCount]?).map MethodOutline.name).getD ""

def shells (outline : Outline) : List TypeDescriptor :=
  Primitive.all.map TypeDescriptor.primitive ++ outline.types.map TypeOutline.shell

def beforeLayouts (outline : Outline) : LayoutPass where
  types := outline.shells.toArray
  states := Array.replicate outline.shells.length .pending
  made := []

def makeLayouts (outline : Outline) : EStateM.Result ImageFault LayoutPass Unit :=
  let refs := (List.range outline.shells.length).map TypeRef.mk
  LayoutPass.layoutClasses outline.methodName refs outline.beforeLayouts

def typeTable (outline : Outline) : Except ImageFault (Array TypeDescriptor) :=
  match outline.makeLayouts with
  | .ok _ pass => .ok pass.types
  | .error fault _ => .error fault

/-- The classes in the order in which they get their layouts, as far as it comes to that. -/
def layoutOrder (outline : Outline) : List (TypeRef × ClassDescriptor) :=
  match outline.makeLayouts with
  | .ok _ pass => pass.made
  | .error _ pass => pass.made

end Outline
end ObjectMachine
