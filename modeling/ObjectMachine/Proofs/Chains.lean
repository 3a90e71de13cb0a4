import Mathlib.Algebra.GroupWithZero.Nat
import Mathlib.Data.List.Nodup
import Mathlib.Data.List.Perm.Subperm
import ObjectMachine.Linking.Layout

/-!
# Layouts along chains of classes

Fields are laid out one behind the other, the fields of the base first. A chain of classes leads
from a class up through its bases to one without a base, and has one layout: that of its top class,
extended from class to class. A chain that comes to an end passes no class twice.
-/

namespace ObjectMachine

/-!
## One layout
-/

namespace Layout

def widths (slots : List FieldSlot) : Nat :=
  (slots.map fun slot => slot.kind.width).sum

theorem widths_append (slots more : List FieldSlot) :
    widths (slots ++ more) = widths slots + widths more := by
  simp [widths]

theorem widths_take_succ {slots : List FieldSlot} {i : Nat} {slot : FieldSlot}
    (at_i : slots[i]? = some slot) :
    widths (slots.take (i + 1)) = widths (slots.take i) + slot.kind.width := by
  simp [List.take_add_one, at_i, widths]

theorem widths_take_le {slots : List FieldSlot} {i j : Nat} (before : i ≤ j) :
    widths (slots.take i) ≤ widths (slots.take j) := by
  rw [← Nat.add_sub_of_le before, List.take_add, widths_append]
  exact Nat.le_add_right _ _

structure Packed (layout : Layout) : Prop where
  kind : ∀ slot ∈ layout.fields, slot.kind = slot.type.kind
  offset : ∀ (i : Nat) slot, layout.fields[i]? = some slot →
    slot.offset = widths (layout.fields.take i)
  size : layout.size = widths layout.fields

theorem packed_empty : empty.Packed :=
  ⟨nofun, nofun, rfl⟩

theorem Packed.addField {layout : Layout} (packed : layout.Packed) (type : TypeRef) :
    (layout.addField type).Packed := by
  refine ⟨?_, ?_, ?_⟩
  · intro slot mem
    rcases List.mem_append.mp mem with mem | mem
    · exact packed.kind slot mem
    · rw [List.mem_singleton.mp mem]
  · intro i slot at_i
    simp only [Layout.addField] at at_i ⊢
    rcases Nat.lt_or_ge i layout.fields.length with inside | outside
    · rw [List.getElem?_append_left inside] at at_i
      rw [List.take_append_of_le_length (Nat.le_of_lt inside)]
      exact packed.offset i slot at_i
    · rw [List.getElem?_append_right outside] at at_i
      have last : i = layout.fields.length := by
        have inside := (List.getElem?_eq_some_iff.mp at_i).1
        rw [List.length_singleton] at inside
        omega
      rw [last, Nat.sub_self] at at_i
      cases at_i
      rw [last, List.take_left]
      exact packed.size
  · simp only [Layout.addField, widths_append, packed.size]
    simp [widths]

theorem Packed.addFields {layout : Layout} (packed : layout.Packed) (types : List TypeRef) :
    (types.foldl Layout.addField layout).Packed := by
  induction types generalizing layout with
  | nil => exact packed
  | cons type rest ih => exact ih (packed.addField type)

theorem Packed.extend {base : Layout} (packed : base.Packed) (nameOf : MethodRef → String)
    (c : ClassOutline) : (base.extend nameOf c).Packed := by
  have laid := packed.addFields c.ownFields
  exact ⟨laid.kind, laid.offset, laid.size⟩

/-- Fields lie one behind the other, all of them in the given number of bytes. -/
structure Orderly (layout : Layout) : Prop where
  ordered : layout.fields.Pairwise fun field other =>
    field.offset + field.kind.width ≤ other.offset
  within : ∀ field ∈ layout.fields, field.offset + field.kind.width ≤ layout.size

theorem Packed.orderly {layout : Layout} (packed : layout.Packed) : layout.Orderly := by
  -- The end of a slot is the width of what is taken up to and with it.
  have ends : ∀ {i : Nat} {slot : FieldSlot}, layout.fields[i]? = some slot →
      slot.offset + slot.kind.width = widths (layout.fields.take (i + 1)) := by
    intro i slot at_i
    rw [packed.offset i slot at_i, widths_take_succ at_i]
  constructor
  · rw [List.pairwise_iff_getElem]
    intro i j inside inside' before
    have at_i := List.getElem?_eq_getElem inside
    have at_j := List.getElem?_eq_getElem inside'
    rw [ends at_i, packed.offset j _ at_j]
    exact widths_take_le before
  · intro slot mem
    rcases List.getElem?_of_mem mem with ⟨i, at_i⟩
    have inside := (List.getElem?_eq_some_iff.mp at_i).1
    rw [ends at_i, packed.size]
    calc widths (layout.fields.take (i + 1))
        ≤ widths (layout.fields.take layout.fields.length) := widths_take_le inside
      _ = widths layout.fields := by rw [List.take_length]

theorem fields_addFields (layout : Layout) (types : List TypeRef) :
    ∃ own, (types.foldl Layout.addField layout).fields = layout.fields ++ own ∧
      own.map FieldSlot.type = types := by
  induction types generalizing layout with
  | nil => exact ⟨[], (List.append_nil _).symm, rfl⟩
  | cons type rest ih =>
      rcases ih (layout.addField type) with ⟨own, fields, types⟩
      refine ⟨⟨type, type.kind, layout.size⟩ :: own, ?_, ?_⟩
      · rw [List.foldl_cons, fields]
        simp [Layout.addField]
      · rw [List.map_cons, types]

theorem fields_extend (base : Layout) (nameOf : MethodRef → String) (c : ClassOutline) :
    ∃ own, (base.extend nameOf c).fields = base.fields ++ own ∧
      own.map FieldSlot.type = c.ownFields :=
  fields_addFields base c.ownFields

theorem lookup_cons_eq (entry : String × MethodRef) (table : List (String × MethodRef))
    (key : String) :
    (entry :: table).lookup key = if key = entry.1 then some entry.2 else table.lookup key := by
  rw [List.lookup_cons]
  by_cases here : key = entry.1
  · simp [here]
  · simp [here, beq_eq_false_iff_ne.mpr here]

theorem lookup_enter (name : String) (method : MethodRef) (table : List (String × MethodRef))
    (key : String) :
    (enter name method table).lookup key =
      if key = name then some method else table.lookup key := by
  induction table with
  | nil => rw [enter, lookup_cons_eq]
  | cons entry rest ih =>
      unfold enter
      split
      · rw [lookup_cons_eq]
      · split
        · next same =>
            rw [lookup_cons_eq, lookup_cons_eq, same]
            by_cases here : key = entry.1
            · rw [if_pos here, if_pos here]
            · rw [if_neg here, if_neg here, if_neg here]
        · next different =>
            rw [lookup_cons_eq, lookup_cons_eq, ih]
            by_cases here : key = entry.1
            · have other : ¬ key = name := fun same => different (same.symm.trans here)
              rw [if_pos here, if_neg other, if_pos here]
            · rw [if_neg here, if_neg here]

theorem lookup_extend (base : Layout) (nameOf : MethodRef → String) (c : ClassOutline)
    (name : String) :
    (base.extend nameOf c).vtable.lookup name =
      ((c.methods.filter fun method => nameOf method == name).getLast?).or
        (base.vtable.lookup name) := by
  have enters : ∀ (methods : List MethodRef) (table : List (String × MethodRef)),
      (methods.foldl (fun table method => enter (nameOf method) method table) table).lookup name =
        ((methods.filter fun method => nameOf method == name).getLast?).or (table.lookup name) := by
    intro methods
    induction methods with
    | nil => exact fun table => rfl
    | cons method rest ih =>
        intro table
        rw [List.foldl_cons, ih, lookup_enter]
        by_cases here : nameOf method = name
        · rw [if_pos here.symm, List.filter_cons_of_pos (by simp [here]), List.getLast?_cons]
          cases (rest.filter fun method => nameOf method == name).getLast? with
          | none => rfl
          | some later => rfl
        · rw [if_neg fun same => here same.symm, List.filter_cons_of_neg (by simp [here])]
  exact enters c.methods base.vtable

end Layout

/-!
## Chains of classes
-/

namespace Outline

variable {outline : Outline}

def class? (outline : Outline) (ref : TypeRef) : Option ClassOutline :=
  if ref.index < Image.primitiveCount then
    none
  else
    match outline.types[ref.index - Image.primitiveCount]? with
    | some (.ofClass c) => some c
    | _ => none

theorem class?_eq_some_iff {ref : TypeRef} {c : ClassOutline} :
    outline.class? ref = some c ↔ ∃ i : Nat, outline.types[i]? = some (.ofClass c) ∧
      ref = ⟨Image.primitiveCount + i⟩ := by
  unfold Outline.class?
  constructor
  · intro found
    split at found
    · cases found
    · next late =>
        split at found
        · next at_i =>
            cases found
            refine ⟨ref.index - Image.primitiveCount, at_i, ?_⟩
            cases ref with
            | mk place =>
                rw [TypeRef.mk.injEq]
                exact (Nat.add_sub_of_le (Nat.le_of_not_lt late)).symm
        · cases found
  · intro found
    rcases found with ⟨i, at_i, rfl⟩
    rw [if_neg (by simp), Nat.add_sub_cancel_left, at_i]

/-- The layout of the first class of a chain, made from the top of the chain down. -/
def layoutOf (outline : Outline) (chain : List (TypeRef × ClassOutline)) : Layout :=
  chain.foldr (fun entry base => base.extend outline.methodName entry.2) .empty

theorem packed_layoutOf (outline : Outline) (chain : List (TypeRef × ClassOutline)) :
    (outline.layoutOf chain).Packed := by
  induction chain with
  | nil => exact Layout.packed_empty
  | cons entry above ih => exact ih.extend outline.methodName entry.2

/-- The last method of a name that a class lists. -/
def lastNamed? (outline : Outline) (name : String) (c : ClassOutline) : Option MethodRef :=
  (c.methods.filter fun method => outline.methodName method == name).getLast?

/-- A name leads to what the first class on the chain lists that lists anything of that name. -/
theorem lookup_layoutOf (outline : Outline) (chain : List (TypeRef × ClassOutline))
    (name : String) :
    (outline.layoutOf chain).vtable.lookup name =
      chain.findSome? fun entry => outline.lastNamed? name entry.2 := by
  induction chain with
  | nil => rfl
  | cons entry above ih =>
      have extended := Layout.lookup_extend (outline.layoutOf above) outline.methodName entry.2 name
      rw [List.findSome?_cons, ← ih]
      refine extended.trans ?_
      unfold lastNamed?
      split
      · next found => rw [found]; rfl
      · next absent => rw [absent]; rfl

/-- The chain above a type: it ends at the first type that is no class or has no base. -/
inductive Chained (outline : Outline) : TypeRef → List (TypeRef × ClassOutline) → Prop where
  | outside {ref : TypeRef} : outline.class? ref = none → Chained outline ref []
  | top {ref : TypeRef} {c : ClassOutline} : outline.class? ref = some c → c.base = none →
      Chained outline ref [(ref, c)]
  | link {ref base : TypeRef} {c : ClassOutline} {above : List (TypeRef × ClassOutline)} :
      outline.class? ref = some c → c.base = some base → Chained outline base above →
      Chained outline ref ((ref, c) :: above)

theorem Chained.eq_nil {ref : TypeRef} {chain : List (TypeRef × ClassOutline)}
    (chained : outline.Chained ref chain) (outside : outline.class? ref = none) : chain = [] := by
  cases chained with
  | outside _ => rfl
  | top known _ => rw [outside] at known; cases known
  | link known _ _ => rw [outside] at known; cases known

theorem Chained.eq_singleton {ref : TypeRef} {chain : List (TypeRef × ClassOutline)}
    {c : ClassOutline} (chained : outline.Chained ref chain)
    (known : outline.class? ref = some c) (none : c.base = none) : chain = [(ref, c)] := by
  cases chained with
  | outside outside => rw [outside] at known; cases known
  | top known' _ => rw [known] at known'; cases known'; rfl
  | link known' has _ =>
      rw [known] at known'
      cases known'
      rw [none] at has
      cases has

theorem Chained.eq_cons {ref base : TypeRef} {chain : List (TypeRef × ClassOutline)}
    {c : ClassOutline} (chained : outline.Chained ref chain)
    (known : outline.class? ref = some c) (has : c.base = some base) :
    ∃ above, outline.Chained base above ∧ chain = (ref, c) :: above := by
  cases chained with
  | outside outside => rw [outside] at known; cases known
  | top known' none =>
      rw [known] at known'
      cases known'
      rw [has] at none
      cases none
  | link known' has' above =>
      rw [known] at known'
      cases known'
      rw [has] at has'
      cases has'
      exact ⟨_, above, rfl⟩

theorem Chained.head {ref : TypeRef} {chain : List (TypeRef × ClassOutline)}
    (chained : outline.Chained ref chain) {c : ClassOutline}
    (known : outline.class? ref = some c) : ∃ above, chain = (ref, c) :: above := by
  cases has : c.base with
  | none => exact ⟨[], chained.eq_singleton known has⟩
  | some base =>
      rcases chained.eq_cons known has with ⟨above, _, same⟩
      exact ⟨above, same⟩

theorem Chained.unique {ref : TypeRef} {chain chain' : List (TypeRef × ClassOutline)}
    (first : outline.Chained ref chain) (second : outline.Chained ref chain') :
    chain = chain' := by
  induction first generalizing chain' with
  | outside outside => exact (second.eq_nil outside).symm
  | top known none => exact (second.eq_singleton known none).symm
  | link known has _ ih =>
      rcases second.eq_cons known has with ⟨above, second', rfl⟩
      rw [ih second']

theorem Chained.classes {ref : TypeRef} {chain : List (TypeRef × ClassOutline)}
    (chained : outline.Chained ref chain) {entry : TypeRef × ClassOutline} (mem : entry ∈ chain) :
    outline.class? entry.1 = some entry.2 := by
  induction chained with
  | outside _ => cases mem
  | top known _ =>
      rw [List.mem_singleton.mp mem]
      exact known
  | link known _ _ ih =>
      cases mem with
      | head => exact known
      | tail _ mem => exact ih mem

theorem listed_of_lookup {chain : List (TypeRef × ClassOutline)} {name : String}
    {target : MethodRef} (entered : (outline.layoutOf chain).vtable.lookup name = some target) :
    ∃ link ∈ chain, target ∈ link.2.methods := by
  rw [lookup_layoutOf] at entered
  rcases List.exists_of_findSome?_eq_some entered with ⟨link, mem, last⟩
  exact ⟨link, mem, (List.mem_filter.mp (List.mem_of_getLast? last)).1⟩

def describeClass (outline : Outline) (c : ClassOutline)
    (chain : List (TypeRef × ClassOutline)) : ClassDescriptor :=
  c.describe (outline.layoutOf chain)

theorem Chained.part {ref : TypeRef} {chain : List (TypeRef × ClassOutline)}
    (chained : outline.Chained ref chain) {entry : TypeRef × ClassOutline} (mem : entry ∈ chain) :
    ∃ rest, outline.Chained entry.1 rest ∧ rest.length ≤ chain.length := by
  induction chained with
  | outside _ => cases mem
  | top known none =>
      rw [List.mem_singleton.mp mem]
      exact ⟨_, .top known none, Nat.le_refl _⟩
  | link known has above ih =>
      cases mem with
      | head => exact ⟨_, .link known has above, Nat.le_refl _⟩
      | tail _ mem =>
          rcases ih mem with ⟨rest, chained, short⟩
          exact ⟨rest, chained, Nat.le_succ_of_le short⟩

/-- A chain that comes to an end does not come back to a class. -/
theorem Chained.nodup {ref : TypeRef} {chain : List (TypeRef × ClassOutline)}
    (chained : outline.Chained ref chain) : (chain.map Prod.fst).Nodup := by
  induction chained with
  | outside _ => exact List.nodup_nil
  | top _ _ => exact List.nodup_singleton _
  | link known has above ih =>
      refine List.nodup_cons.mpr ⟨?_, ih⟩
      intro again
      rcases List.mem_map.mp again with ⟨entry, mem, same⟩
      rcases above.part mem with ⟨rest, chained, short⟩
      rw [same] at chained
      rw [chained.unique (.link known has above), List.length_cons] at short
      omega

theorem Chained.length_le {ref : TypeRef} {chain : List (TypeRef × ClassOutline)}
    (chained : outline.Chained ref chain) :
    chain.length ≤ Image.primitiveCount + outline.types.length := by
  have distinct : ((chain.map Prod.fst).map TypeRef.index).Nodup := by
    refine chained.nodup.map ?_
    intro ref ref' same
    cases ref
    cases ref'
    exact congrArg TypeRef.mk same
  have inside : (chain.map Prod.fst).map TypeRef.index ⊆
      List.range (Image.primitiveCount + outline.types.length) := by
    intro index mem
    rcases List.mem_map.mp mem with ⟨ref, mem', rfl⟩
    rcases List.mem_map.mp mem' with ⟨entry, on_chain, rfl⟩
    rcases class?_eq_some_iff.mp (chained.classes on_chain) with ⟨i, at_i, same⟩
    rw [same, List.mem_range]
    exact Nat.add_lt_add_left (List.getElem?_eq_some_iff.mp at_i).1 _
  have bound := (distinct.subperm inside).length_le
  rwa [List.length_map, List.length_map, List.length_range] at bound

end Outline
end ObjectMachine
