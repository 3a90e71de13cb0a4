/-!
# The free list

Free space is a list of extents. Taking space goes to the first extent that is large enough and
cuts the block off its front; what is left stays in place, unless it is too small to be of use and
goes with the block. Returned space is added at the end. Compacting sorts the extents by address
and joins those that touch.
-/

namespace ObjectMachine

structure Extent where
  /-- The position of the first byte. -/
  addr : Nat
  size : Nat
  deriving DecidableEq, Repr, Inhabited

namespace Extent

def limit (extent : Extent) : Nat :=
  extent.addr + extent.size

def le (a b : Extent) : Bool :=
  a.addr < b.addr || (a.addr == b.addr && a.size ≤ b.size)

end Extent

/-- What taking space yields: the block, and what is left of the extent it was cut from. -/
structure Taken where
  block : Extent
  /-- What is left, if the extent was not used up. -/
  rest : Option Extent
  deriving DecidableEq, Repr

/-- The free extents, in the order in which they came. -/
structure FreeList where
  extents : Array Extent
  deriving DecidableEq, Repr

namespace FreeList

def empty : FreeList := ⟨#[]⟩

instance : Inhabited FreeList := ⟨empty⟩

/-- The extents as a list, in their order. -/
def toList (list : FreeList) : List Extent :=
  list.extents.toList

def ofList (extents : List Extent) : FreeList :=
  ⟨extents.toArray⟩

@[simp] theorem toList_ofList (extents : List Extent) : (ofList extents).toList = extents := rfl

@[simp] theorem ofList_toList (list : FreeList) : ofList list.toList = list := rfl

def insert (list : FreeList) (extent : Extent) : FreeList :=
  ⟨list.extents.push extent⟩

@[simp] theorem toList_insert (list : FreeList) (extent : Extent) :
    (list.insert extent).toList = list.toList ++ [extent] := by
  simp [toList, insert]

def freeBytes (list : FreeList) : Nat :=
  list.toList.foldr (fun extent total => extent.size + total) 0

def length (list : FreeList) : Nat :=
  list.extents.size

/-- The first extent of at least the given size gives up its front. A leftover below the least
useful size goes with the block. -/
def takeFrom (size least : Nat) : List Extent → Option (Taken × List Extent)
  | [] => none
  | extent :: rest =>
      if size ≤ extent.size then
        let left : Extent := ⟨extent.addr + size, extent.size - size⟩
        if left.size < least then
          some (⟨extent, none⟩, rest)
        else
          some (⟨⟨extent.addr, size⟩, some left⟩, left :: rest)
      else
        (takeFrom size least rest).map fun (taken, rest) => (taken, extent :: rest)

def take? (list : FreeList) (size least : Nat) : Option (Taken × FreeList) :=
  (takeFrom size least list.toList).map fun (taken, extents) => (taken, ofList extents)

/-- An extent, joined with those after it as long as they touch, and the joined rest. -/
def coalesceFrom (last : Extent) : List Extent → List Extent
  | [] => [last]
  | extent :: rest =>
      if last.limit = extent.addr then
        coalesceFrom ⟨last.addr, last.size + extent.size⟩ rest
      else
        last :: coalesceFrom extent rest

def coalesce : List Extent → List Extent
  | [] => []
  | extent :: rest => coalesceFrom extent rest

def compact (list : FreeList) : FreeList :=
  ofList (coalesce (list.toList.mergeSort Extent.le))

end FreeList
end ObjectMachine
