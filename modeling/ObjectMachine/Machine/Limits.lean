/-!
# Limits

The resources of a machine, fixed when it is made.
-/

namespace ObjectMachine

structure Limits where
  heapSize : Nat
  callDepth : Nat
  /-- The number of values on the stack of a frame. -/
  stackCapacity : Nat
  deriving DecidableEq, Repr

def Limits.default : Limits where
  heapSize := 1048576
  callDepth := 1024
  stackCapacity := 256

instance : Inhabited Limits := ⟨Limits.default⟩

end ObjectMachine
