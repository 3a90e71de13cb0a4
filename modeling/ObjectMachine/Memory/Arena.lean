import ObjectMachine.Word

/-!
# The arena

The bytes in which all objects live. Words are stored big-endian at any position. Access is
bounded: a word that does not lie in the arena as a whole cannot be read, and writing it does
nothing; the callers look before they write.
-/

namespace ObjectMachine

structure Arena where
  bytes : Array UInt8
  deriving DecidableEq, Repr, Inhabited

namespace Arena

def zeros (size : Nat) : Arena :=
  ⟨Array.replicate size 0⟩

def size (arena : Arena) : Nat :=
  arena.bytes.size

def byte? (arena : Arena) (pos : Nat) : Option UInt8 :=
  arena.bytes[pos]?

def word? (arena : Arena) (pos : Nat) : Option UInt32 :=
  if h : pos + 4 ≤ arena.bytes.size then
    some (Word.ofBytes arena.bytes[pos] arena.bytes[pos + 1] arena.bytes[pos + 2]
      arena.bytes[pos + 3])
  else
    none

def setByte (arena : Arena) (pos : Nat) (b : UInt8) : Arena :=
  ⟨arena.bytes.setIfInBounds pos b⟩

def setWord (arena : Arena) (pos : Nat) (word : UInt32) : Arena :=
  ⟨(((arena.bytes.setIfInBounds pos (Word.byte word 0)).setIfInBounds
    (pos + 1) (Word.byte word 1)).setIfInBounds
    (pos + 2) (Word.byte word 2)).setIfInBounds
    (pos + 3) (Word.byte word 3)⟩

def clear (arena : Arena) (pos : Nat) : Nat → Arena
  | 0 => arena
  | count + 1 => clear (arena.setByte pos 0) (pos + 1) count

@[simp] theorem size_setByte (arena : Arena) (pos : Nat) (b : UInt8) :
    (arena.setByte pos b).size = arena.size := by
  simp [size, setByte]

@[simp] theorem size_setWord (arena : Arena) (pos : Nat) (word : UInt32) :
    (arena.setWord pos word).size = arena.size := by
  simp [size, setWord]

/-!
## The top bit of a byte

The mark of a block is the top bit of one byte of its header. The bytes whose top bit is clear are
what marking uses up.
-/

/-- The number of bytes whose top bit is clear. -/
def clearTops (arena : Arena) : Nat :=
  arena.bytes.countP (· < 128)

def setTop (arena : Arena) (pos : Nat) : Arena :=
  match arena.bytes[pos]? with
  | some b => if b < 128 then arena.setByte pos (b + 128) else arena
  | none => arena

def clearTop (arena : Arena) (pos : Nat) : Arena :=
  match arena.bytes[pos]? with
  | some b => if b < 128 then arena else arena.setByte pos (b - 128)
  | none => arena

theorem clearTops_setTop {arena : Arena} {pos : Nat} {b : UInt8}
    (hb : arena.bytes[pos]? = some b) (clear : b < 128) :
    (arena.setTop pos).clearTops + 1 = arena.clearTops := by
  obtain ⟨h, rfl⟩ := Array.getElem?_eq_some_iff.mp hb
  have high : ¬ arena.bytes[pos] + 128 < 128 := by
    have top : (128 : UInt8).toNat = 128 := rfl
    rw [UInt8.lt_iff_toNat_lt, top] at clear
    rw [UInt8.lt_iff_toNat_lt, UInt8.toNat_add, top]
    omega
  have positive : 0 < arena.bytes.countP (· < 128) :=
    Array.countP_pos_iff.mpr ⟨_, Array.getElem_mem h, decide_eq_true clear⟩
  have counted := Array.countP_set (p := (· < 128)) (a := arena.bytes[pos] + 128) h
  rw [if_pos (decide_eq_true clear), if_neg (by rw [decide_eq_false high]; decide)] at counted
  have stored : arena.setTop pos = ⟨arena.bytes.set pos (arena.bytes[pos] + 128)⟩ := by
    rw [setTop, hb]
    show (if arena.bytes[pos] < 128 then arena.setByte pos (arena.bytes[pos] + 128) else arena) = _
    rw [if_pos clear, setByte, Array.setIfInBounds, dif_pos h]
  rw [stored]
  show (arena.bytes.set pos (arena.bytes[pos] + 128)).countP (· < 128) + 1 = _
  rw [counted, clearTops]
  omega

end Arena
end ObjectMachine
