/-!
# Big-endian words

Words of four bytes, the most significant first. Images and the object memory both store
their numbers this way. The bytes of a word are its digits to the base 256.
-/

namespace ObjectMachine
namespace Word

def ofBytes (b₀ b₁ b₂ b₃ : UInt8) : UInt32 :=
  UInt32.ofNat (((b₀.toNat * 256 + b₁.toNat) * 256 + b₂.toNat) * 256 + b₃.toNat)

/-- A byte of a word, counted from the most significant. -/
def byte (word : UInt32) (i : Nat) : UInt8 :=
  UInt8.ofNat (word.toNat >>> (8 * (3 - i)))

def bytes (word : UInt32) : List UInt8 :=
  [byte word 0, byte word 1, byte word 2, byte word 3]

@[simp] theorem length_bytes (word : UInt32) : (bytes word).length = 4 := rfl

@[simp] theorem ofBytes_byte (word : UInt32) :
    ofBytes (byte word 0) (byte word 1) (byte word 2) (byte word 3) = word := by
  have h := word.toNat_lt
  apply UInt32.toNat.inj
  simp only [ofBytes, byte, UInt8.toNat_ofNat', UInt32.toNat_ofNat']
  omega

/-!
## Characters
-/

/-- The character with a code point, if it is a scalar value. -/
def toChar? (word : UInt32) : Option Char :=
  if h : word.isValidChar then some ⟨word, h⟩ else none

@[simp] theorem toChar?_val (c : Char) : toChar? c.val = some c := by
  simp [toChar?, c.valid]

end Word
end ObjectMachine
