import ObjectMachine.Error
import ObjectMachine.Image.Binary.Writer
import ObjectMachine.Image.Source.Writer

/-!
# Images in either format

Bytes that start with the magic are a binary image; all others are a text in UTF-8. A text is
decoded as a whole before its first line is read.
-/

namespace ObjectMachine
namespace Image

inductive Format where
  | text
  | binary
  deriving DecidableEq, Repr

def ofTextBytes (bytes : List UInt8) : Except Error Image :=
  match String.fromUTF8? ⟨bytes.toArray⟩ with
  | none => .error (.io .notUtf8)
  | some source => (Source.read source.toList).mapError .image

def ofBinaryBytes (bytes : List UInt8) : Except Error Image :=
  Binary.read bytes

def formatOf (bytes : List UInt8) : Format :=
  if Binary.hasMagic bytes then .binary else .text

def ofBytes (bytes : List UInt8) : Except Error Image :=
  match formatOf bytes with
  | .binary => ofBinaryBytes bytes
  | .text => ofTextBytes bytes

def toBytes (format : Format) (image : Image) : Except Error (List UInt8) :=
  match format with
  | .binary => (Binary.write image).mapError .image
  | .text =>
      match Source.write image with
      | .ok text => .ok (String.ofList text).toUTF8.toList
      | .error fault => .error (.image fault)

end Image
end ObjectMachine
