import ObjectMachine.Linking.Code
import ObjectMachine.Log

/-!
# The record of linking

Linking records each layout when it is made, and the image when it is done. An image that is
refused on the way leaves the record of the layouts that were made before.
-/

namespace ObjectMachine
namespace Image

def layoutEvents (outline : Outline) : List Event :=
  outline.layoutOrder.map fun (_, c) =>
    .classLaidOut c.name c.fields.length c.size c.vtable.length

def linkEvents (image : Image) : List Event :=
  match image.outline with
  | .error _ => []
  | .ok outline =>
      let layouts := layoutEvents outline
      match image.link with
      | .error _ => layouts
      | .ok program =>
          layouts ++
            [.imageLinked image.types.length image.methods.length (program.strings.size - 1)]

end Image
end ObjectMachine
