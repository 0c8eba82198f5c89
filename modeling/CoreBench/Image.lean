import CoreBench.Config.Arch
import CoreBench.Text.Split

/-!
The memory image of a program: its machine code as pairs of an address and a word,
in the place that a template marks. A pair at the highest address ends the image.
-/

namespace CoreBench.Image

structure NoMarker where
  deriving DecidableEq, Repr

def marker : List Char := "##DATAARRAY".toList

def NoMarker.message (_ : NoMarker) : String :=
  s!"template has no {String.ofList marker} marker"

/-- The whole blocks of `size` bytes; what is left over is dropped. -/
def blocks (size : Nat) : Nat → List UInt8 → List (List UInt8)
  | 0, _ => []
  | count + 1, code => code.take size :: blocks size count (code.drop size)

def hexBytes (bytes : List UInt8) : String :=
  String.join (bytes.map fun byte => Text.hexUpper 2 byte.toNat)

/-- The bytes of a block with the most significant one first. -/
def ordered (order : ByteOrder) (block : List UInt8) : List UInt8 :=
  match order with
  | .big => block
  | .little => block.reverse

def entry (address word : String) : String :=
  s!"\t\t\tipif_addr_data_pair_format(x\"{address}\", x\"{word}\")"

/-- The entries of the program followed by the one that ends the image. -/
def render (arch : Arch) (code : List UInt8) : String :=
  let size := max arch.instrBytes 1
  let words := blocks size (code.length / size) code
  let body := words.mapIdx fun n block =>
    entry (Text.hexUpper 8 (n * size)) (hexBytes (ordered arch.byteOrder block)) ++ ",\n"
  String.join body ++ entry "FFFFFFFF" (hexBytes (List.replicate size 0)) ++ "\n"

/-- Puts the image in every place that the template marks. -/
def fill (template image : String) : Except NoMarker String :=
  if Text.contains marker template.toList then
    .ok (String.ofList (Text.replace marker image.toList template.toList))
  else .error {}

end CoreBench.Image
