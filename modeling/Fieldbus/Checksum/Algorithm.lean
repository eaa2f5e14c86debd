import Fieldbus.Bytes
import Fieldbus.Checksum.Setting

/-!
# Named checksum algorithms

Most algorithms run over the header and the data; `addNoHeader`, `xorNoHeader` and the two vendor
variants see the data alone.  Sums are taken in the registers of a small device, eight bits wide, or
thirty-two for the pair of `xorAdd`.
-/

set_option autoImplicit false

namespace Fieldbus

/-- The named algorithms. -/
inductive Algorithm where
  /-- The low byte of the sum. -/
  | add
  /-- The exclusive or. -/
  | xor
  /-- The low byte of the sum of the data. -/
  | addNoHeader
  /-- The exclusive or of the data. -/
  | xorNoHeader
  /-- The exclusive or of the data and `0xB0`; the top bit is flipped when the first byte of the
  data is below `0x7C`. -/
  | vendorRx
  /-- The exclusive or of the data, the top bit flipped. -/
  | vendorTx
  /-- No checksum. -/
  | none
  /-- The exclusive or, and the low byte of the sum plus that exclusive or. -/
  | xorAdd
deriving DecidableEq, Repr

namespace Algorithm

/-- The name of an algorithm. -/
def name : Algorithm → String
  | add => "add"
  | xor => "xor"
  | addNoHeader => "add_no_header"
  | xorNoHeader => "xor_no_header"
  | vendorRx => "vendor_rx"
  | vendorTx => "vendor_tx"
  | none => "none"
  | xorAdd => "xor_add"

/-- All algorithms. -/
def all : List Algorithm :=
  [add, xor, addNoHeader, xorNoHeader, vendorRx, vendorTx, none, xorAdd]

/-- Second names of algorithms. -/
def aliases : List (String × Algorithm) := [("samsung_rx", vendorRx), ("samsung_tx", vendorTx)]

/-- The algorithm of a name or second name. -/
def ofName? (s : String) : Option Algorithm :=
  (all.map (fun a => (a.name, a)) ++ aliases).lookup s

/-- The slot an algorithm belongs into; `none` fits into either. -/
def width : Algorithm → ChecksumWidth
  | xorAdd => .two
  | _ => .one

/-- How many bytes an algorithm yields. -/
def length : Algorithm → Nat
  | none => 0
  | a => a.width.bytes

/-- The pair of `xorAdd`, gathered in one pass. -/
def xorAddBytes (bytes : Bytes) : Bytes :=
  let (sum, x) := bytes.foldl
    (fun (acc : UInt32 × UInt8) b => (acc.1 + UInt32.ofNat b.toNat, acc.2 ^^^ b)) (0, 0)
  [x, UInt8.ofNat (sum + UInt32.ofNat x.toNat).toNat]

/-- The checksum of a header and data. -/
def compute (a : Algorithm) (header data : Bytes) : Bytes :=
  match a with
  | add => [Bytes.sum (header ++ data)]
  | xor => [Bytes.xor (header ++ data)]
  | addNoHeader => [Bytes.sum data]
  | xorNoHeader => [Bytes.xor data]
  | vendorRx =>
    let x := data.foldl (· ^^^ ·) 0xB0
    match data with
    | first :: _ => [if first < 0x7C then x ^^^ 0x80 else x]
    | [] => [x]
  | vendorTx => [Bytes.xor data ^^^ 0x80]
  | none => []
  | xorAdd => xorAddBytes (header ++ data)

/-- An algorithm yields as many bytes as it announces. -/
theorem length_compute (a : Algorithm) (header data : Bytes) :
    (a.compute header data).length = a.length := by
  cases a with
  | vendorRx => cases data <;> rfl
  | _ => rfl

end Algorithm
end Fieldbus
