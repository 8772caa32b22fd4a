namespace GameText

abbrev Bytes := List UInt8

namespace Bytes

def byteOf? (value : Int) : Option UInt8 :=
  if 0 ≤ value ∧ value < 256 then some (UInt8.ofNat value.toNat) else none

-- Callers compare the number with the width; a larger number is cut here.
def littleEndian : Nat → Nat → Bytes
  | 0, _ => []
  | width + 1, value => UInt8.ofNat (value % 256) :: littleEndian width (value / 256)

def ofLittleEndian : Bytes → Nat
  | [] => 0
  | byte :: rest => byte.toNat + 256 * ofLittleEndian rest

-- A position before the data counts from the end of the data.
def place (data : Bytes) (position : Int) : Int :=
  if position < 0 then position + data.length else position

def at? (data : Bytes) (position : Int) : Option UInt8 :=
  if 0 ≤ place data position then data[(place data position).toNat]? else none

def slice (data : Bytes) (start stop : Int) : Bytes :=
  (data.take (place data stop).toNat).drop (place data start).toNat

end Bytes
end GameText
