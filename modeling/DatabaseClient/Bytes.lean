set_option autoImplicit false

namespace DatabaseClient

abbrev Bytes := List UInt8

namespace Bytes

def ofAscii (text : String) : Bytes :=
  text.toList.map fun c => UInt8.ofNat c.toNat

def decimal (n : Nat) : Bytes :=
  ofAscii n.repr

/-- Space, tab, newline, carriage return and form feed. Vertical tab is no blank. -/
def isBlank (b : UInt8) : Bool :=
  b == 0x20 || b == 0x09 || b == 0x0A || b == 0x0D || b == 0x0C

def firstWord (bytes : Bytes) : Bytes :=
  bytes.takeWhile (!isBlank ·)

end Bytes

end DatabaseClient
