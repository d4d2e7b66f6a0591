set_option autoImplicit false

namespace DatabaseClient.Socket

structure Readiness where
  read : Bool
  write : Bool
deriving DecidableEq

inductive Interest where
  | read
  | write
  | both
deriving DecidableEq

namespace Interest

def reads : Interest → Bool
  | .read | .both => true
  | .write => false

def writes : Interest → Bool
  | .write | .both => true
  | .read => false

def readiness (interest : Interest) : Readiness := ⟨interest.reads, interest.writes⟩

def name : Interest → String
  | .read => "Read"
  | .write => "Write"
  | .both => "ReadWrite"

def letters : Interest → String
  | .read => "R"
  | .write => "W"
  | .both => "RW"

end Interest

namespace Readiness

def none : Readiness := ⟨false, false⟩

def isEmpty (r : Readiness) : Bool := !r.read && !r.write

def union (a b : Readiness) : Readiness := ⟨a.read || b.read, a.write || b.write⟩

def inter (a b : Readiness) : Readiness := ⟨a.read && b.read, a.write && b.write⟩

def meets (r : Readiness) (interest : Interest) : Bool :=
  r.read && interest.reads || r.write && interest.writes

def display : Readiness → String
  | ⟨true, true⟩ => "Ready(RW)"
  | ⟨true, false⟩ => "Ready(R)"
  | ⟨false, true⟩ => "Ready(W)"
  | ⟨false, false⟩ => "Ready(-)"

end Readiness

abbrev EventMask := UInt32

namespace EventMask

def input : EventMask := 0x1
def priority : EventMask := 0x2
def output : EventMask := 0x4
def error : EventMask := 0x8
def hangUp : EventMask := 0x10
def oneShot : EventMask := 0x40000000

def has (mask bits : EventMask) : Bool := mask &&& bits != 0

def armed (interest : Interest) : EventMask :=
  oneShot ||| (if interest.reads then input else 0) ||| (if interest.writes then output else 0)

/-- Every bit but the writer's wakes the reader, and every bit but the reader's the writer. -/
def bySide (mask : EventMask) : Readiness :=
  ⟨mask.has (~~~output), mask.has (~~~input)⟩

def byFlag (mask : EventMask) : Readiness :=
  ⟨mask.has (input ||| priority ||| hangUp ||| error), mask.has (output ||| hangUp ||| error)⟩

/-- A hang-up wakes both sides. An error wakes the writer, if nothing else is reported. -/
def byReactor (mask : EventMask) : Readiness :=
  ⟨mask.has (input ||| priority ||| hangUp), mask.has (output ||| hangUp) || mask == error⟩

end EventMask

end DatabaseClient.Socket
