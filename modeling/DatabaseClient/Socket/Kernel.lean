import DatabaseClient.Duration
import DatabaseClient.Socket.Operation

/-!
The kernel beneath a wait: a clock, the events still to come, the registered descriptors and the
answers to come from registration calls. Time is counted in microseconds from the start of a run
and passes only while something is waited for.
-/

set_option autoImplicit false

namespace DatabaseClient.Socket

inductive Signal where
  | event (mask : EventMask)
  | failure (errno : Nat)
deriving DecidableEq

structure Arrival where
  delay : Nat
  signal : Signal
deriving DecidableEq

structure Watch where
  interest : Interest
  oneShot : Bool
deriving DecidableEq

inductive Control where
  | add (descriptor : Descriptor) (watch : Watch)
  | modify (descriptor : Descriptor) (watch : Watch)
  | remove (descriptor : Descriptor)
deriving DecidableEq

structure Kernel where
  -- The error that creating a multiplexor ends with; zero for none.
  creation : Nat
  clock : Nat
  -- The delay of the first one is counted from now.
  arrivals : List Arrival
  registered : List Descriptor
  -- Errors that the coming registration calls end with whatever they ask; zero for none.
  faults : List Nat
  -- How many more polls may come back empty.
  patience : Nat
deriving DecidableEq

namespace Kernel

/-- Nothing is registered, and forty polls may come back empty. -/
def fresh (arrivals : List Arrival) : Kernel :=
  { creation := 0, clock := 0, arrivals, registered := [], faults := [], patience := 40 }

def verdict (kernel : Kernel) : Control → Nat
  | .add descriptor _ =>
    if descriptor < 0 then Errno.badDescriptor
    else if descriptor ∈ kernel.registered then Errno.alreadyRegistered else 0
  | .modify descriptor _ | .remove descriptor =>
    if descriptor < 0 then Errno.badDescriptor
    else if descriptor ∈ kernel.registered then 0 else Errno.notRegistered

def answer (kernel : Kernel) (call : Control) : Nat :=
  match kernel.faults with
  | 0 :: _ | [] => kernel.verdict call
  | errno :: _ => errno

def control (kernel : Kernel) (call : Control) : Kernel :=
  let registered :=
    if kernel.answer call = 0 then
      match call with
      | .add descriptor _ => descriptor :: kernel.registered
      | .modify _ _ => kernel.registered
      | .remove descriptor => kernel.registered.erase descriptor
    else kernel.registered
  { kernel with registered, faults := kernel.faults.drop 1 }

def deliver (kernel : Kernel) (first : Arrival) (rest : List Arrival) : Kernel :=
  { kernel with clock := kernel.clock + first.delay, arrivals := rest }

def idle (kernel : Kernel) (time : Nat) : Kernel :=
  { kernel with
    clock := kernel.clock + time
    arrivals := match kernel.arrivals with
      | [] => []
      | first :: rest => { first with delay := first.delay - time } :: rest
    patience := kernel.patience - 1 }

/-- A poll that runs out of time: it ends with nothing, or not at all once the patience is used
up. -/
def runOut (kernel : Kernel) (ms : Nat) : Option (Option Signal × Kernel) :=
  if kernel.patience = 0 then none else some (none, kernel.idle (1000 * ms))

def poll (kernel : Kernel) (limit : Option Nat) : Option (Option Signal × Kernel) :=
  match kernel.arrivals, limit with
  | [], none => none
  | [], some ms => kernel.runOut ms
  | first :: rest, none => some (some first.signal, kernel.deliver first rest)
  | first :: rest, some ms =>
    if first.delay ≤ 1000 * ms then some (some first.signal, kernel.deliver first rest)
    else kernel.runOut ms

def supply (kernel : Kernel) : Nat := kernel.arrivals.length + kernel.patience

@[simp] theorem supply_control (kernel : Kernel) (call : Control) :
    (kernel.control call).supply = kernel.supply := rfl

theorem supply_runOut {kernel later : Kernel} {ms : Nat} {signal : Option Signal}
    (h : kernel.runOut ms = some (signal, later)) : later.supply < kernel.supply := by
  unfold runOut at h
  split at h
  next => simp at h
  next left =>
    cases h
    cases h : kernel.arrivals <;> simp [supply, idle, h] <;> omega

theorem supply_poll {kernel later : Kernel} {limit : Option Nat} {signal : Option Signal}
    (h : kernel.poll limit = some (signal, later)) : later.supply < kernel.supply := by
  unfold poll at h
  split at h
  next => simp at h
  next => exact supply_runOut h
  next _ _ arrivals => cases h; simp [supply, deliver, arrivals]
  next _ _ _ arrivals =>
    split at h
    next => cases h; simp [supply, deliver, arrivals]
    next => exact supply_runOut h

/-- The clock reaches the end of a span that begins at `start`. It counts the nanoseconds of 2^63
seconds and no more. -/
def reaches (start : Nat) (d : Duration) : Bool :=
  1000 * start + d.nanos < UInt64.size / 2 * 1000000000

end Kernel

def longestPoll : Nat := 2147483647

/-- The limit of a poll that is to take so many nanoseconds: parts of a millisecond count as a
whole one, so that a short poll is no busy loop. -/
def pollLimit (nanos : Nat) : Nat :=
  min ((nanos + 999999) / 1000000) longestPoll

end DatabaseClient.Socket
