import DatabaseClient.Socket.Multiplexed
import DatabaseClient.Socket.OneShot

set_option autoImplicit false

namespace DatabaseClient.Socket

inductive Strategy where
  | multiplexed
  | oneShot
deriving DecidableEq

namespace Strategy

def name : Strategy → String
  | .multiplexed => "Selector"
  | .oneShot => "Epoll"

/-- One-shot waits, where the kernel lets a multiplexor for them be created. -/
def available (kernel : Kernel) : Strategy :=
  if kernel.creation = 0 then .oneShot else .multiplexed

def standard : Strategy := available (.fresh [])

def run {σ α : Type} (strategy : Strategy) (operation : Operation Interest σ α)
    (descriptor : Descriptor) (timeout : Option Duration) (state : σ) (kernel : Kernel) :
    Report α :=
  match strategy with
  | .multiplexed => Multiplexed.run operation descriptor timeout state kernel
  | .oneShot => OneShot.run operation descriptor timeout state kernel

end Strategy

end DatabaseClient.Socket
