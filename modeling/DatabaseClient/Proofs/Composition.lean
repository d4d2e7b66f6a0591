import DatabaseClient.Proofs.Statement.Policy
import DatabaseClient.Proofs.Timeouts

set_option autoImplicit false

namespace DatabaseClient

namespace Statement.Policy

def keys : List String := ["prepare_threshold", "prepared_max"]

/-- The later policy in what the pairs set, and the earlier one in the rest. -/
def overlay (pairs : List (String × String)) (earlier later : Policy) : Policy where
  threshold := if pairs.any (·.1 = "prepare_threshold") then later.threshold else earlier.threshold
  capacity := if pairs.any (·.1 = "prepared_max") then later.capacity else earlier.capacity

theorem set_unknown (pair : String × String) (unknown : pair.1 ∉ keys) (policy : Policy) :
    policy.set pair = .ok policy := by
  obtain ⟨key, value⟩ := pair
  simp only [keys, List.mem_cons, List.not_mem_nil, or_false, not_or] at unknown
  simp [set, unknown]

theorem carried (pairs : List (String × String)) (earlier alone later : Policy)
    (first : pairs.foldlM set standard = .ok alone)
    (second : pairs.foldlM set earlier = .ok later) :
    later = overlay pairs earlier alone := by
  have threshold := setsThreshold.override first second
  have capacity := setsCapacity.override first second
  cases later
  simp_all [overlay]

end Statement.Policy

namespace Timeouts

def keys : List String := ["wait_timeout", "connect_timeout"]

def overlay (pairs : List (String × String)) (earlier later : Timeouts) : Timeouts where
  polling := if pairs.any (·.1 = "wait_timeout") then later.polling else earlier.polling
  connecting := if pairs.any (·.1 = "connect_timeout") then later.connecting else earlier.connecting

theorem set_unknown (pair : String × String) (unknown : pair.1 ∉ keys) (timeouts : Timeouts) :
    timeouts.set pair = .ok timeouts := by
  obtain ⟨key, value⟩ := pair
  simp only [keys, List.mem_cons, List.not_mem_nil, or_false, not_or] at unknown
  simp [set, unknown]

theorem carried (pairs : List (String × String)) (earlier alone later : Timeouts)
    (first : pairs.foldlM set unlimited = .ok alone)
    (second : pairs.foldlM set earlier = .ok later) : later = overlay pairs earlier alone := by
  have polling := setsPolling.override first second
  have connecting := setsConnecting.override first second
  cases later
  simp_all [overlay]

end Timeouts

namespace Parameters

open Statement (Policy)

/-- Of two strings that are put together the first one's failure comes first, then the second one's.
If both can be read, the second prevails in what it sets. A piece that is put in behind an ampersand
changes nothing if it is empty or its key is unknown; the policy does not know the keys of the
timeouts, nor these those. -/
theorem ofParameters_join (a b : String) :
    (b.toList.head? ≠ some '?' →
      (Policy.ofParameters (a ++ "&" ++ b) = do
        let earlier ← Policy.ofParameters a
        let later ← Policy.ofParameters b
        return Policy.overlay (pairs b) earlier later) ∧
      (Timeouts.ofParameters (a ++ "&" ++ b) = do
        let earlier ← Timeouts.ofParameters a
        let later ← Timeouts.ofParameters b
        return Timeouts.overlay (pairs b) earlier later)) ∧
    (∀ piece : String, '&' ∉ piece.toList →
      (piece = "" ∨ (pair piece.toList).1 ∉ Policy.keys →
        Policy.ofParameters (a ++ "&" ++ piece ++ "&" ++ b) = Policy.ofParameters (a ++ "&" ++ b)) ∧
      (piece = "" ∨ (pair piece.toList).1 ∉ Timeouts.keys →
        Timeouts.ofParameters (a ++ "&" ++ piece ++ "&" ++ b) =
          Timeouts.ofParameters (a ++ "&" ++ b))) ∧
    ∀ key, key ∈ Policy.keys → key ∉ Timeouts.keys := by
  refine ⟨fun plain => ⟨?_, ?_⟩, fun piece single => ⟨fun idle => ?_, fun idle => ?_⟩, by decide⟩
  next => exact foldlM_join Policy.failure_set Policy.carried a plain
  next => exact foldlM_join Timeouts.failure_set Timeouts.carried a plain
  next => exact foldlM_unknown Policy.set_unknown _ a b single idle
  next => exact foldlM_unknown Timeouts.set_unknown _ a b single idle

theorem ofParameters_join_overlap :
    "prepared_max=1&wait_timeout=0".toList.head? ≠ some '?' ∧
    Policy.ofParameters ("?prepare_threshold=3&wait_timeout=2.5" ++ "&" ++
      "prepared_max=1&wait_timeout=0") = .ok ⟨some 3, 1⟩ ∧
    Timeouts.ofParameters ("?prepare_threshold=3&wait_timeout=2.5" ++ "&" ++
      "prepared_max=1&wait_timeout=0") = .ok ⟨none, none⟩ := by
  have plain : "prepared_max=1&wait_timeout=0".toList.head? ≠ some '?' := by decide
  obtain ⟨joined, -⟩ :=
    ofParameters_join "?prepare_threshold=3&wait_timeout=2.5" "prepared_max=1&wait_timeout=0"
  obtain ⟨policy, timeouts⟩ := joined plain
  exact ⟨plain, policy.trans (by decide +kernel), timeouts.trans (by decide +kernel)⟩

end Parameters

end DatabaseClient
