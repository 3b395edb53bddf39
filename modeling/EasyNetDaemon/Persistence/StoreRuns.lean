import EasyNetDaemon.Admission.PolicyEngine
import EasyNetDaemon.Persistence.PolicyLifecycle

/-!
# The journal and the decisions over a run of the store

Calls whose writes may fail, and re-opens, in any order on a fresh store. The journal only grows and
is a numbered hash chain in every state. For the policy engine a revoked or consumed grant is not
there: every decision on the store's grants is the one without it.
-/

namespace EasyNetDaemon.Persistence

open Library EasyNetDaemon.Core Admission

section Runs

variable {env : Environment} {owner : String} {r r' : Running} {J : List JournalRecord}

variable {moves : List Move} {now : Instant} {m n : Nat}

/-- Move `m` of the run revokes the grant, or consumes it. -/
def EndsGrant (env : Environment) (owner : String) (r : Running) (moves : List Move) (m : Nat)
    (grantId : String) : Prop :=
  (∃ grantOwner reason reply,
      Returns env owner r moves m (.revokeGrant grantId grantOwner reason) reply) ∨
    ∃ grant, Returns env owner r moves m (.consumeOnceGrantIfApplicable grantId)
      (.consumedGrant (some grant))

theorem EndsGrant.inactive {grantId : String} (hopen : openOrCreateAt env owner now .empty = .ok r)
    (hended : EndsGrant env owner r moves m grantId) (hmn : m < n)
    (hreach : Reaches env owner r moves n r') :
    ∃ grant, r'.store.maps.grants[grantId]? = some grant ∧ grant.state ≠ .active := by
  rcases hended with
    ⟨_, _, _, r₁, allowed, call, hr₁, hmove, hop, hreply⟩ |
      ⟨_, r₁, allowed, call, hr₁, hmove, hop, hreply⟩
  · obtain ⟨J, hc⟩ := hr₁.consistent hopen
    obtain ⟨grant, hgrant, hstate⟩ := hc.revoked hop hreply
    exact ((reaches_succ hr₁ hmove).lags hopen hmn hreach).grants grantId grant hgrant hstate
  · obtain ⟨J, hc⟩ := hr₁.consistent hopen
    obtain ⟨-, grant, hgrant, hstate⟩ := hc.consumed hop hreply
    exact ((reaches_succ hr₁ hmove).lags hopen hmn hreach).grants grantId grant hgrant hstate

/-- Grants that are not active do not take part in a decision. -/
theorem check_filter_of_inactive {parse : String → Option Instant} {input : PolicyInput}
    {keep : PermissionGrant → Bool}
    (h : ∀ grant ∈ input.grants, keep grant = false → grant.state ≠ .active) :
    PolicyEngine.check parse { input with grants := input.grants.filter keep } =
      PolicyEngine.check parse input := by
  refine PolicyEngine.check_congr_matching fun user effect _ p => ?_
  have hfilters : (input.grants.filter keep).filter
        (passesFilters parse (PolicyEngine.grantMatchInput input user) effect) =
      input.grants.filter
        (passesFilters parse (PolicyEngine.grantMatchInput input user) effect) := by
    rw [List.filter_filter]
    refine List.filter_congr fun grant hgrant => ?_
    cases hkeep : keep grant with
    | true => rw [Bool.and_true]
    | false =>
      have hstate := h grant hgrant hkeep
      simp [passesFilters, PermissionGrant.activeAt, hstate]
  rw [matchingGrants, matchingGrants, candidates, candidates, hfilters]

/-- Once a grant was revoked or consumed, every later decision on the grants of the store, after any
further calls, failed writes and re-opens, is the decision without this grant. -/
theorem ended_grant_decides_nothing {grantId : String}
    (hopen : openOrCreateAt env owner now .empty = .ok r)
    (hended : EndsGrant env owner r moves m grantId) (hmn : m < n)
    (hreach : Reaches env owner r moves n r') (input : PolicyInput)
    (hgrants : input.grants = r'.store.maps.grants.values) :
    PolicyEngine.check env.parseRfc3339
        { input with grants := input.grants.filter fun grant => grant.grantId ≠ grantId } =
      PolicyEngine.check env.parseRfc3339 input := by
  obtain ⟨J, hc⟩ := hreach.consistent hopen
  obtain ⟨ended, hentry, hstate⟩ := hended.inactive hopen hmn hreach
  refine check_filter_of_inactive fun grant hgrant hid => ?_
  -- grants are stored under their ids, so the filter drops the ended one only
  rw [hgrants] at hgrant
  obtain ⟨key, hkey⟩ := Table.mem_values_iff.1 hgrant
  have hid : grant.grantId = grantId := by simpa using hid
  rw [← hc.keyed.grants key grant hkey, hid] at hkey
  cases hentry.symm.trans hkey
  exact hstate

end Runs

/-- Alice approves bob's request with a grant and revokes it. -/
def approvalThenRevocation : List Call := approval ++ [revocation]

theorem ended_grant_decides_nothing_revocation :
    let after := runCalls sampleEnvironment aliceStore approvalThenRevocation
    EndsGrant sampleEnvironment alice aliceStore (undisturbed approvalThenRevocation) 2 "grant-1" ∧
      PolicyEngine.check sampleEnvironment.parseRfc3339
          (PolicyEngine.botInput (after.store.maps.grants.values.filter
            fun grant => grant.grantId ≠ "grant-1")) =
        PolicyEngine.check sampleEnvironment.parseRfc3339
          (PolicyEngine.botInput after.store.maps.grants.values) := by
  have hok : (run sampleEnvironment none (runCalls sampleEnvironment aliceStore approval)
      revocation).2.toOption.isSome = true := by decide +kernel
  obtain ⟨reply, hreply⟩ : ∃ reply, (run sampleEnvironment none
      (runCalls sampleEnvironment aliceStore approval) revocation).2 = .ok reply := by
    generalize (run sampleEnvironment none _ revocation).2 = result at hok
    cases result with
    | error e => cases hok
    | ok reply => exact ⟨reply, rfl⟩
  have hended : EndsGrant sampleEnvironment alice aliceStore (undisturbed approvalThenRevocation) 2
      "grant-1" :=
    Or.inl ⟨alice, none, reply, _, none, revocation,
      reaches_undisturbed sampleEnvironment alice aliceStore approvalThenRevocation 2, rfl, rfl,
      hreply⟩
  exact ⟨hended, ended_grant_decides_nothing openOrCreateAt_alice hended (Nat.lt_succ_self 2)
    (reaches_undisturbed sampleEnvironment alice aliceStore approvalThenRevocation 3)
    (PolicyEngine.botInput _) rfl⟩

end EasyNetDaemon.Persistence
