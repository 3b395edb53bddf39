import EasyNetDaemon.Library.JsonValue
import EasyNetDaemon.Core.Identity

/-!
# Loop instances and their validation at boot

The model of a persisted loop (`core/domain`) and of what `execution/loop_instance` checks before it
accepts one: the authority under which the loop runs, and the ledger of its body and verify
invocations. The ledger is accepted exactly when its records follow each other in order, carry the
facts of their state, are completed up to the last one, and agree with the iteration counter
(`validateLoopInvocationLedger_eq_ok_iff`).

The URA grammar, the hexadecimal codec and the JSON parser are third-party code and parameters.
-/

namespace EasyNetDaemon.Loops

open Library EasyNetDaemon.Core

/-! ## Persisted data -/

/-- Where a loop stands. -/
inductive LoopState
  | pending
  | running
  | done
  | exhausted
  | verifyMalformed
  | failed
  | cancelled
  deriving DecidableEq, Repr

/-- A state that a loop ends in. -/
def isTerminal : LoopState → Bool
  | .pending | .running => false
  | .done | .exhausted | .verifyMalformed | .failed | .cancelled => true

/-- The two invocations of an iteration. -/
inductive LoopInvocationKind
  | body
  | verify
  deriving DecidableEq, Repr

/-- The name of a kind. -/
def LoopInvocationKind.asStr : LoopInvocationKind → String
  | .body => "body"
  | .verify => "verify"

/-- The derived `Debug` text. -/
def LoopInvocationKind.debug : LoopInvocationKind → String
  | .body => "Body"
  | .verify => "Verify"

/-- Where an invocation stands. -/
inductive LoopInvocationState
  | reserved
  | completed
  | failed
  deriving DecidableEq, Repr

/-- The derived `Debug` text. -/
def LoopInvocationState.debug : LoopInvocationState → String
  | .reserved => "Reserved"
  | .completed => "Completed"
  | .failed => "Failed"

/-- A record of the ledger. -/
structure LoopInvocationRecord where
  iter : Nat
  kind : LoopInvocationKind
  state : LoopInvocationState
  invocationId : Option String
  receiptUra : Option String
  receiptHash : Option String
  causalParentReceiptUra : Option String
  output : Option String
  error : Option String
  deriving DecidableEq, Repr

/-- The iteration and the kind under which a record is found. -/
def LoopInvocationRecord.key (record : LoopInvocationRecord) : Nat × LoopInvocationKind :=
  (record.iter, record.kind)

/-- On whose account a loop runs. -/
structure DeferredInvocationAuthority where
  accountableUserUra : String
  creatorInvocationId : String
  controllerCalleeUra : String
  targetCalleeUra : String
  executionHostUra : String
  deriving DecidableEq, Repr

/-- A loop as it is persisted. -/
structure LoopInstance where
  id : String
  tenant : String
  workerAgent : String
  authority : DeferredInvocationAuthority
  verifyExpr : String
  bodyPrompt : String
  maxIters : Nat
  currentIter : Nat
  state : LoopState
  invocationLedger : List LoopInvocationRecord
  lastBodyOutput : Option String
  lastVerifyOutput : Option String
  deriving DecidableEq, Repr

/-- A 32-byte hash. -/
abbrev ReceiptHash : Type := { bytes : List UInt8 // bytes.length = 32 }

/-- The driver's answer. -/
structure LoopInvocationOutcome where
  output : String
  invocationId : String
  receiptUra : String
  receiptHash : ReceiptHash
  deriving DecidableEq

/-! ## Third-party code -/

/-- What the loop service reads of a parsed URA. -/
structure PrincipalUra where
  kind : UraKind
  realm : String
  userId : Option String
  deviceId : Option String
  /-- The device and the agent of a device-sponsored SystemAgent. -/
  deviceAgentIds : Option (String × String)
  /-- The owner and the agent of a hosted User Agent. -/
  agentIds : Option (String × String)

/-- The `hex` crate: decoding gives back what was encoded. -/
structure HexCodec where
  encode : List UInt8 → String
  decode : String → Option (List UInt8)
  decode_encode : ∀ bytes, decode (encode bytes) = some bytes

/-- The third-party functions that the loop service calls. -/
structure LoopEnv where
  parseUra : String → Except String PrincipalUra
  userUra : String → String → String
  hex : HexCodec
  /-- `serde_json::from_str`. -/
  parseJson : String → Option Json
  /-- The `Debug` text of a string. -/
  debugStr : String → String

/-! ## The authority of a loop -/

/-- The agent that runs loops. -/
def automationSystemAgentId : String := "automation"

/-- The accountable user is a user. -/
def validateAccountableUserScope (env : LoopEnv) (accountableUserUra : String) :
    Except String PrincipalUra := do
  let user ← (env.parseUra accountableUserUra).mapError fun error =>
    "loop accountable User is invalid: " ++ error
  match user.kind, user.userId with
  | .user, some userId =>
    bailIf (env.userUra user.realm userId ≠ accountableUserUra)
      "loop accountable User URA must be canonical"
    return user
  | _, _ => .error "loop accountable principal must be a canonical User URA"

/-- The authority of a loop is consistent. -/
def validateLoopAuthority (env : LoopEnv) (workerAgent : String)
    (authority : DeferredInvocationAuthority) : Except String Unit := do
  let accountableUser ← validateAccountableUserScope env authority.accountableUserUra
  let controller ← (env.parseUra authority.controllerCalleeUra).mapError fun error =>
    "loop controller is invalid: " ++ error
  match controller.deviceAgentIds with
  | none => .error "loop controller must be a device-sponsored SystemAgent"
  | some (controllerDevice, controllerAgent) =>
    bailIf (controllerAgent ≠ automationSystemAgentId)
      "loop controller must be the automation SystemAgent"
    let host ← (env.parseUra authority.executionHostUra).mapError fun error =>
      "loop execution host is invalid: " ++ error
    bailIf (host.kind ≠ .device || host.deviceId ≠ some controllerDevice ||
        host.realm ≠ controller.realm)
      "loop controller sponsor and execution host must match"
    let target ← (env.parseUra authority.targetCalleeUra).mapError fun error =>
      "loop target callee is invalid: " ++ error
    match target.agentIds with
    | none => .error "loop target callee must be a hosted User Agent"
    | some (ownerUser, targetAgent) =>
      bailIf (target.realm ≠ controller.realm || target.realm ≠ accountableUser.realm ||
          some ownerUser ≠ accountableUser.userId || targetAgent ≠ workerAgent)
        "loop worker identity does not match deferred target callee"
      bailIf (RustText.trim authority.creatorInvocationId).isEmpty
        "loop authority requires its creator invocation id"

/-! ## The invocation ledger -/

/-- The kind and the iteration of the record after another one. -/
def expectedKind : Option LoopInvocationRecord → LoopInvocationKind
  | none => .body
  | some previous => if previous.kind = .body then .verify else .body

/-- The iteration of the next record. -/
def expectedIter : Option LoopInvocationRecord → Nat
  | none => 1
  | some previous => if previous.kind = .body then previous.iter else previous.iter + 1

/-- A text that is present and not empty (the negation of `is_none_or(str::is_empty)`). -/
def isFilled : Option String → Bool
  | none => false
  | some text => !text.isEmpty

/-- The facts that a record must carry in its state. -/
def validateRecordFacts (env : LoopEnv) (id : String) (record : LoopInvocationRecord) :
    Except String Unit :=
  match record.state with
  | .reserved =>
    bailIf (record.invocationId.isSome || record.receiptUra.isSome || record.receiptHash.isSome ||
        record.output.isSome || record.error.isSome)
      ("loop " ++ id ++ " reserved invocation carries terminal facts")
  | .completed =>
    bailIf (!isFilled record.invocationId || !isFilled record.receiptUra || record.output.isNone ||
        (env.hex.decode (record.receiptHash.getD "")).all (fun bytes => bytes.length ≠ 32) ||
        record.error.isSome)
      ("loop " ++ id ++ " completed invocation has invalid receipt facts")
  | .failed =>
    bailIf (!isFilled record.error) ("loop " ++ id ++ " failed invocation is missing its error")

/-- A record follows the one before it. -/
def validateRecord (env : LoopEnv) (id : String) (previous : Option LoopInvocationRecord)
    (isLast : Bool) (record : LoopInvocationRecord) : Except String Unit := do
  bailIf (record.kind ≠ expectedKind previous || record.iter ≠ expectedIter previous)
    ("loop " ++ id ++ " invocation ledger expected " ++ (expectedKind previous).debug ++ " iter " ++
      toString (expectedIter previous) ++ ", got " ++ record.kind.debug ++ " iter " ++
      toString record.iter)
  bailIf (record.causalParentReceiptUra ≠ previous.bind LoopInvocationRecord.receiptUra)
    ("loop " ++ id ++ " invocation ledger has a broken causal parent link")
  validateRecordFacts env id record
  bailIf (record.state ≠ .completed && !isLast)
    ("loop " ++ id ++ " has records after a non-completed invocation")

/-- The pass over the records, with the record before; it returns the last one. -/
def validateRecords (env : LoopEnv) (id : String) :
    Option LoopInvocationRecord → List LoopInvocationRecord →
      Except String (Option LoopInvocationRecord)
  | previous, [] => .ok previous
  | previous, record :: rest => do
    validateRecord env id previous rest.isEmpty record
    validateRecords env id (some record) rest

/-- The ledger of a persisted loop. -/
def validateLoopInvocationLedger (env : LoopEnv) (inst : LoopInstance) : Except String Unit := do
  match ← validateRecords env inst.id none inst.invocationLedger with
  | some last =>
    bailIf (inst.currentIter ≠ last.iter)
      ("loop " ++ inst.id ++ " current_iter does not match its invocation ledger")
  | none =>
    bailIf (inst.currentIter ≠ 0)
      ("loop " ++ inst.id ++ " has current_iter without invocation records")

/-- The checks of `bind` on every instance it has loaded. -/
def bind (env : LoopEnv) (loaded : List LoopInstance) : Except String Unit :=
  checkAll (fun inst => do
    validateLoopAuthority env inst.workerAgent inst.authority
    validateLoopInvocationLedger env inst) loaded

/-- What the caller of `create` asks for. -/
structure LoopSpec where
  id : String
  tenant : String
  workerAgent : String
  authority : DeferredInvocationAuthority
  verifyExpr : String
  maxIters : Nat
  bodyPrompt : String

/-- `create`, up to the start of the controller; `id` is the fresh loop id. -/
def create (env : LoopEnv) (spec : LoopSpec) : Except String LoopInstance := do
  bailIf (spec.maxIters = 0) "loop.create: max_iters must be ≥ 1"
  validateLoopAuthority env spec.workerAgent spec.authority
  return {
    id := spec.id
    tenant := spec.tenant
    workerAgent := spec.workerAgent
    authority := spec.authority
    verifyExpr := spec.verifyExpr
    bodyPrompt := spec.bodyPrompt
    maxIters := spec.maxIters
    currentIter := 0
    state := .pending
    invocationLedger := []
    lastBodyOutput := none
    lastVerifyOutput := none }

/-! ## What an accepted ledger is -/

/-- A record continues the ledger after `previous`. -/
def Follows (previous : Option LoopInvocationRecord) (record : LoopInvocationRecord) : Prop :=
  record.key = (expectedIter previous, expectedKind previous) ∧
    record.causalParentReceiptUra = previous.bind LoopInvocationRecord.receiptUra

/-- Every record continues the ledger after the one before it. -/
def Sequenced : Option LoopInvocationRecord → List LoopInvocationRecord → Prop
  | _, [] => True
  | previous, record :: rest => Follows previous record ∧ Sequenced (some record) rest

theorem sequenced_append (previous : Option LoopInvocationRecord)
    (l l' : List LoopInvocationRecord) :
    Sequenced previous (l ++ l') ↔
      Sequenced previous l ∧ Sequenced (l.getLast?.or previous) l' := by
  induction l generalizing previous with
  | nil => simp [Sequenced]
  | cons record rest ih =>
    rw [List.cons_append, Sequenced, Sequenced, ih, and_assoc]
    cases rest with
    | nil => simp
    | cons next rest => simp [List.getLast?_eq_some_getLast]

theorem sequenced_concat (l : List LoopInvocationRecord) (record : LoopInvocationRecord) :
    Sequenced none (l ++ [record]) ↔ Sequenced none l ∧ Follows l.getLast? record := by
  simp [sequenced_append, Sequenced]

/-- The iteration of the last record, zero before the first one. -/
def lastIter (ledger : List LoopInvocationRecord) : Nat :=
  (ledger.getLast?.map LoopInvocationRecord.iter).getD 0

@[simp] theorem lastIter_concat (l : List LoopInvocationRecord) (record : LoopInvocationRecord) :
    lastIter (l ++ [record]) = record.iter := by
  simp [lastIter]

theorem validateRecord_eq_ok_iff {env : LoopEnv} {id : String}
    {previous : Option LoopInvocationRecord} {isLast : Bool} {record : LoopInvocationRecord} :
    validateRecord env id previous isLast record = .ok () ↔
      Follows previous record ∧ validateRecordFacts env id record = .ok () ∧
        (isLast = false → record.state = .completed) := by
  simp only [validateRecord, check_bind_eq_ok_iff, bailIf_eq_ok_iff, Bool.or_eq_false_iff,
    decide_eq_false_iff_not, not_not, Follows, LoopInvocationRecord.key, Prod.mk.injEq,
    Bool.and_eq_false_iff, Bool.not_eq_false', ne_eq]
  constructor
  · rintro ⟨⟨hkind, hiter⟩, hparent, hfacts, hlast⟩
    exact ⟨⟨⟨hiter, hkind⟩, hparent⟩, hfacts, fun h => hlast.resolve_right (by simp [h])⟩
  · rintro ⟨⟨⟨hiter, hkind⟩, hparent⟩, hfacts, hlast⟩
    refine ⟨⟨hkind, hiter⟩, hparent, hfacts, ?_⟩
    cases isLast with
    | true => exact Or.inr rfl
    | false => exact Or.inl (hlast rfl)

theorem validateRecords_eq_ok_iff {env : LoopEnv} {id : String}
    {previous last : Option LoopInvocationRecord} {l : List LoopInvocationRecord} :
    validateRecords env id previous l = .ok last ↔
      last = l.getLast?.or previous ∧ Sequenced previous l ∧
        (∀ record ∈ l, validateRecordFacts env id record = .ok ()) ∧
        ∀ record ∈ l.dropLast, record.state = .completed := by
  induction l generalizing previous with
  | nil => simp [validateRecords, Sequenced, eq_comm]
  | cons record rest ih =>
    rw [validateRecords, check_bind_eq_ok_iff, validateRecord_eq_ok_iff, ih]
    cases rest with
    | nil =>
      simp only [List.isEmpty_nil, List.getLast?_nil, Option.none_or, Sequenced,
        List.getLast?_singleton, Option.some_or, List.dropLast_singleton, List.not_mem_nil,
        List.forall_mem_singleton]
      tauto
    | cons next rest =>
      rw [List.dropLast_cons_of_ne_nil (List.cons_ne_nil next rest), List.getLast?_cons_cons]
      simp only [List.forall_mem_cons (l := next :: rest), List.isEmpty_cons, forall_const,
        List.forall_mem_cons (l := (next :: rest).dropLast), Sequenced,
        List.getLast?_eq_some_getLast (List.cons_ne_nil next rest), Option.some_or]
      tauto

/-- What boot asks of a ledger. -/
theorem validateLoopInvocationLedger_eq_ok_iff {env : LoopEnv} {inst : LoopInstance} :
    validateLoopInvocationLedger env inst = .ok () ↔
      Sequenced none inst.invocationLedger ∧
        (∀ record ∈ inst.invocationLedger, validateRecordFacts env inst.id record = .ok ()) ∧
        (∀ record ∈ inst.invocationLedger.dropLast, record.state = .completed) ∧
        inst.currentIter = lastIter inst.invocationLedger := by
  simp only [validateLoopInvocationLedger, bind_eq_ok_iff, validateRecords_eq_ok_iff,
    Option.or_none, and_assoc, exists_eq_left, lastIter]
  cases inst.invocationLedger.getLast? with
  | none => simp
  | some last => simp

/-! ## The order of the reservations -/

/-- The reservations of a loop, in order: the body and then the verification of each iteration. -/
def reservationAt (n : Nat) : Nat × LoopInvocationKind :=
  (n / 2 + 1, if n % 2 = 0 then .body else .verify)

theorem reservationAt_injective : Function.Injective reservationAt := by
  intro m n h
  simp only [reservationAt, Prod.mk.injEq] at h
  obtain ⟨hiter, hkind⟩ := h
  split at hkind <;> split at hkind <;> first | omega | cases hkind

/-- A sequenced ledger holds the first reservations of the loop, without a gap. -/
theorem Sequenced.keys {l : List LoopInvocationRecord} (h : Sequenced none l) :
    l.map LoopInvocationRecord.key = (List.range l.length).map reservationAt := by
  induction l using List.reverseRecOn with
  | nil => rfl
  | append_singleton l record ih =>
    obtain ⟨hl, hfollows⟩ := (sequenced_concat l record).1 h
    have hkeys := ih hl
    rw [List.map_append, List.length_append, List.length_singleton, List.range_succ,
      List.map_append, hkeys]
    congr 1
    rw [List.map_singleton, List.map_singleton, hfollows.1]
    -- the new key is the one after the key of the last record
    cases hlast : l.getLast? with
    | none =>
      rw [List.getLast?_eq_none_iff.1 hlast]
      rfl
    | some previous =>
      have hprevious : previous.key = reservationAt (l.length - 1) := by
        have hget := congrArg List.getLast? hkeys
        rw [List.getLast?_map, hlast, List.getLast?_map, List.getLast?_range] at hget
        have hne : l.length ≠ 0 := fun h => by simp [List.length_eq_zero_iff.1 h] at hlast
        simpa [hne] using hget
      have hpos : 0 < l.length := List.length_pos_iff.2 fun h => by simp [h] at hlast
      simp only [LoopInvocationRecord.key, reservationAt, Prod.mk.injEq] at hprevious
      simp only [reservationAt, expectedIter, expectedKind, hprevious]
      rcases Nat.mod_two_eq_zero_or_one (l.length - 1) with hmod | hmod
      · have hodd : l.length % 2 = 1 := by omega
        have hhalf : (l.length - 1) / 2 = l.length / 2 := by omega
        simp [hmod, hodd, hhalf]
      · have heven : l.length % 2 = 0 := by omega
        have hhalf : (l.length - 1) / 2 + 1 = l.length / 2 := by omega
        simp [hmod, heven, hhalf]

end EasyNetDaemon.Loops
