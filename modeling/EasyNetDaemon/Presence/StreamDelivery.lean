import EasyNetDaemon.Library.BoundedChannel
import EasyNetDaemon.Presence.PendingDispatch

/-!
# Delivery into a pending stream

The model of the stream table of `pending_dispatch.rs`, one step for each access to the table and to
a caller's channel. A delivery of an admission or of a chunk looks the entry up, takes a clone of
its sender, and then sends; a terminal event and a cancellation take the entry out of the table
first. A lossless entry waits for a place in the channel, any other one is cut off when there is
none, and a cancellation never waits. `outcomes` keeps what each delivery came to and `closing` the
result with which the entry was taken out; the program has neither.
-/

namespace EasyNetDaemon.Presence

open Library

/-! ## Events -/

/-- `DispatchResult`. -/
structure DispatchResult (Receipt Failure : Type) where
  payload : List UInt8
  resultContentType : String
  admissionReceipt : Option Receipt
  terminalReceipt : Option Receipt
  error : Option String
  failure : Option Failure
  requestId : Option String
deriving DecidableEq, Repr

/-- `DispatchStreamChunk`. -/
structure DispatchStreamChunk where
  payload : List UInt8
  contentType : String
deriving DecidableEq, Repr

/-- What precedes the terminal event of a stream. -/
inductive StreamData (Receipt : Type)
  | admission (receipt : Receipt)
  | chunk (chunk : DispatchStreamChunk)
deriving DecidableEq, Repr

/-- `DispatchStreamEvent`. -/
inductive DispatchStreamEvent (Receipt Failure : Type)
  | data (data : StreamData Receipt)
  | terminal (result : DispatchResult Receipt Failure)
deriving DecidableEq, Repr

/-- `StreamDeliver`. -/
inductive StreamDeliver
  | delivered
  | noMatch
  | consumerStalled
deriving DecidableEq, Repr

/-- `StreamDeliveryPolicy`. -/
inductive StreamDeliveryPolicy
  | boundedNoWait
  | losslessBackpressure
deriving DecidableEq, Repr

variable {Receipt Failure : Type}

/-- The terminal event of `cancel_for`; `fromReason` is `SessionFailure::from_reason`. -/
def cancelledResult (fromReason : String → String → Bool → Failure) (reason : String) :
    DispatchResult Receipt Failure where
  payload := []
  resultContentType := ""
  admissionReceipt := none
  terminalReceipt := none
  error := some reason
  failure := some (fromReason reason "TARGET_NOT_IN_PRESENCE_REGISTRY" true)
  requestId := none

/-! ## One call -/

/-- Where a delivery stands: about to send, or in line for a place in the channel. -/
inductive DeliveryStage
  | sending
  | inLine
deriving DecidableEq, Repr

/-- What a delivery brings: data, the terminal event, or the one of a cancellation. -/
inductive DeliveryKind (Receipt Failure : Type)
  | data (data : StreamData Receipt)
  | terminal (result : DispatchResult Receipt Failure)
  | cancel (result : DispatchResult Receipt Failure)
deriving DecidableEq, Repr

/-- The event that a delivery puts into the channel. -/
def DeliveryKind.event : DeliveryKind Receipt Failure → DispatchStreamEvent Receipt Failure
  | .data d => .data d
  | .terminal result | .cancel result => .terminal result

/-- A delivery that has a sender of the channel. -/
structure Delivery (Receipt Failure : Type) where
  task : Nat
  kind : DeliveryKind Receipt Failure
  stage : DeliveryStage
deriving DecidableEq, Repr

/-- A registered stream: its entry while it is in the table, the deliveries that hold a sender, the
channel, and the caller's side of it. -/
structure StreamCall (U Receipt Failure : Type) where
  targetUra : U
  policy : StreamDeliveryPolicy
  inTable : Bool
  deliveries : List (Delivery Receipt Failure)
  nextTask : Nat
  channel : Channel (DispatchStreamEvent Receipt Failure) Nat
  handle : Bool
  received : List (DispatchStreamEvent Receipt Failure)
  ended : Bool
  outcomes : List (DispatchStreamEvent Receipt Failure × StreamDeliver)
  closing : Option (DispatchResult Receipt Failure)
deriving DecidableEq, Repr

namespace StreamCall

variable {U : Type}

/-- `register_pending_for_policy`. -/
def register (targetUra : U) (policy : StreamDeliveryPolicy) : StreamCall U Receipt Failure where
  targetUra
  policy
  inTable := true
  deliveries := []
  nextTask := 0
  channel := .empty
  handle := true
  received := []
  ended := false
  outcomes := []
  closing := none

variable (call : StreamCall U Receipt Failure)

/-- A delivery that starts to hold a sender. -/
def hold (kind : DeliveryKind Receipt Failure) : StreamCall U Receipt Failure :=
  { call with
    deliveries := call.deliveries ++ [{ task := call.nextTask, kind, stage := .sending }]
    nextTask := call.nextTask + 1 }

/-- A delivery that found no entry. -/
def noEntry (event : DispatchStreamEvent Receipt Failure) : StreamCall U Receipt Failure :=
  { call with outcomes := call.outcomes ++ [(event, .noMatch)] }

/-- `deliver_admission` and `deliver_chunk`, up to the clone of the sender. -/
def deliver (data : StreamData Receipt) : StreamCall U Receipt Failure :=
  if call.inTable then call.hold (.data data) else call.noEntry (.data data)

/-- `deliver_terminal`, up to the removal of the entry. -/
def deliverTerminal (result : DispatchResult Receipt Failure) : StreamCall U Receipt Failure :=
  if call.inTable then
    { call.hold (.terminal result) with inTable := false, closing := some result }
  else call.noEntry (.terminal result)

/-- One entry of `cancel_for`, up to its removal. -/
def cancel (result : DispatchResult Receipt Failure) : StreamCall U Receipt Failure :=
  if call.inTable then { call.hold (.cancel result) with inTable := false, closing := some result }
  else call

/-- A delivery returns and drops its sender. -/
def settle (d : Delivery Receipt Failure) (outcome : StreamDeliver) :
    StreamCall U Receipt Failure :=
  { call with
    deliveries := call.deliveries.filter fun d' => d'.task != d.task
    outcomes := call.outcomes ++ [(d.kind.event, outcome)] }

/-- Whether a failed delivery takes the entry out of the table. -/
def evicts : DeliveryKind Receipt Failure → Bool
  | .data _ => true
  | .terminal _ | .cancel _ => false

/-- A delivery that does not wait: `try_send`. A chunk looks its entry up once more, and a closed
channel is no reason for an admission to take the entry out. -/
def tryDeliver (d : Delivery Receipt Failure) : StreamCall U Receipt Failure :=
  match d.kind, call.inTable with
  | .data (.chunk _), false => call.settle d .noMatch
  | _, _ =>
    if !call.handle then
      match d.kind with
      | .data (.chunk _) => { call.settle d .noMatch with inTable := false }
      | _ => call.settle d .noMatch
    else
      match call.channel.trySend streamChannelCapacity d.kind.event with
      | some channel => { call.settle d .delivered with channel }
      | none =>
        { call.settle d .consumerStalled with inTable := call.inTable && !evicts d.kind }

/-- A delivery stands in line for a place in the channel. -/
def standInLine (d : Delivery Receipt Failure) : StreamCall U Receipt Failure :=
  { call with
    channel := call.channel.standInLine d.task
    deliveries := call.deliveries.map fun d' =>
      if d'.task = d.task then { d' with stage := .inLine } else d' }

/-- A delivery that waits: `send`, up to a place in the channel or in the line for one. -/
def startSend (d : Delivery Receipt Failure) : StreamCall U Receipt Failure :=
  if !call.handle then { call.settle d .noMatch with inTable := call.inTable && !evicts d.kind }
  else
    match call.channel.trySend streamChannelCapacity d.kind.event with
    | some channel => { call.settle d .delivered with channel }
    | none => call.standInLine d

/-- A delivery that stood in line and got a place; without a receiver it fails. -/
def finishSend (d : Delivery Receipt Failure) : Option (StreamCall U Receipt Failure) :=
  if !call.handle then
    some { call.settle d .noMatch with inTable := call.inTable && !evicts d.kind }
  else if d.task ∈ call.channel.granted then
    some { call.settle d .delivered with
      channel := call.channel.sendGranted d.task d.kind.event }
  else none

/-- Whether a delivery waits for a place. -/
def waits (d : Delivery Receipt Failure) : Bool :=
  match call.policy, d.kind with
  | .losslessBackpressure, .data _ | .losslessBackpressure, .terminal _ => true
  | .boundedNoWait, _ | _, .cancel _ => false

/-- A delivery goes on. -/
def proceed (task : Nat) : Option (StreamCall U Receipt Failure) :=
  match call.deliveries.find? fun d => d.task == task with
  | none => none
  | some d =>
    match d.stage with
    | .inLine => call.finishSend d
    | .sending => some (if call.waits d then call.startSend d else call.tryDeliver d)

/-- `PendingStreamHandle::recv`. The stream is over when the channel is empty and nobody holds a
sender. -/
def recv : Option (StreamCall U Receipt Failure) :=
  if !call.handle || call.ended then none
  else
    match call.channel.recv with
    | some (event, channel) => some { call with channel, received := call.received ++ [event] }
    | none =>
      if call.inTable || !call.deliveries.isEmpty then none else some { call with ended := true }

/-- `PendingStreamHandle::drop`. -/
def dropHandle : StreamCall U Receipt Failure := { call with handle := false, inTable := false }

end StreamCall

/-! ## The table -/

/-- The table: its calls by the order of their registration, and the entries that running
cancellations have collected and not yet taken out. -/
structure StreamTable (U Receipt Failure : Type) where
  calls : List (StreamCall U Receipt Failure)
  sweeps : List (DispatchResult Receipt Failure × List Nat)
deriving DecidableEq, Repr

/-- What happens to a table. -/
inductive StreamOp (U Receipt Failure : Type)
  | register (targetUra : U) (policy : StreamDeliveryPolicy)
  | deliver (i : Nat) (data : StreamData Receipt)
  | deliverTerminal (i : Nat) (result : DispatchResult Receipt Failure)
  | cancelFor (targetUra : U) (reason : String)
  | cancelNext (sweep : Nat)
  | proceed (i : Nat) (task : Nat)
  | recv (i : Nat)
  | dropHandle (i : Nat)
deriving DecidableEq, Repr

namespace StreamTable

variable {U : Type}

def new : StreamTable U Receipt Failure where
  calls := []
  sweeps := []

/-- Changes one call. -/
def update (t : StreamTable U Receipt Failure) (i : Nat)
    (change : StreamCall U Receipt Failure → Option (StreamCall U Receipt Failure)) :
    Option (StreamTable U Receipt Failure) :=
  (t.calls[i]?.bind change).map fun call => { t with calls := t.calls.set i call }

/-- The entries of a target. -/
def entriesOf [DecidableEq U] (t : StreamTable U Receipt Failure) (targetUra : U) : List Nat :=
  (List.range t.calls.length).filter fun i =>
    t.calls[i]?.any fun call => call.inTable && call.targetUra == targetUra

/-- One step. -/
def step [DecidableEq U] (fromReason : String → String → Bool → Failure)
    (t : StreamTable U Receipt Failure) :
    StreamOp U Receipt Failure → Option (StreamTable U Receipt Failure)
  | .register targetUra policy =>
    some { t with calls := t.calls ++ [.register targetUra policy] }
  | .deliver i data => t.update i fun call => some (call.deliver data)
  | .deliverTerminal i result => t.update i fun call => some (call.deliverTerminal result)
  | .cancelFor targetUra reason =>
    some { t with
      sweeps := t.sweeps ++ [(cancelledResult fromReason reason, t.entriesOf targetUra)] }
  | .cancelNext k =>
    match t.sweeps[k]? with
    | some (result, i :: rest) =>
      { t with sweeps := t.sweeps.set k (result, rest) }.update i fun call =>
        some (call.cancel result)
    | _ => none
  | .proceed i task => t.update i fun call => call.proceed task
  | .recv i => t.update i StreamCall.recv
  | .dropHandle i => t.update i fun call => some call.dropHandle

end StreamTable

end EasyNetDaemon.Presence
