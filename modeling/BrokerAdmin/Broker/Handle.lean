import BrokerAdmin.Broker.Control

/-!
# Handles on a broker

Administration reaches a broker through a handle: the calls it may make, over whatever state the
broker has. The state is passed along explicitly, so a run of administration is a function of the
state it starts in, for a broker in memory as for any other.

The two calls that change bridges may never be answered. Whoever made such a call then gives it up,
with the state in which the call has left the broker.
-/

namespace BrokerAdmin

/-- The answer to a call that may never complete. -/
inductive Answer (ε α : Type) where
  | finished (result : Except ε α)
  | abandoned

/-- The answer of a completed call with its result changed. -/
def Answer.map {ε ε' α β : Type} (f : Except ε α → Except ε' β) : Answer ε α → Answer ε' β
  | finished result => finished (f result)
  | abandoned => abandoned

/-- The calls that administration makes to a broker whose state is `σ`. -/
structure Handle (σ : Type) where
  /-- Whether the broker has finished starting. -/
  isStarted : σ → Bool × σ
  /-- Forget the pending storage operations of the caller. -/
  clearPending : σ → σ
  /-- Wait for the pending storage operations of the caller. -/
  awaitPending : σ → Except Broker.Error Unit × σ
  /-- Deploy a bridge; the answer says whether the broker took it. -/
  deployBridge : Bridge.Spec → σ → Answer Broker.Error Bool × σ
  /-- Destroy a bridge, dropping its messages in flight if forced. -/
  destroyBridge : String → Bool → σ → Answer Broker.Error Unit × σ
  /-- Destroy a queue; with consumers attached only if they may be removed. -/
  destroyQueue : String → Bool → σ → Except Broker.Error Unit × σ
  /-- The queues bound to an address, in the order of the broker. -/
  queueNames : String → σ → Except Broker.Error (List String)
  /-- What there is to know of a queue. -/
  queueControl : String → σ → Option QueueControl
  /-- What there is to know of an address. -/
  addressControl : String → σ → Option AddressControl
  /-- Stop delivery on an address. -/
  pauseAddress : String → Bool → σ → Except Broker.Error Unit × σ
  /-- Let delivery on an address go on. -/
  resumeAddress : String → σ → Except Broker.Error Unit × σ
  /-- The number of messages that a queue holds. -/
  messageCount : String → σ → Except Broker.Error Nat
  /-- The number of messages delivered but not yet acknowledged. -/
  deliveringCount : String → σ → Except Broker.Error Nat
  /-- The consumers of a queue as a JSON text. -/
  consumersText : String → σ → Except Broker.Error String
  /-- The number of messages of a queue that match a filter. -/
  countMessages : String → Option String → σ → Except Broker.Error Nat
  /-- Remove the waiting messages of a queue that match a filter. -/
  removeMessages : String → Option String → σ → Except Broker.Error Nat × σ
  /-- The waiting messages of a queue that match a filter. -/
  listMessages : String → Option String → σ → Except Broker.Error (List Message)

/-- The calls of a broker in memory, all of which complete. -/
def Broker.handle : Handle Broker where
  isStarted b := b.isStarted
  clearPending b := b.clearPending
  awaitPending b := b.awaitPending
  deployBridge spec b := ((.finished (b.deployBridge spec).1), (b.deployBridge spec).2)
  destroyBridge name force b := (.finished (b.destroyBridge name force).1, (b.destroyBridge name force).2)
  destroyQueue name removeConsumers b := b.destroyQueue name removeConsumers
  queueNames address b := b.queueNames address
  queueControl name b := b.queueControl name
  addressControl address b := b.addressControl address
  pauseAddress address persist b := b.pauseAddress address persist
  resumeAddress address b := b.resumeAddress address
  messageCount name b := b.messageCount name
  deliveringCount name b := b.deliveringCount name
  consumersText name b := b.consumersText name
  countMessages name filter b := b.countMessages name filter
  removeMessages name filter b := b.removeMessages name filter
  listMessages name filter b := b.listMessages name filter

end BrokerAdmin
