import BrokerAdmin.Broker.Error
import BrokerAdmin.Subscription.Name
import BrokerAdmin.Subscription.Selector
import BrokerAdmin.Text.Numeral

/-!
# Errors of subscription administration

Why an operation on subscriptions fails, and its wording.
-/

namespace BrokerAdmin.Subscription

/-- An argument that must not be empty. -/
inductive Argument where
  | client
  | name
  deriving DecidableEq

/-- Why the subscriptions of an address cannot be listed. -/
inductive ListingFault where
  /-- A durable queue is not named after a subscription. -/
  | queueName (e : NameError)
  /-- The consumers that the broker reports for a queue are malformed. -/
  | consumers (queueName : String)
  | broker (cause : Broker.Error)
  deriving DecidableEq

/-- Why an operation on subscriptions failed. -/
inductive Error where
  | addressNotFound (address : String)
  | noSuchSubscription (client name queueName : String)
  | noSuchQueue (queueName : String)
  | emptyArgument (argument : Argument)
  | invalidSelector (e : Selector.Error)
  | listing (address : String) (fault : ListingFault)
  /-- The removal of messages failed on one queue after it succeeded on others. -/
  | partialRemoval (queueName : String) (removed : Nat) (cause : Broker.Error)
  | broker (cause : Broker.Error)
  deriving DecidableEq

/-- The wording of an argument that is empty. -/
def Argument.message : Argument → String
  | client => "client id must not be empty"
  | name => "subscription name must not be empty"

/-- The wording of a fault. -/
def ListingFault.message : ListingFault → String
  | queueName e => e.message
  | consumers queue => "Malformed consumer list for queue '" ++ queue ++ "'"
  | broker cause => cause.message

/-- The wording of an error. -/
def Error.message : Error → String
  | addressNotFound address => "Address not found: " ++ address
  | noSuchSubscription client name queue =>
    "No subscription '" ++ name ++ "' for client '" ++ client ++ "' (queue " ++ queue ++ ")"
  | noSuchQueue queue => "No subscription with queue name " ++ queue
  | emptyArgument argument => "Invalid argument: " ++ argument.message
  | invalidSelector e => e.message
  | listing address fault => "Failed to list subscriptions of " ++ address ++ ": " ++ fault.message
  | partialRemoval queue removed cause =>
    "Removing messages failed on queue " ++ queue ++ " after " ++ Text.ofNat removed ++
      " were removed: " ++ cause.message
  | broker cause => "Broker error: " ++ cause.message

end BrokerAdmin.Subscription
