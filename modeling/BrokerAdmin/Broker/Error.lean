/-!
# Errors of broker calls

Why a call to the broker fails, with the name or the text that the broker gives.
-/

namespace BrokerAdmin.Broker

/-- Why a call to the broker failed. -/
inductive Error where
  | notFound (name : String)
  | alreadyExists (name : String)
  | inUse (name : String)
  | invalidFilter (reason : String)
  | storage (reason : String)
  | other (reason : String)
  deriving DecidableEq

namespace Error

/-- The wording of an error. -/
def message : Error → String
  | notFound name => "Not found: " ++ name
  | alreadyExists name => "Already exists: " ++ name
  | inUse name => "In use: " ++ name
  | invalidFilter reason => "Invalid filter: " ++ reason
  | storage reason => "IO error: " ++ reason
  | other reason => reason

end Error

end BrokerAdmin.Broker
