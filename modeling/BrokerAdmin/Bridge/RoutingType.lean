import BrokerAdmin.Text.Blank
import BrokerAdmin.Text.Letter

/-!
# Routing types of bridges

What a bridge does with the routing type of the messages that it forwards.
-/

namespace BrokerAdmin.Bridge

/-- The routing type that forwarded messages get. -/
inductive RoutingType where
  /-- Each message goes to one remote queue. -/
  | anycast
  /-- Each message goes to every remote queue. -/
  | multicast
  /-- The message keeps the routing type it carries. -/
  | pass
  /-- The remote address decides. -/
  | strip
  deriving DecidableEq

namespace RoutingType

/-- The name of a routing type. -/
def name : RoutingType → String
  | anycast => "ANYCAST"
  | multicast => "MULTICAST"
  | pass => "PASS"
  | strip => "STRIP"

/-- The routing types, in the order of their names. -/
def every : List RoutingType := [anycast, multicast, pass, strip]

/-- The routing type that a text names, up to the case of ASCII letters and white space around it. -/
def ofText? (text : String) : Option RoutingType :=
  every.find? fun routing => routing.name == Text.upper (Text.trim text)

/-- What is said of a text that names no routing type. -/
def unknownMessage (text : String) : String :=
  "unknown routing type '" ++ text ++ "'"

end RoutingType

end BrokerAdmin.Bridge
