import BrokerAdmin.Catalog

/-!
# Overrides of declared attributes

A few attributes of bridges can be overridden. For the call timeout the entry of a bridge comes first,
then the value for all bridges, then what the bridge declares; a routing type is overridden by the
entry of the bridge only.
-/

namespace BrokerAdmin.Bridge

/-- The attributes overridden for one bridge. -/
structure Override where
  callTimeout : Option Int64 := none
  routingType : Option String := none
  deriving DecidableEq

/-- What is overridden for all bridges and for single ones. -/
structure Overrides where
  callTimeout : Option Int64 := none
  bridges : Catalog Override := Catalog.empty
  deriving DecidableEq

namespace Overrides

/-- What is overridden for one bridge. -/
def entry (o : Overrides) (bridge : String) : Override :=
  (o.bridges.get? bridge).getD {}

/-- The call timeout that a bridge has instead of the declared one. -/
def callTimeoutFor (o : Overrides) (bridge : String) : Option Int64 :=
  (o.entry bridge).callTimeout <|> o.callTimeout

/-- The routing type that a bridge has instead of the declared one. -/
def routingTypeFor (o : Overrides) (bridge : String) : Option String :=
  (o.entry bridge).routingType

/-- Override the call timeout of one bridge. -/
def withCallTimeout (o : Overrides) (bridge : String) (timeout : Int64) : Overrides :=
  { o with bridges := o.bridges.insert bridge { o.entry bridge with callTimeout := some timeout } }

/-- Override the routing type of one bridge. -/
def withRoutingType (o : Overrides) (bridge : String) (routingType : String) : Overrides :=
  { o with bridges := o.bridges.insert bridge { o.entry bridge with routingType := some routingType } }

end Overrides

end BrokerAdmin.Bridge
