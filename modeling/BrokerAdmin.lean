import BrokerAdmin.Binary64.Basic
import BrokerAdmin.Binary64.Reading
import BrokerAdmin.Binary64.Shortest
import BrokerAdmin.Binary64.Written
import BrokerAdmin.Bridge.Declared
import BrokerAdmin.Bridge.Document
import BrokerAdmin.Bridge.Error
import BrokerAdmin.Bridge.Manager
import BrokerAdmin.Bridge.Overrides
import BrokerAdmin.Bridge.Retry
import BrokerAdmin.Bridge.RoutingType
import BrokerAdmin.Bridge.Spec
import BrokerAdmin.Broker.Control
import BrokerAdmin.Broker.Error
import BrokerAdmin.Broker.Faulty
import BrokerAdmin.Broker.Handle
import BrokerAdmin.Broker.Message
import BrokerAdmin.Broker.Messaging
import BrokerAdmin.Broker.Queue
import BrokerAdmin.Broker.State
import BrokerAdmin.Catalog
import BrokerAdmin.CommandLine
import BrokerAdmin.Document.Record
import BrokerAdmin.Document.Value
import BrokerAdmin.Filter.Expr
import BrokerAdmin.Filter.Parser
import BrokerAdmin.Filter.Token
import BrokerAdmin.Json.Printer
import BrokerAdmin.Json.Reader
import BrokerAdmin.Main
import BrokerAdmin.Proofs.Binary64.Integers
import BrokerAdmin.Proofs.Binary64.Nearest
import BrokerAdmin.Proofs.Binary64.Numeral
import BrokerAdmin.Proofs.Bridge.Batch
import BrokerAdmin.Proofs.Bridge.Deployment
import BrokerAdmin.Proofs.Bridge.Effects
import BrokerAdmin.Proofs.Bridge.Masking
import BrokerAdmin.Proofs.Bridge.Precedence
import BrokerAdmin.Proofs.Bridge.Replacement
import BrokerAdmin.Proofs.Bridge.Resolution
import BrokerAdmin.Proofs.Bridge.RoutingName
import BrokerAdmin.Proofs.Bridge.Rules
import BrokerAdmin.Proofs.Bridge.Scope
import BrokerAdmin.Proofs.Bridge.Waiting
import BrokerAdmin.Proofs.Broker.Conservation
import BrokerAdmin.Proofs.Broker.Consumers
import BrokerAdmin.Proofs.Broker.Creation
import BrokerAdmin.Proofs.Broker.Distribution
import BrokerAdmin.Proofs.Broker.Failure
import BrokerAdmin.Proofs.Broker.Movement
import BrokerAdmin.Proofs.Broker.Order
import BrokerAdmin.Proofs.Broker.Pausing
import BrokerAdmin.Proofs.Broker.Recipients
import BrokerAdmin.Proofs.Broker.Restocking
import BrokerAdmin.Proofs.Broker.Routing
import BrokerAdmin.Proofs.Broker.Run
import BrokerAdmin.Proofs.Broker.Topics
import BrokerAdmin.Proofs.Broker.WellFormed
import BrokerAdmin.Proofs.Catalog
import BrokerAdmin.Proofs.Document.Converting
import BrokerAdmin.Proofs.Filter.Balance
import BrokerAdmin.Proofs.Filter.Comparing
import BrokerAdmin.Proofs.Filter.Cursor
import BrokerAdmin.Proofs.Filter.Grammar
import BrokerAdmin.Proofs.Filter.Height
import BrokerAdmin.Proofs.Filter.Joining
import BrokerAdmin.Proofs.Filter.Renaming
import BrokerAdmin.Proofs.Filter.Scanning
import BrokerAdmin.Proofs.Filter.Writing
import BrokerAdmin.Proofs.Json.Numbers
import BrokerAdmin.Proofs.Json.RoundTrip
import BrokerAdmin.Proofs.Outcome
import BrokerAdmin.Proofs.Selector.Cutting
import BrokerAdmin.Proofs.Selector.Faithful
import BrokerAdmin.Proofs.Selector.Identifiers
import BrokerAdmin.Proofs.Selector.Meaning
import BrokerAdmin.Proofs.Selector.Names
import BrokerAdmin.Proofs.Selector.Pieces
import BrokerAdmin.Proofs.Selector.Quoting
import BrokerAdmin.Proofs.Selector.Tokens
import BrokerAdmin.Proofs.Settings.Agreement
import BrokerAdmin.Proofs.Settings.Faults
import BrokerAdmin.Proofs.Settings.Overlay
import BrokerAdmin.Proofs.Settings.Passwords
import BrokerAdmin.Proofs.Settings.Substitution
import BrokerAdmin.Proofs.Settings.Validation
import BrokerAdmin.Proofs.Subscription.Canonical
import BrokerAdmin.Proofs.Subscription.Convention
import BrokerAdmin.Proofs.Subscription.Counting
import BrokerAdmin.Proofs.Subscription.Dropping
import BrokerAdmin.Proofs.Subscription.DroppingAll
import BrokerAdmin.Proofs.Subscription.Footprint
import BrokerAdmin.Proofs.Subscription.Identity
import BrokerAdmin.Proofs.Subscription.Listing
import BrokerAdmin.Proofs.Subscription.Name
import BrokerAdmin.Proofs.Subscription.Placeholder
import BrokerAdmin.Proofs.Subscription.QueueName
import BrokerAdmin.Proofs.Subscription.Reach
import BrokerAdmin.Proofs.Subscription.Removing
import BrokerAdmin.Proofs.Subscription.Statistics
import BrokerAdmin.Proofs.Subscription.Texts
import BrokerAdmin.Proofs.Text.Classes
import BrokerAdmin.Proofs.Text.SingleQuoted
import BrokerAdmin.Proofs.Toml.Tables
import BrokerAdmin.Settings.Basic
import BrokerAdmin.Settings.Environment
import BrokerAdmin.Settings.Overlay
import BrokerAdmin.Settings.Placeholder
import BrokerAdmin.Settings.Source
import BrokerAdmin.Subscription.Admin
import BrokerAdmin.Subscription.Error
import BrokerAdmin.Subscription.MessageView
import BrokerAdmin.Subscription.Name
import BrokerAdmin.Subscription.Operation
import BrokerAdmin.Subscription.Selector
import BrokerAdmin.Subscription.Snapshot
import BrokerAdmin.Text.Alphabetic
import BrokerAdmin.Text.Blank
import BrokerAdmin.Text.GraphemeExtend
import BrokerAdmin.Text.Hexadecimal
import BrokerAdmin.Text.Letter
import BrokerAdmin.Text.Numeral
import BrokerAdmin.Text.Numeric
import BrokerAdmin.Text.Quoted
import BrokerAdmin.Text.Ranges
import BrokerAdmin.Text.SingleQuoted
import BrokerAdmin.Text.Unprintable
import BrokerAdmin.Toml.Datum
import BrokerAdmin.Toml.Moment
import BrokerAdmin.Toml.Number
import BrokerAdmin.Toml.Reader
import BrokerAdmin.Toml.Rules
import BrokerAdmin.Toml.Table
import BrokerAdmin.Toml.Text
