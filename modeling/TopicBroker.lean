import TopicBroker.Base64
import TopicBroker.Binary64.Basic
import TopicBroker.Binary64.Shortest
import TopicBroker.Broker
import TopicBroker.Calendar
import TopicBroker.Connection
import TopicBroker.Engine
import TopicBroker.Error
import TopicBroker.Identifier
import TopicBroker.Instant
import TopicBroker.Json.Basic
import TopicBroker.Json.Number
import TopicBroker.Json.Reader
import TopicBroker.Json.Writer
import TopicBroker.Main
import TopicBroker.Message
import TopicBroker.Proofs.Action
import TopicBroker.Proofs.Base64
import TopicBroker.Proofs.Binary64.Whole
import TopicBroker.Proofs.Calendar
import TopicBroker.Proofs.Connection.Requests
import TopicBroker.Proofs.Engine.Commands
import TopicBroker.Proofs.Engine.Draining
import TopicBroker.Proofs.Engine.Fate
import TopicBroker.Proofs.Engine.Loading
import TopicBroker.Proofs.Engine.Records
import TopicBroker.Proofs.Engine.Reload
import TopicBroker.Proofs.Engine.Restart
import TopicBroker.Proofs.Engine.Separation
import TopicBroker.Proofs.Error
import TopicBroker.Proofs.Json.Inline
import TopicBroker.Proofs.Json.ReadBack
import TopicBroker.Proofs.Json.Spelling
import TopicBroker.Proofs.Json.Token
import TopicBroker.Proofs.Queues
import TopicBroker.Proofs.Record.Elements
import TopicBroker.Proofs.Record.Json
import TopicBroker.Proofs.Record.LeftOut
import TopicBroker.Proofs.Record.Line
import TopicBroker.Proofs.Record.Members
import TopicBroker.Proofs.Record.Rewriting
import TopicBroker.Proofs.Record.Xml
import TopicBroker.Proofs.Registry.Bindings
import TopicBroker.Proofs.Registry.Effects
import TopicBroker.Proofs.Registry.Failures
import TopicBroker.Proofs.Registry.Lifetime
import TopicBroker.Proofs.Registry.Operations
import TopicBroker.Proofs.Registry.Publication
import TopicBroker.Proofs.Registry.Seeding
import TopicBroker.Proofs.Registry.Subscriptions
import TopicBroker.Proofs.Registry.Topics
import TopicBroker.Proofs.Registry.Waiting
import TopicBroker.Proofs.Router.Admission
import TopicBroker.Proofs.Router.Failures
import TopicBroker.Proofs.Router.Responses
import TopicBroker.Proofs.Router.Roles
import TopicBroker.Proofs.Router.Route
import TopicBroker.Proofs.Run
import TopicBroker.Proofs.Server
import TopicBroker.Proofs.Session.Answers
import TopicBroker.Proofs.Settings.Arrival
import TopicBroker.Proofs.Settings.Keys
import TopicBroker.Proofs.Settings.Layers
import TopicBroker.Proofs.Settings.Load
import TopicBroker.Proofs.Span
import TopicBroker.Proofs.Store.Checkpoint
import TopicBroker.Proofs.Store.Keys
import TopicBroker.Proofs.Store.Subscriptions
import TopicBroker.Proofs.Store.Topics
import TopicBroker.Proofs.Table
import TopicBroker.Proofs.Text.Digits
import TopicBroker.Proofs.Text.Utf8
import TopicBroker.Proofs.Timestamp
import TopicBroker.Proofs.Traffic.Course
import TopicBroker.Proofs.Traffic.Delivery
import TopicBroker.Proofs.Traffic.World
import TopicBroker.Proofs.Wire.Envelope
import TopicBroker.Proofs.Wire.Lines
import TopicBroker.Proofs.Wire.Reading
import TopicBroker.Proofs.Wire.Records
import TopicBroker.Proofs.Xml.Paths
import TopicBroker.Proofs.Xml.ReadBack
import TopicBroker.Queues
import TopicBroker.Record.Fault
import TopicBroker.Record.Json
import TopicBroker.Record.Line
import TopicBroker.Record.Row
import TopicBroker.Record.Schema
import TopicBroker.Record.Setting
import TopicBroker.Record.Xml
import TopicBroker.Registry
import TopicBroker.Role
import TopicBroker.Router
import TopicBroker.Server
import TopicBroker.Session
import TopicBroker.Settings.Basic
import TopicBroker.Settings.Environment
import TopicBroker.Settings.Layer
import TopicBroker.Settings.Load
import TopicBroker.Settings.Setting
import TopicBroker.Span
import TopicBroker.Store.Basic
import TopicBroker.Store.Row
import TopicBroker.Table
import TopicBroker.Text.Blank
import TopicBroker.Text.Digits
import TopicBroker.Text.Printable
import TopicBroker.Text.Quoted
import TopicBroker.Text.Utf8
import TopicBroker.Timestamp
import TopicBroker.Toml.Basic
import TopicBroker.Toml.Moment
import TopicBroker.Toml.Reader
import TopicBroker.Toml.Scalar
import TopicBroker.Toml.Table
import TopicBroker.Toml.Text
import TopicBroker.Wire.Codec
import TopicBroker.Wire.ContentType
import TopicBroker.Wire.Envelope
import TopicBroker.Wire.Lines
import TopicBroker.Wire.Method
import TopicBroker.Wire.Records
import TopicBroker.Xml.Attribute
import TopicBroker.Xml.Cursor
import TopicBroker.Xml.Event
import TopicBroker.Xml.Reference
import TopicBroker.Xml.Scope
import TopicBroker.Xml.Token
import TopicBroker.Xml.Writer
