import EventRelay.Backend.Document
import EventRelay.Backend.Envelope
import EventRelay.Backend.Loader
import EventRelay.Backend.Query
import EventRelay.Cli.Arguments
import EventRelay.Cli.Command
import EventRelay.Cli.Startup
import EventRelay.Config.Basic
import EventRelay.Config.Datum
import EventRelay.Config.Environment
import EventRelay.Config.Load
import EventRelay.Config.Reload
import EventRelay.Config.Setting
import EventRelay.Config.Validation
import EventRelay.Config.Watch
import EventRelay.Downstream.Channel
import EventRelay.Downstream.Event
import EventRelay.Downstream.Usage
import EventRelay.Frame.Basic
import EventRelay.Frame.Decoder
import EventRelay.Frame.Reference
import EventRelay.Frame.Rounds
import EventRelay.Frame.Segment
import EventRelay.Frame.Wire
import EventRelay.Http.Client
import EventRelay.Http.Cookie
import EventRelay.Http.Events
import EventRelay.Http.Gate
import EventRelay.Http.Header
import EventRelay.Http.Login
import EventRelay.Http.MediaType
import EventRelay.Http.Message
import EventRelay.Http.Route
import EventRelay.Http.Server
import EventRelay.Http.Serving
import EventRelay.Http.Status
import EventRelay.Json.Binary64
import EventRelay.Json.Number
import EventRelay.Json.Print
import EventRelay.Json.Token
import EventRelay.Json.Tree
import EventRelay.Json.Value
import EventRelay.Main
import EventRelay.Net.Address
import EventRelay.Net.Ipv6
import EventRelay.Observe.Filter
import EventRelay.Observe.Log
import EventRelay.Observe.Metrics
import EventRelay.Session.History
import EventRelay.Session.Machine
import EventRelay.Session.Run
import EventRelay.Session.Scenario
import EventRelay.Session.Settings
import EventRelay.Shutdown
import EventRelay.Shutdown.Usage
import EventRelay.Source.Error
import EventRelay.Source.Guard
import EventRelay.Source.Usage
import EventRelay.Text.Base64
import EventRelay.Text.Blank
import EventRelay.Text.Digits
import EventRelay.Text.Percent
import EventRelay.Text.Plain
import EventRelay.Text.Quoted
import EventRelay.Text.Split
import EventRelay.Text.Utf8
import EventRelay.Timing.Backoff
import EventRelay.Timing.Duration
import EventRelay.Timing.IdleLimit
import EventRelay.Toml.Document
import EventRelay.Toml.Quoted
import EventRelay.Toml.Scalar
import EventRelay.Toml.Scan
import EventRelay.Toml.Table
import EventRelay.Url.Basic
import EventRelay.Url.Domain
import EventRelay.Url.Folding
import EventRelay.Url.Host
import EventRelay.Url.Parse
import EventRelay.Url.Punycode
import EventRelay.Proofs.Frame.Cutting
import EventRelay.Frame.Feeding
import EventRelay.Proofs.Frame.Searching
import EventRelay.Proofs.Frame.Refinement
import EventRelay.Proofs.Frame.Resuming
import EventRelay.Proofs.Session.Waiting
import EventRelay.Proofs.Session.Transition
import EventRelay.Proofs.Session.Reachable
import EventRelay.Proofs.Session.OneStream
import EventRelay.Proofs.Session.Delivery
import EventRelay.Proofs.Session.Counting
import EventRelay.Proofs.Session.Retry
import EventRelay.Proofs.Session.Hearing
import EventRelay.Proofs.Session.Stopping
import EventRelay.Proofs.Session.Ending
import EventRelay.Proofs.Session.Cancelling
import EventRelay.Proofs.Session.Detaching
import EventRelay.Proofs.Text.Split
import EventRelay.Proofs.Text.Utf8
import EventRelay.Proofs.Text.Scanning
import EventRelay.Proofs.Frame.Blocks
import EventRelay.Proofs.Frame.Fields
import EventRelay.Proofs.Frame.Locality
import EventRelay.Proofs.Frame.RoundTrip
import EventRelay.Proofs.Config.Finishing
import EventRelay.Proofs.Config.Pinning
import EventRelay.Proofs.Config.Reloading
import EventRelay.Proofs.Config.Watching
import EventRelay.Proofs.Source.Custody
import EventRelay.Proofs.Downstream.Queue
import EventRelay.Proofs.Downstream.Bounded
import EventRelay.Proofs.Downstream.Relay
import EventRelay.Proofs.Observe.Metrics
import EventRelay.Proofs.Session.Measuring
import EventRelay.Proofs.Session.Causes
import EventRelay.Proofs.Session.Accounting
import EventRelay.Proofs.Frame.Fitting
import EventRelay.Proofs.Session.Outward
import EventRelay.Proofs.Session.Horizon
import EventRelay.Proofs.Session.Chunking
import EventRelay.Proofs.Session.Settling
import EventRelay.Proofs.Session.Recutting
import EventRelay.Proofs.Session.Exceeding
import EventRelay.Proofs.Session.Overflowing
import EventRelay.Proofs.Session.Scripted
import EventRelay.Proofs.Session.Idling
import EventRelay.Proofs.Text.Trimming
import EventRelay.Proofs.Http.Cookie
import EventRelay.Proofs.Http.Gate
import EventRelay.Proofs.Config.Accepting
import EventRelay.Proofs.Toml.Ranges
import EventRelay.Proofs.Config.Counted
import EventRelay.Proofs.Config.Delaying
import EventRelay.Proofs.Config.Values
import EventRelay.Proofs.Config.Mending
import EventRelay.Proofs.Config.Written
import EventRelay.Proofs.Config.Layering
import EventRelay.Proofs.Text.Plain
import EventRelay.Proofs.Http.Returning
import EventRelay.Proofs.Http.Surrounding
import EventRelay.Proofs.Http.LoggingIn
import EventRelay.Proofs.Http.Running
import EventRelay.Proofs.Http.Serving
import EventRelay.Proofs.Json.Members
import EventRelay.Proofs.Backend.Dividing
import EventRelay.Proofs.Backend.PassingThrough
import EventRelay.Proofs.Frame.Carrying
import EventRelay.Proofs.Frame.Escaping
import EventRelay.Proofs.Shutdown.Descent
import EventRelay.Proofs.Shutdown.Reaching
import EventRelay.Proofs.Json.Numerals
import EventRelay.Proofs.Json.Quoting
import EventRelay.Proofs.Json.Printing
import EventRelay.Proofs.Json.Rereading
import EventRelay.Proofs.Json.Ranges
import EventRelay.Proofs.Json.Stable
import EventRelay.Proofs.Json.Whole
import EventRelay.Proofs.Backend.Rereading
import EventRelay.Proofs.Backend.Enveloping
import EventRelay.Proofs.Backend.Repeating
import EventRelay.Proofs.Backend.Verdicts
import EventRelay.Proofs.Http.Loading
import EventRelay.Proofs.Url.Blanks
import EventRelay.Proofs.Url.Paths
import EventRelay.Proofs.Url.Authority
import EventRelay.Proofs.Url.Opening
import EventRelay.Proofs.Url.Significant
import EventRelay.Proofs.Backend.Joining
import EventRelay.Proofs.Backend.Addressing
import EventRelay.Proofs.Backend.Placing
import EventRelay.Proofs.Http.Forwarding
