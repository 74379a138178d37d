import Provision.Artifact
import Provision.Calendar
import Provision.Capability
import Provision.Collection
import Provision.Collection.Call
import Provision.Command.Arguments
import Provision.Command.Configuration
import Provision.Command.Run
import Provision.Csv
import Provision.Decimal.Dyadic
import Provision.Decimal.Layout
import Provision.Decimal.Nearest
import Provision.Decimal.Reader
import Provision.Decimal.Shortest
import Provision.Failure
import Provision.FileTree
import Provision.Http
import Provision.Http.Client
import Provision.Installable
import Provision.Installable.Reader
import Provision.Json.Reader
import Provision.Json.Writer
import Provision.Log
import Provision.Main
import Provision.Manifest
import Provision.Number
import Provision.Path
import Provision.Report
import Provision.Repository
import Provision.Request
import Provision.Resolution.Access
import Provision.Resolution.Search
import Provision.Resolution.State
import Provision.Resolution.Traversal
import Provision.Text.Blank
import Provision.Text.Blocks
import Provision.Text.Case
import Provision.Text.Case.Table
import Provision.Text.Digit
import Provision.Text.Element
import Provision.Text.Numeral
import Provision.Text.Printable
import Provision.Text.Quoted
import Provision.Text.Secret
import Provision.Url
import Provision.Url.Address
import Provision.Url.Public
import Provision.Url.Reference
import Provision.Value
import Provision.Value.Enumeration
import Provision.Value.Key
import Provision.Value.Literal
import Provision.Version
import Provision.Version.Constructed
import Provision.Version.Reader
import Provision.VersionRange
import Provision.Workspace
import Provision.Workspace.Access
import Provision.Workspace.Export
import Provision.Workspace.Loading
import Provision.Workspace.Lookup
import Provision.Yaml.Cursor
import Provision.Yaml.Document
import Provision.Yaml.Graph
import Provision.Yaml.Merge
import Provision.Yaml.Node
import Provision.Yaml.Object
import Provision.Yaml.Scalar
import Provision.Yaml.Scalar.Typed
import Provision.Yaml.Stream
import Provision.Yaml.Tag
import Provision.Yaml.Token
import Provision.Yaml.Token.Lexer
import Provision.Proofs.Collection
import Provision.Proofs.Resolution.State
import Provision.Proofs.Resolution.Status
import Provision.Proofs.Resolution.Passage
import Provision.Proofs.Resolution.Moves
import Provision.Proofs.Resolution.Mirror
import Provision.Proofs.Resolution.Failing
import Provision.Proofs.Resolution.Calls
import Provision.Proofs.Resolution.Listing
import Provision.Proofs.Resolution.Recursion
import Provision.Proofs.Resolution.Settled
import Provision.Proofs.Resolution.Bounded
import Provision.Proofs.Workspace.Reading
import Provision.Proofs.Workspace.Keeping
import Provision.Proofs.Workspace.Memory
import Provision.Proofs.Workspace.Steady
import Provision.Proofs.Resolution.Closure
import Provision.Proofs.Resolution.Consistency
import Provision.Proofs.Resolution.Provenance
import Provision.Proofs.Resolution.Accounting
import Provision.Proofs.Workspace.Failures
import Provision.Proofs.Resolution.Breadcrumb
import Provision.Proofs.Resolution.Termination
import Provision.Proofs.Resolution.Tolerance
import Provision.Proofs.Resolution.Lockstep
import Provision.Proofs.Workspace.Contents
import Provision.Proofs.Resolution.Supplies
import Provision.Proofs.Resolution.Gathering
import Provision.Proofs.Workspace.Remembering
import Provision.Proofs.Resolution.Appending
import Provision.Proofs.Resolution.Correspondence
import Provision.Proofs.Resolution.Probing
import Provision.Proofs.Resolution.Homebound
import Provision.Proofs.Resolution.Searches
import Provision.Proofs.Http.Client
import Provision.Proofs.Manifest
import Provision.Proofs.Resolution.Emptiness
import Provision.Proofs.Workspace.Separation
import Provision.Proofs.Workspace.Unreadable
import Provision.Proofs.Resolution.Extension
import Provision.Proofs.Resolution.Restraint
import Provision.Proofs.Text.Numeral
import Provision.Proofs.Value
import Provision.Proofs.Manifest.Shape
import Provision.Proofs.Manifest.Acceptance
import Provision.Proofs.Manifest.Loading
import Provision.Proofs.Workspace.Document
import Provision.Proofs.Workspace.Outcome
import Provision.Proofs.Text.Quoted
import Provision.Proofs.Http.Key
import Provision.Proofs.Http.Attempts
import Provision.Proofs.Http.Receipts
import Provision.Proofs.Workspace.Finding
import Provision.Proofs.Workspace.History
import Provision.Proofs.Workspace.Retrying
import Provision.Proofs.Workspace.Interruption
import Provision.Proofs.Command.Settings
import Provision.Proofs.Command.Ending
import Provision.Proofs.Http.Retries
import Provision.Proofs.Version
import Provision.Proofs.Resolution.Reporting
import Provision.Proofs.Workspace.Naming
import Provision.Proofs.Failure
import Provision.Proofs.Text.Pieces
import Provision.Proofs.Version.Grammar
import Provision.Proofs.Version.RoundTrip
import Provision.Proofs.Version.Order
import Provision.Proofs.VersionRange.Grammar
import Provision.Proofs.VersionRange.RoundTrip
import Provision.Proofs.VersionRange.Emptiness
import Provision.Proofs.Yaml.Plain
import Provision.Proofs.Manifest.Alike
import Provision.Proofs.Manifest.Respelling
import Provision.Proofs.Url.Written
import Provision.Proofs.Url.Public
import Provision.Proofs.Command.Overrides
import Provision.Proofs.Manifest.Unquoted
import Provision.Proofs.Yaml.Twins
import Provision.Proofs.Yaml.Pairing
import Provision.Proofs.Yaml.Lockstep
import Provision.Proofs.Yaml.Composing
import Provision.Proofs.Yaml.Merging
import Provision.Proofs.Value.Key
import Provision.Proofs.Yaml.Making
import Provision.Proofs.Yaml.Filling
import Provision.Proofs.Yaml.Following
import Provision.Proofs.Json.Reading
import Provision.Proofs.Json.Depth
import Provision.Proofs.Json.Requoting
import Provision.Proofs.Json.Respelling
import Provision.Proofs.Installable
import Provision.Proofs.Workspace.Selection
import Provision.Proofs.Workspace.Serving
import Provision.Proofs.Workspace.Requests
import Provision.Proofs.Workspace.Decision
import Provision.Proofs.Text.Whole
import Provision.Proofs.Csv
import Provision.Proofs.FileTree
import Provision.Proofs.Json.Written
import Provision.Proofs.Report
import Provision.Proofs.Text.Secret
import Provision.Proofs.Collection.Answers
