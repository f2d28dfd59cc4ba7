import ProfileAdmin.Call.Header
import ProfileAdmin.Call.Identifier
import ProfileAdmin.Call.Operation
import ProfileAdmin.Call.Request
import ProfileAdmin.Call.Response
import ProfileAdmin.Call.Version
import ProfileAdmin.Client.Activate
import ProfileAdmin.Client.Connection
import ProfileAdmin.Client.Error
import ProfileAdmin.Client.Operations
import ProfileAdmin.Client.Settings
import ProfileAdmin.Command.Bulk
import ProfileAdmin.Command.Error
import ProfileAdmin.Command.Execute
import ProfileAdmin.Command.Flags
import ProfileAdmin.Command.Smoketest
import ProfileAdmin.CommandLine.Help
import ProfileAdmin.CommandLine.Invocation
import ProfileAdmin.CommandLine.Reading
import ProfileAdmin.CommandLine.Slot
import ProfileAdmin.CommandLine.Verb
import ProfileAdmin.Config.Settings
import ProfileAdmin.Config.Verification
import ProfileAdmin.Credential.Credentials
import ProfileAdmin.Crypto.Curve
import ProfileAdmin.Crypto.Edwards
import ProfileAdmin.Crypto.Modular
import ProfileAdmin.Crypto.Sha512
import ProfileAdmin.Decimal.Layout
import ProfileAdmin.Decimal.Shortest
import ProfileAdmin.Document.Value
import ProfileAdmin.Host.Event
import ProfileAdmin.Host.FileError
import ProfileAdmin.Host.Pool
import ProfileAdmin.Host.Program
import ProfileAdmin.Json.Content
import ProfileAdmin.Json.Fault
import ProfileAdmin.Json.Number
import ProfileAdmin.Json.Reader
import ProfileAdmin.Json.Skip
import ProfileAdmin.Json.Writer
import ProfileAdmin.Main
import ProfileAdmin.Pem.Base64
import ProfileAdmin.Pem.Section
import ProfileAdmin.Profile.Activation
import ProfileAdmin.Profile.Lifecycle
import ProfileAdmin.Profile.Status
import ProfileAdmin.Schema.Codec
import ProfileAdmin.Schema.Record
import ProfileAdmin.Schema.Shape
import ProfileAdmin.Text.Blank
import ProfileAdmin.Text.Numeral
import ProfileAdmin.Text.Quoted
import ProfileAdmin.Text.Unprinted
import ProfileAdmin.Text.Utf16
import ProfileAdmin.Text.Utf8
import ProfileAdmin.Tls.Certificate
import ProfileAdmin.Tls.Channel
import ProfileAdmin.Tls.Der
import ProfileAdmin.Tls.PrivateKey
import ProfileAdmin.Tls.Verifier
import ProfileAdmin.Toml.Document
import ProfileAdmin.Toml.Reader
import ProfileAdmin.Toml.Scalar
import ProfileAdmin.Toml.Text
import ProfileAdmin.Toml.Tree
import ProfileAdmin.Toml.Value
import ProfileAdmin.X509.Certificate
import ProfileAdmin.X509.Element
import ProfileAdmin.X509.Name
import ProfileAdmin.X509.Oid
import ProfileAdmin.X509.OidName
import ProfileAdmin.X509.Time
import ProfileAdmin.Proofs.Text.Utf8
import ProfileAdmin.Proofs.Json.Grammar
import ProfileAdmin.Proofs.Json.Reading
import ProfileAdmin.Proofs.Json.Skip
import ProfileAdmin.Proofs.Json.Brackets
import ProfileAdmin.Proofs.Json.Writing
import ProfileAdmin.Proofs.Schema.Meaning
import ProfileAdmin.Proofs.Schema.Record
import ProfileAdmin.Proofs.Schema.Alike
import ProfileAdmin.Proofs.Call.Meaning
import ProfileAdmin.Proofs.Call.Documents
import ProfileAdmin.Proofs.Config.Meaning
import ProfileAdmin.Proofs.Schema.RoundTrip
import ProfileAdmin.Proofs.Client.Exchange
import ProfileAdmin.Proofs.Client.Operations
import ProfileAdmin.Proofs.Client.Course
import ProfileAdmin.Proofs.Client.Endpoint
import ProfileAdmin.Proofs.Client.Provider
import ProfileAdmin.Proofs.Client.Protocol
import ProfileAdmin.Proofs.Client.Resumption
import ProfileAdmin.Proofs.Client.Token
import ProfileAdmin.Proofs.Client.Completion
import ProfileAdmin.Proofs.Host.Fairness
import ProfileAdmin.Proofs.Host.Correspondence
import ProfileAdmin.Proofs.Client.Steady
import ProfileAdmin.Proofs.Client.Isolation
import ProfileAdmin.Proofs.Host.Sequence
import ProfileAdmin.Proofs.Command.Bulk
import ProfileAdmin.Proofs.Command.Repetition
import ProfileAdmin.Proofs.Json.Unique
import ProfileAdmin.Proofs.Client.Attempt
import ProfileAdmin.Proofs.Client.Errand
import ProfileAdmin.Proofs.Client.Decision
import ProfileAdmin.Proofs.Client.Message
import ProfileAdmin.Proofs.Call.Identifier
import ProfileAdmin.Proofs.Client.Made
import ProfileAdmin.Proofs.Client.Session
import ProfileAdmin.Proofs.Host.History
import ProfileAdmin.Proofs.Host.Pool
import ProfileAdmin.Proofs.Host.Labour
import ProfileAdmin.Proofs.Command.Execution
import ProfileAdmin.Proofs.Command.Scope
import ProfileAdmin.Proofs.Command.Verdict
import ProfileAdmin.Proofs.CommandLine.Workers
import ProfileAdmin.Proofs.Client.Refusal
import ProfileAdmin.Proofs.Command.Overriding
import ProfileAdmin.Proofs.Config.Endpoint
import ProfileAdmin.Proofs.Client.Url
import ProfileAdmin.Proofs.Text.Quoted
import ProfileAdmin.Proofs.Text.Line
import ProfileAdmin.Proofs.Json.Blame
import ProfileAdmin.Proofs.Schema.Blame
import ProfileAdmin.Proofs.Client.Wording
import ProfileAdmin.Proofs.Command.Lockstep
import ProfileAdmin.Proofs.Command.Output
import ProfileAdmin.Proofs.Command.Resolution
import ProfileAdmin.Proofs.Tls.Bundle
import ProfileAdmin.Proofs.Command.Report
import ProfileAdmin.Proofs.X509.Extent
import ProfileAdmin.Proofs.Credential.Loading
import ProfileAdmin.Proofs.Credential.Items
import ProfileAdmin.Proofs.Host.Journal
import ProfileAdmin.Proofs.Client.Construction
import ProfileAdmin.Proofs.CommandLine.Spelling
import ProfileAdmin.Proofs.Host.Unison
import ProfileAdmin.Proofs.Client.Secrecy
import ProfileAdmin.Proofs.Command.Secrecy
import ProfileAdmin.Proofs.Text.Blank
import ProfileAdmin.Proofs.Config.Validity
import ProfileAdmin.Proofs.Call.Version
import ProfileAdmin.Proofs.Command.Listing
import ProfileAdmin.Proofs.Toml.Reading
import ProfileAdmin.Proofs.Toml.Lines
import ProfileAdmin.Proofs.Toml.Members
import ProfileAdmin.Proofs.Toml.Edits
import ProfileAdmin.Proofs.Toml.Shape
import ProfileAdmin.Proofs.Toml.Filling
import ProfileAdmin.Proofs.Schema.Table
import ProfileAdmin.Proofs.Config.Tables
import ProfileAdmin.Proofs.Config.Document
