import DeadDrop.Http.Layer
import DeadDrop.Main
import DeadDrop.Proofs.Action
import DeadDrop.Proofs.Json.Quoted
import DeadDrop.Proofs.Record.Depth
import DeadDrop.Proofs.Record.Json
import DeadDrop.Proofs.Store.Calls
import DeadDrop.Proofs.Store.Row
import DeadDrop.Proofs.Table
import DeadDrop.Proofs.Text.Utf8
import DeadDrop.Proofs.Transcript
import DeadDrop.Server.Session
import DeadDrop.Proofs.Store.Mirror
import DeadDrop.Proofs.Service.Requests
import DeadDrop.Proofs.Store.Live
import DeadDrop.Proofs.Service.Isolation
import DeadDrop.Proofs.Service.Readable
import DeadDrop.Proofs.Service.Reference
import DeadDrop.Proofs.Store.Reclaimed
import DeadDrop.Proofs.Service.Failure
import DeadDrop.Proofs.Store.History
import DeadDrop.Proofs.Limiter.Clients
import DeadDrop.Proofs.Limiter.TokenBucket
import DeadDrop.Proofs.Limiter.Load
import DeadDrop.Proofs.Stats.Counters
import DeadDrop.Proofs.Stats.Window
import DeadDrop.Proofs.Stats.Hours
import DeadDrop.Proofs.Http.Dispatch
import DeadDrop.Proofs.Http.Layers
import DeadDrop.Proofs.Http.Accounting
import DeadDrop.Proofs.Http.Rejection
import DeadDrop.Proofs.Binary64.Rounding
import DeadDrop.Proofs.Limiter.Rates
import DeadDrop.Proofs.Server.Start
import DeadDrop.Proofs.Server.Retention
import DeadDrop.Proofs.Text.Html
import DeadDrop.Proofs.Record.Leaves
import DeadDrop.Proofs.Store.Contents
import DeadDrop.Proofs.Service.Leaves
import DeadDrop.Proofs.Http.Exchange
import DeadDrop.Proofs.Http.Inert
import DeadDrop.Proofs.Text.Split
import DeadDrop.Proofs.Credential
import DeadDrop.Proofs.Record.Field
import DeadDrop.Proofs.Service.Lasting
import DeadDrop.Proofs.Http.Target
import DeadDrop.Proofs.Http.FieldUrl
import DeadDrop.Proofs.Store.Transaction
import DeadDrop.Proofs.Store.Gone
import DeadDrop.Proofs.Stats.Lifetime
import DeadDrop.Proofs.Http.Spelling
import DeadDrop.Proofs.Record.Merge
import DeadDrop.Proofs.Service.Errors
import DeadDrop.Proofs.Http.Reports
import DeadDrop.Proofs.Store.Twins
import DeadDrop.Proofs.Http.Secrecy
import DeadDrop.Proofs.Store.Expiry
import DeadDrop.Proofs.Store.Sweep
import DeadDrop.Proofs.Service.Keys
import DeadDrop.Proofs.Service.StoredForm
import DeadDrop.Proofs.Text.Trim
import DeadDrop.Proofs.Time.Duration
import DeadDrop.Proofs.Net.Socket
import DeadDrop.Proofs.Limiter.Hosts
import DeadDrop.Proofs.Http.Upload
import DeadDrop.Proofs.Text.Numeral
import DeadDrop.Proofs.Time.Calendar
import DeadDrop.Proofs.Time.Moment
import DeadDrop.Proofs.Service.Stamp
import DeadDrop.Proofs.Http.DeclaredSize
import DeadDrop.Proofs.Record.Lookup
import DeadDrop.Proofs.Record.Fuse
import DeadDrop.Proofs.Http.DecodedField
import DeadDrop.Proofs.Json.Grammar
import DeadDrop.Proofs.Json.Strings
import DeadDrop.Proofs.Json.Lexer
import DeadDrop.Proofs.Record.Reader
import DeadDrop.Proofs.Service.Decoding
