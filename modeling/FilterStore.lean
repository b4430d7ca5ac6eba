import FilterStore.CommandLine.Argument
import FilterStore.CommandLine.Host
import FilterStore.CommandLine.Invocation
import FilterStore.CommandLine.Report
import FilterStore.CommandLine.Run
import FilterStore.CommandLine.Scan
import FilterStore.CommandLine.Task
import FilterStore.CommandLine.Usage
import FilterStore.Failure
import FilterStore.Files.Companion
import FilterStore.Files.Content
import FilterStore.Files.Fault
import FilterStore.Files.Opening
import FilterStore.Files.Path
import FilterStore.Files.Tree
import FilterStore.Json.Codec
import FilterStore.Json.Flat
import FilterStore.Json.Token
import FilterStore.Main
import FilterStore.Name
import FilterStore.Quota.Basic
import FilterStore.Quota.Reading
import FilterStore.Repository.Event
import FilterStore.Repository.Method
import FilterStore.Repository.Operation
import FilterStore.Repository.Session
import FilterStore.Script
import FilterStore.Settings
import FilterStore.Store.Action
import FilterStore.Store.Archive
import FilterStore.Store.Database
import FilterStore.Store.Locator
import FilterStore.Store.Row
import FilterStore.Store.Step
import FilterStore.Store.Table
import FilterStore.Text.Blank
import FilterStore.Text.ByteOrder
import FilterStore.Text.Bytes
import FilterStore.Text.Numeral
import FilterStore.Text.Terminal
import FilterStore.Time.Date
import FilterStore.Time.Instant
import FilterStore.Time.Lenient
import FilterStore.Time.Reading
import FilterStore.Time.Timestamp
import FilterStore.Toml.Document
import FilterStore.Toml.Number
import FilterStore.Toml.Quoted
import FilterStore.Toml.Reading
import FilterStore.Toml.Table
import FilterStore.Proofs.Store.Rows
import FilterStore.Proofs.Store.Lookup
import FilterStore.Proofs.Store.Statement
import FilterStore.Proofs.Store.Ownership
import FilterStore.Proofs.Store.Storing
import FilterStore.Proofs.Repository.Outcome
import FilterStore.Proofs.Repository.Step
import FilterStore.Proofs.Repository.Readability
import FilterStore.Proofs.Repository.Soundness
import FilterStore.Proofs.Store.Volume
import FilterStore.Proofs.Repository.Machine
import FilterStore.Proofs.Repository.Space
import FilterStore.Proofs.Repository.Refinement
import FilterStore.Proofs.Repository.Scope
import FilterStore.Proofs.Repository.Batch
import FilterStore.Proofs.Repository.Isolation
import FilterStore.Proofs.Repository.ActiveScript
import FilterStore.Proofs.Repository.Listing
import FilterStore.Proofs.Repository.History
import FilterStore.Proofs.Repository.Lasting
import FilterStore.Proofs.Repository.QuotaLedger
import FilterStore.Proofs.Repository.Commutation
import FilterStore.Proofs.Repository.Interleaving
import FilterStore.Proofs.Repository.Renaming
import FilterStore.Proofs.Repository.AuditTrail
import FilterStore.Proofs.CommandLine.Sentence
import FilterStore.Proofs.Files.Databases
import FilterStore.Proofs.CommandLine.Course
import FilterStore.Proofs.CommandLine.Truth
import FilterStore.Proofs.Repository.Verdict
import FilterStore.Proofs.Repository.Switch
import FilterStore.Proofs.Files.Way
import FilterStore.Proofs.Files.DataDirectory
import FilterStore.Proofs.Files.Upkeep
import FilterStore.Proofs.CommandLine.Execution
import FilterStore.Proofs.CommandLine.Simulation
import FilterStore.Proofs.Quota.Spelling
import FilterStore.Proofs.Time.Calendar
import FilterStore.Proofs.Text.Numerals
import FilterStore.Proofs.Time.Spelling
import FilterStore.Proofs.Time.RoundTrip
import FilterStore.Proofs.Time.Exchange
import FilterStore.Proofs.Json.Spelling
import FilterStore.Proofs.Json.RoundTrip
import FilterStore.Proofs.Repository.Report
