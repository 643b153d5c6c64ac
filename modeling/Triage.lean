import Triage.BadValue
import Triage.Build.Arguments
import Triage.Build.Compiler
import Triage.Build.Fault
import Triage.Build.Path
import Triage.Build.ResponseFile
import Triage.Build.Retarget
import Triage.Build.Shell
import Triage.Build.Step
import Triage.Build.Verdict
import Triage.Calendar.Date
import Triage.Calendar.Interval
import Triage.Calendar.Timestamp
import Triage.Command.Options
import Triage.Command.Parse
import Triage.Command.Run
import Triage.Facet.Candidate
import Triage.Facet.Kind
import Triage.Facet.Offers
import Triage.Facet.Selection
import Triage.Facet.State
import Triage.Facet.Tickets
import Triage.Files
import Triage.Gateway
import Triage.Glob
import Triage.History.Form
import Triage.History.State
import Triage.Json.Double
import Triage.Json.Literal
import Triage.Json.Printer
import Triage.Json.Reader
import Triage.Json.Term
import Triage.Json.Token
import Triage.Json.Value
import Triage.Main
import Triage.Panel.Format
import Triage.Panel.Groups
import Triage.Panel.Items
import Triage.Panel.Lifecycle
import Triage.Panel.Refusal
import Triage.Panel.Selecting
import Triage.Panel.Standard
import Triage.Panel.State
import Triage.Proofs.Answers
import Triage.Proofs.Coherence
import Triage.Proofs.Histories
import Triage.Proofs.Resolution
import Triage.Proofs.Rounds
import Triage.Proofs.Runs
import Triage.Proofs.Scopes
import Triage.Report.Code
import Triage.Report.Counts
import Triage.Report.Filter
import Triage.Report.Format
import Triage.Report.Store
import Triage.Settings.Config
import Triage.Settings.Dotenv
import Triage.Table
import Triage.Text.Blank
import Triage.Text.Cut
import Triage.Text.Decimal
import Triage.Text.Flag
import Triage.Text.Hex
import Triage.Text.Order
import Triage.Text.Utf8
import Triage.Text.WordChars
import Triage.Proofs.Loading
import Triage.Proofs.Caches
import Triage.Proofs.Days
import Triage.Proofs.Timestamps
import Triage.Proofs.Selections
import Triage.Proofs.ShareLinks
import Triage.Proofs.Fetches
import Triage.Proofs.Contributions
import Triage.Proofs.Navigation
import Triage.Proofs.Names
import Triage.Proofs.Comparisons
import Triage.Proofs.Narrowing
import Triage.Proofs.Offered
import Triage.Proofs.OwnConditions
import Triage.Proofs.Patterns
import Triage.Proofs.Representatives
import Triage.Proofs.ValueCounts
import Triage.Proofs.QueryStrings
import Triage.Proofs.Intervals
import Triage.Proofs.Tokens
import Triage.Proofs.Trees
import Triage.Proofs.Retargeting
import Triage.Proofs.Columns
import Triage.Proofs.Checked
import Triage.Proofs.SecondPass
import Triage.Proofs.Bookkeeping
import Triage.Proofs.Registration
import Triage.Proofs.Defaults
import Triage.Proofs.Failures
import Triage.Proofs.Alternatives
import Triage.Proofs.Tallies
import Triage.Proofs.Searches
import Triage.Proofs.Inclusions
import Triage.Proofs.Concatenation
import Triage.Proofs.FlagValues
import Triage.Proofs.CompilerNames
import Triage.Proofs.Offenders
import Triage.Proofs.Instants
import Triage.Proofs.CompactTexts
import Triage.Proofs.Records
import Triage.Proofs.Accounting
import Triage.Proofs.DriverPairs
import Triage.Proofs.Replies
import Triage.Proofs.Bursts
import Triage.Proofs.Undoing
import Triage.Proofs.Independence
