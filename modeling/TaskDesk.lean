import TaskDesk.Calendar.Clock
import TaskDesk.Calendar.Date
import TaskDesk.Calendar.Iso
import TaskDesk.Completion.Apply
import TaskDesk.Completion.Keywords
import TaskDesk.Completion.Offer
import TaskDesk.Completion.Typing
import TaskDesk.Desk.Basic
import TaskDesk.Desk.Command
import TaskDesk.Desk.Projects
import TaskDesk.Desk.Tasks
import TaskDesk.Draft.Basic
import TaskDesk.Draft.DatePhrase
import TaskDesk.Draft.Found
import TaskDesk.Draft.PriorityPhrase
import TaskDesk.Draft.TimePhrase
import TaskDesk.Filter.Basic
import TaskDesk.Filter.Matching
import TaskDesk.Form.Basic
import TaskDesk.Form.Numeral
import TaskDesk.Form.Records
import TaskDesk.Json.Basic
import TaskDesk.Json.Decimal
import TaskDesk.Json.Reader
import TaskDesk.Phrase
import TaskDesk.Proofs.Calendar.Ahead
import TaskDesk.Proofs.Calendar.Order
import TaskDesk.Proofs.Completion.DateRun
import TaskDesk.Proofs.Completion.Exclusive
import TaskDesk.Proofs.Completion.Offers
import TaskDesk.Proofs.Completion.Search
import TaskDesk.Proofs.Completion.Table
import TaskDesk.Proofs.Completion.Understood
import TaskDesk.Proofs.Completion.Untouched
import TaskDesk.Proofs.Desk.Beside
import TaskDesk.Proofs.Desk.Creation
import TaskDesk.Proofs.Desk.Kept
import TaskDesk.Proofs.Desk.NewTask
import TaskDesk.Proofs.Desk.Orderly
import TaskDesk.Proofs.Desk.Outcome
import TaskDesk.Proofs.Desk.Rewrite
import TaskDesk.Proofs.Desk.Rollback
import TaskDesk.Proofs.Desk.Sparing
import TaskDesk.Proofs.Desk.Stamps
import TaskDesk.Proofs.Desk.Subtasks
import TaskDesk.Proofs.Desk.Success
import TaskDesk.Proofs.Desk.Trace
import TaskDesk.Proofs.Draft.AnyCase
import TaskDesk.Proofs.Draft.ClockParts
import TaskDesk.Proofs.Draft.DateAhead
import TaskDesk.Proofs.Draft.DateWord
import TaskDesk.Proofs.Draft.FirstOnly
import TaskDesk.Proofs.Draft.ForeignName
import TaskDesk.Proofs.Draft.Local
import TaskDesk.Proofs.Draft.Numbers
import TaskDesk.Proofs.Draft.OtherDay
import TaskDesk.Proofs.Draft.PriorityWord
import TaskDesk.Proofs.Draft.Sendable
import TaskDesk.Proofs.Draft.Stages
import TaskDesk.Proofs.Draft.TimeFree
import TaskDesk.Proofs.Draft.TimeWord
import TaskDesk.Proofs.Draft.WordLoss
import TaskDesk.Proofs.Draft.Written
import TaskDesk.Proofs.Filter.Canonical
import TaskDesk.Proofs.Filter.Composition
import TaskDesk.Proofs.Filter.Criteria
import TaskDesk.Proofs.Filter.DueDates
import TaskDesk.Proofs.Filter.Merge
import TaskDesk.Proofs.Filter.Ranking
import TaskDesk.Proofs.Filter.Selection
import TaskDesk.Proofs.Filter.Verbatim
import TaskDesk.Proofs.Json.Sendable
import TaskDesk.Proofs.Phrase.Alone
import TaskDesk.Proofs.Phrase.AnyCase
import TaskDesk.Proofs.Phrase.Characters
import TaskDesk.Proofs.Phrase.Cutting
import TaskDesk.Proofs.Phrase.Margins
import TaskDesk.Proofs.Phrase.Marks
import TaskDesk.Proofs.Phrase.Occurrences
import TaskDesk.Proofs.Phrase.Reading
import TaskDesk.Proofs.Phrase.Seam
import TaskDesk.Proofs.Phrase.Standing
import TaskDesk.Proofs.Phrase.WordCut
import TaskDesk.Proofs.Service.Agreement
import TaskDesk.Proofs.Service.Calls
import TaskDesk.Proofs.Service.Careful
import TaskDesk.Proofs.Service.Creation
import TaskDesk.Proofs.Service.Deletion
import TaskDesk.Proofs.Service.Edited
import TaskDesk.Proofs.Service.Effect
import TaskDesk.Proofs.Service.Entry
import TaskDesk.Proofs.Service.Failure
import TaskDesk.Proofs.Service.History
import TaskDesk.Proofs.Service.Issued
import TaskDesk.Proofs.Service.Lifetime
import TaskDesk.Proofs.Service.Members
import TaskDesk.Proofs.Service.Numbering
import TaskDesk.Proofs.Service.Reorder
import TaskDesk.Proofs.Service.Requests
import TaskDesk.Proofs.Service.Retry
import TaskDesk.Proofs.Service.Search
import TaskDesk.Proofs.Service.SentBack
import TaskDesk.Proofs.Service.Stamps
import TaskDesk.Proofs.Service.Update
import TaskDesk.Proofs.Store.Absent
import TaskDesk.Proofs.Store.Edit
import TaskDesk.Proofs.Store.Integrity
import TaskDesk.Proofs.Store.Listing
import TaskDesk.Proofs.Store.Presentable
import TaskDesk.Proofs.Store.Record
import TaskDesk.Proofs.Store.Revisions
import TaskDesk.Proofs.Store.Step
import TaskDesk.Proofs.Store.Success
import TaskDesk.Proofs.Store.View
import TaskDesk.Proofs.Text.Fold
import TaskDesk.Proofs.Text.FoldParts
import TaskDesk.Proofs.Text.Lower
import TaskDesk.Proofs.Text.Order
import TaskDesk.Proofs.Text.Runs
import TaskDesk.Proofs.Text.Sigma
import TaskDesk.Proofs.Text.Span
import TaskDesk.Proofs.Text.Split
import TaskDesk.Proofs.Text.Tidy
import TaskDesk.Proofs.Text.Variants
import TaskDesk.Proofs.Text.Words
import TaskDesk.Record
import TaskDesk.Service.Basic
import TaskDesk.Service.Body
import TaskDesk.Service.Endpoint
import TaskDesk.Service.History
import TaskDesk.Service.Reply
import TaskDesk.Store.Basic
import TaskDesk.Store.Definition
import TaskDesk.Store.Migration
import TaskDesk.Store.Query
import TaskDesk.Store.Schema
import TaskDesk.Store.Statement
import TaskDesk.Text.Basic
import TaskDesk.Text.Blank
import TaskDesk.Text.Case
import TaskDesk.Text.CodePoint
import TaskDesk.Text.Digit
import TaskDesk.Text.Encoding
import TaskDesk.Text.Ranges
import TaskDesk.Text.Word
