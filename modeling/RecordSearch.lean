import RecordSearch.Answers
import RecordSearch.ApiError
import RecordSearch.Binary64
import RecordSearch.Binary64.Shortest
import RecordSearch.CommandLine
import RecordSearch.Config
import RecordSearch.Fields
import RecordSearch.Http.Cors
import RecordSearch.Http.MediaType
import RecordSearch.Http.Message
import RecordSearch.Http.Multipart
import RecordSearch.Http.StaticSite
import RecordSearch.Json
import RecordSearch.Json.Fault
import RecordSearch.Json.Reader
import RecordSearch.Json.Shape
import RecordSearch.Json.Skip
import RecordSearch.Json.Writer
import RecordSearch.Main
import RecordSearch.Proofs.Answers.Depth
import RecordSearch.Proofs.Answers.RoundTrip
import RecordSearch.Proofs.Binary64.Decimal
import RecordSearch.Proofs.Binary64.Order
import RecordSearch.Proofs.Binary64.Rounding
import RecordSearch.Proofs.Binary64.Shortest
import RecordSearch.Proofs.CommandLine.Arguments
import RecordSearch.Proofs.CommandLine.Assignments
import RecordSearch.Proofs.CommandLine.Numerals
import RecordSearch.Proofs.CommandLine.Sources
import RecordSearch.Proofs.Csv.Cutting
import RecordSearch.Proofs.Csv.Faults
import RecordSearch.Proofs.Csv.Reading
import RecordSearch.Proofs.Csv.Written
import RecordSearch.Proofs.Fields.Agreement
import RecordSearch.Proofs.Fields.Merge
import RecordSearch.Proofs.Fields.Order
import RecordSearch.Proofs.Json.Depth
import RecordSearch.Proofs.Json.Equality
import RecordSearch.Proofs.Json.Limit
import RecordSearch.Proofs.Json.Lists
import RecordSearch.Proofs.Json.Members
import RecordSearch.Proofs.Json.Numbers
import RecordSearch.Proofs.Json.Outcomes
import RecordSearch.Proofs.Json.Prefix
import RecordSearch.Proofs.Json.RoundTrip
import RecordSearch.Proofs.Json.Settled
import RecordSearch.Proofs.Json.Strings
import RecordSearch.Proofs.Json.Structs
import RecordSearch.Proofs.Json.Tokens
import RecordSearch.Proofs.Query.Bound
import RecordSearch.Proofs.Query.Conjunction
import RecordSearch.Proofs.Query.Encoding
import RecordSearch.Proofs.Query.Equality
import RecordSearch.Proofs.Query.Grammar
import RecordSearch.Proofs.Query.IntegerRange
import RecordSearch.Proofs.Query.Interval
import RecordSearch.Proofs.Query.Joining
import RecordSearch.Proofs.Query.LetterCase
import RecordSearch.Proofs.Query.Meaning
import RecordSearch.Proofs.Query.NumberRange
import RecordSearch.Proofs.Query.Progress
import RecordSearch.Proofs.Query.Provenance
import RecordSearch.Proofs.Query.Rendering
import RecordSearch.Proofs.Query.Scan
import RecordSearch.Proofs.Record.Building
import RecordSearch.Proofs.Record.Identifier
import RecordSearch.Proofs.Record.Reading
import RecordSearch.Proofs.Record.RoundTrip
import RecordSearch.Proofs.Record.Submitted
import RecordSearch.Proofs.Service.Growth
import RecordSearch.Proofs.Service.Origins
import RecordSearch.Proofs.Service.Searching
import RecordSearch.Proofs.Service.Startup
import RecordSearch.Proofs.Service.UploadLimit
import RecordSearch.Proofs.Service.Uploading
import RecordSearch.Proofs.Store.Session
import RecordSearch.Proofs.Text.Broken
import RecordSearch.Proofs.Text.LetterCase
import RecordSearch.Proofs.Text.Numerals
import RecordSearch.Proofs.Text.Percent
import RecordSearch.Proofs.Text.Runs
import RecordSearch.Proofs.Text.Utf8
import RecordSearch.Proofs.Text.Validity
import RecordSearch.Proofs.Upload.FileName
import RecordSearch.Proofs.Upload.PlainText
import RecordSearch.Query.Constraint
import RecordSearch.Query.Encoding
import RecordSearch.Query.Fragment
import RecordSearch.Record
import RecordSearch.Server
import RecordSearch.Store
import RecordSearch.Text.CaseTable
import RecordSearch.Text.Digits
import RecordSearch.Text.HiddenTable
import RecordSearch.Text.Lowercase
import RecordSearch.Text.Numeral
import RecordSearch.Text.Percent
import RecordSearch.Text.Plain
import RecordSearch.Text.Quoted
import RecordSearch.Text.Ranges
import RecordSearch.Text.Similarity
import RecordSearch.Text.Split
import RecordSearch.Text.Utf8
import RecordSearch.Upload.Content
import RecordSearch.Upload.Csv
import RecordSearch.Upload.Extract
import RecordSearch.Upload.FileKind
