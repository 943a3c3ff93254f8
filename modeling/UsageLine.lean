import UsageLine.Version
import UsageLine.Text
import UsageLine.Text.Seen
import UsageLine.Text.Quoted
import UsageLine.Mark
import UsageLine.Tag
import UsageLine.Tag.Shorthand
import UsageLine.Tag.Display
import UsageLine.Tag.Spelled
import UsageLine.Utf8
import UsageLine.UsageError
import UsageLine.Scan
import UsageLine.Resolution
import UsageLine.Parse
import UsageLine.Journal
import UsageLine.Usage
import UsageLine.Session
import UsageLine.Decimal
import UsageLine.Decimal.Shortest
import UsageLine.Json
import UsageLine.Json.Lexeme
import UsageLine.Json.Numeral
import UsageLine.Json.Numeral.Value
import UsageLine.Json.Quote
import UsageLine.Json.Compact
import UsageLine.Json.Reader
import UsageLine.Tag.Field
import UsageLine.Tag.DecodeError
import UsageLine.Tag.Draft
import UsageLine.Tag.Json
import UsageLine.Tag.JsonText
import UsageLine.Proofs.Placed
import UsageLine.Proofs.Tag.Naming
import UsageLine.Proofs.Segment
import UsageLine.Proofs.Segment.Growth
import UsageLine.Proofs.Segment.Alternatives
import UsageLine.Proofs.Segment.Misuses
import UsageLine.Proofs.Segment.Scan
import UsageLine.Proofs.Segment.Line
import UsageLine.Proofs.Segment.Spelling
import UsageLine.Proofs.Reading
import UsageLine.Proofs.Segment.Renaming
import UsageLine.Proofs.Resolving
import UsageLine.Proofs.Run
import UsageLine.Proofs.Admissible
import UsageLine.Proofs.FullForm
import UsageLine.Proofs.Rereading
import UsageLine.Proofs.Settling
import UsageLine.Proofs.Displays
import UsageLine.Proofs.Beginnings
import UsageLine.Proofs.Joining
import UsageLine.Proofs.Spaces
import UsageLine.Proofs.Brackets
import UsageLine.Proofs.RenamedLines
import UsageLine.Proofs.WrittenOptions
import UsageLine.Proofs.WrittenKinds
import UsageLine.Proofs.ResolvedTags
import UsageLine.Proofs.Journals
import UsageLine.Proofs.ReachedScans
import UsageLine.Proofs.Sessions
import UsageLine.Proofs.Utf8.Spelling
import UsageLine.Proofs.Utf8.Partial
import UsageLine.Proofs.Bytes
import UsageLine.Proofs.Json.ReadBack
import UsageLine.Proofs.Json.WrittenNumbers
import UsageLine.Proofs.Json.Skipping
import UsageLine.Proofs.Json.Members
import UsageLine.Proofs.Tag.Filling
import UsageLine.Proofs.StoredTags
import UsageLine.Proofs.Tag.Compact
import UsageLine.Proofs.Tag.Gathering
import UsageLine.Proofs.DecodedTags
