import UrlScan.CommandLine.Run
import UrlScan.Main
import UrlScan.Proofs.Text.CaseFree
import UrlScan.Proofs.Url.Grammar
import UrlScan.Proofs.Url.Reading
import UrlScan.Proofs.Url.LongestWord
import UrlScan.Proofs.Source.Offsets
import UrlScan.Proofs.Source.Positions
import UrlScan.Proofs.SyntaxTree.Order
import UrlScan.Proofs.Url.Places
import UrlScan.Proofs.Extraction.Placement
import UrlScan.Proofs.Scan.ScannedFile
import UrlScan.Proofs.Scan.Rounds
import UrlScan.Proofs.Scan.Sequential
import UrlScan.Proofs.Extraction.Delimited
import UrlScan.Proofs.Url.Expression
import UrlScan.Proofs.Pool.Buckets
import UrlScan.Proofs.Pool.Loans
import UrlScan.Proofs.Pool.Sharing
import UrlScan.Proofs.Scan.Workers
import UrlScan.Proofs.Scan.WorkerRuns
import UrlScan.Proofs.Scan.FailFast
import UrlScan.Proofs.Text.LowerCase
import UrlScan.Proofs.Url.Parts
import UrlScan.Proofs.Url.HostAgreement
import UrlScan.Proofs.Settings.Mappings
import UrlScan.Proofs.Yaml.DistinctKeys
import UrlScan.Proofs.Settings.Options
import UrlScan.Proofs.Settings.Precedence
import UrlScan.Proofs.Language.ReadyGrammars
import UrlScan.Proofs.Scan.Filtering
import UrlScan.Proofs.Scan.Replacement
import UrlScan.Proofs.Json.Reader
import UrlScan.Proofs.Json.Writing
import UrlScan.Proofs.Json.RoundTrip
import UrlScan.Proofs.Report.JsonReport
import UrlScan.Proofs.Csv.Reader
import UrlScan.Proofs.Report.CsvReport
import UrlScan.Proofs.Language.Replay
import UrlScan.Proofs.Report.Counters
import UrlScan.Proofs.Settings.Decoding
import UrlScan.Proofs.Settings.Faults
import UrlScan.Proofs.Source.Lines
import UrlScan.Proofs.Extraction.LineByLine
import UrlScan.Proofs.Extraction.Context
import UrlScan.Proofs.SyntaxTree.Walk
import UrlScan.Proofs.Extraction.Comments
import UrlScan.Proofs.Url.IgnoredDomains
import UrlScan.Proofs.Text.WellFormed
import UrlScan.Proofs.Source.NamedEncodings
import UrlScan.Proofs.Url.Reported
import UrlScan.Proofs.Url.Overlap
import UrlScan.Proofs.Url.SingleLabel
import UrlScan.Proofs.Url.RootDot
import UrlScan.Proofs.Text.Recased
import UrlScan.Proofs.Url.LetterCase
import UrlScan.Proofs.Language.Additions
import UrlScan.Proofs.Language.Detection
import UrlScan.Proofs.Pool.Accounts
import UrlScan.Proofs.Pool.Refusals
import UrlScan.Proofs.Settings.EmptySections
import UrlScan.Proofs.FileSystem.Resolved
import UrlScan.Proofs.Discovery.Selection
import UrlScan.Proofs.Discovery.SetFilter
import UrlScan.Proofs.Discovery.Directories
import UrlScan.Proofs.Text.Trimmed
import UrlScan.Proofs.Url.Decorations
import UrlScan.Proofs.Report.TableReport
import UrlScan.Proofs.Settings.MadeOptions
import UrlScan.Proofs.Discovery.Faults
import UrlScan.Proofs.Discovery.RunEnds
import UrlScan.Proofs.Text.CommaLists
