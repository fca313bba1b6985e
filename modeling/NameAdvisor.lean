import NameAdvisor.Main
import NameAdvisor.Provider.Scripted
import NameAdvisor.Proofs.Fallback
import NameAdvisor.Proofs.Text.Case
import NameAdvisor.Proofs.Text.Legal
import NameAdvisor.Proofs.Text.Lines
import NameAdvisor.Proofs.Rules.Legal
import NameAdvisor.Proofs.Rules.Contribution
import NameAdvisor.Proofs.Rules.Characters
import NameAdvisor.Proofs.Advice.Consultation
import NameAdvisor.Proofs.Advice.Report
import NameAdvisor.Proofs.Advice.Script
import NameAdvisor.Proofs.Advice.Insertion
import NameAdvisor.Proofs.Review.Conversation
import NameAdvisor.Proofs.Review.Input
import NameAdvisor.Proofs.Review.Coverage
import NameAdvisor.Proofs.Json.Tokens
import NameAdvisor.Proofs.Json.RoundTrip
import NameAdvisor.Proofs.FileSystem.Write
import NameAdvisor.Proofs.FileSystem.Directories
import NameAdvisor.Proofs.Json.Members
import NameAdvisor.Proofs.Json.Overlay
import NameAdvisor.Proofs.Json.Record
import NameAdvisor.Proofs.Json.Said
import NameAdvisor.Proofs.Json.Draft
import NameAdvisor.Proofs.Json.DraftDecode
import NameAdvisor.Proofs.Settings.Codec
import NameAdvisor.Proofs.Settings.File
import NameAdvisor.Proofs.Settings.Init
import NameAdvisor.Proofs.Settings.Precedence
import NameAdvisor.Proofs.Settings.Described
import NameAdvisor.Proofs.Network.Url
import NameAdvisor.Proofs.Provider.Keys
import NameAdvisor.Proofs.Provider.Replies
import NameAdvisor.Proofs.FileSystem.Apart
import NameAdvisor.Proofs.Review.Scan
import NameAdvisor.Proofs.DecisionLog.Growth
import NameAdvisor.Proofs.Settings.Redacted
import NameAdvisor.Proofs.DecisionLog.Section
import NameAdvisor.Proofs.Review.Log
import NameAdvisor.Proofs.Text.Pieces
import NameAdvisor.Proofs.Provider.Answers
import NameAdvisor.Proofs.FileSystem.Kept
import NameAdvisor.Proofs.Settings.Operations
import NameAdvisor.Proofs.Settings.Kept
import NameAdvisor.Proofs.Json.Nulls
import NameAdvisor.Proofs.Settings.Nulls
import NameAdvisor.Proofs.Tree.Walk
import NameAdvisor.Proofs.Source.Declarations
import NameAdvisor.Proofs.Stored
import NameAdvisor.Proofs.ScanOutput
import NameAdvisor.Proofs.Provider.Requests
import NameAdvisor.Proofs.Text.Numeral
import NameAdvisor.Proofs.Settings.Environment
import NameAdvisor.Proofs.SuggestionSet.Operations
import NameAdvisor.Proofs.Advice.Attribution
import NameAdvisor.Proofs.FileSystem.Order
import NameAdvisor.Proofs.FileSystem.Joined
import NameAdvisor.Proofs.FileSystem.Entries
import NameAdvisor.Proofs.Source.Discovery
import NameAdvisor.Proofs.Json.Merged
import NameAdvisor.Proofs.Rules.Domains
import NameAdvisor.Proofs.Fallback.Offers
import NameAdvisor.Proofs.Rules.Resources
import NameAdvisor.Proofs.Review.Choice
import NameAdvisor.Proofs.Source.Imports
import NameAdvisor.Proofs.Source.Comments
import NameAdvisor.Proofs.Grammar.Order
import NameAdvisor.Proofs.Source.Domain
import NameAdvisor.Proofs.Source.Component
import NameAdvisor.Proofs.Text.FirstCut
import NameAdvisor.Proofs.Source.HeaderComment
import NameAdvisor.Proofs.Network.Sibling
import NameAdvisor.Proofs.Provider.Probe
import NameAdvisor.Proofs.Settings.Mask
