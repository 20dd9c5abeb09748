import StreamMatch.Main
import StreamMatch.Match.Attachment
import StreamMatch.Proofs.Accounts
import StreamMatch.Proofs.Addresses
import StreamMatch.Proofs.Agreement
import StreamMatch.Proofs.AttemptReports
import StreamMatch.Proofs.Batches
import StreamMatch.Proofs.Bookkeeping
import StreamMatch.Proofs.Choices
import StreamMatch.Proofs.Counting
import StreamMatch.Proofs.DecodingStops
import StreamMatch.Proofs.DiscardEquivalence
import StreamMatch.Proofs.Encoding
import StreamMatch.Proofs.Faithfulness
import StreamMatch.Proofs.ForkChains
import StreamMatch.Proofs.IncrementalParsing
import StreamMatch.Proofs.Languages
import StreamMatch.Proofs.Ledger
import StreamMatch.Proofs.Locating
import StreamMatch.Proofs.LookaheadBounds
import StreamMatch.Proofs.Malformed
import StreamMatch.Proofs.Occupancy
import StreamMatch.Proofs.PatternAnchoring
import StreamMatch.Proofs.Precedence
import StreamMatch.Proofs.Progress
import StreamMatch.Proofs.Reclaiming
import StreamMatch.Proofs.Regrouping
import StreamMatch.Proofs.Replacement
import StreamMatch.Proofs.Retrying
import StreamMatch.Proofs.Rollback
import StreamMatch.Proofs.Tracing
import StreamMatch.Proofs.Units
