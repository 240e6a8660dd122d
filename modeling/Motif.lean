import Motif.Listing
import Motif.Main
import Motif.Proofs.Acceptance
import Motif.Proofs.Actions
import Motif.Proofs.Alone
import Motif.Proofs.Bindings
import Motif.Proofs.Collection
import Motif.Proofs.Conflicts
import Motif.Proofs.Counters
import Motif.Proofs.Emptiness
import Motif.Proofs.Engines
import Motif.Proofs.Extremes
import Motif.Proofs.FailedOperations
import Motif.Proofs.Folding
import Motif.Proofs.Greed
import Motif.Proofs.Histories
import Motif.Proofs.InRange
import Motif.Proofs.Inclusion
import Motif.Proofs.Joining
import Motif.Proofs.Lengths
import Motif.Proofs.Limits
import Motif.Proofs.Linking
import Motif.Proofs.NameOrders
import Motif.Proofs.NamedCaptures
import Motif.Proofs.Negations
import Motif.Proofs.Occurrences
import Motif.Proofs.OptionValues
import Motif.Proofs.Precedence
import Motif.Proofs.Quoting
import Motif.Proofs.Renaming
import Motif.Proofs.Restoration
import Motif.Proofs.Rounds
import Motif.Proofs.Selection
import Motif.Proofs.Shifting
import Motif.Proofs.Sites
import Motif.Proofs.Slice
import Motif.Proofs.Spacing
import Motif.Proofs.StopAnchor
import Motif.Proofs.Targets
import Motif.Proofs.Translation
import Motif.Proofs.Unrolling
import Motif.Proofs.WholeText
import Motif.Proofs.WordOperations
import Motif.Proofs.WordSessions
import Motif.Proofs.Words
import Motif.Words
