import Mainline.Main
import Mainline.Routing.Script
import Mainline.Proofs.Routing.WellFormed
import Mainline.Proofs.Krpc.RoundTrip
import Mainline.Proofs.Traffic.Orphan
import Mainline.Proofs.Traffic.Origin
import Mainline.Proofs.Routing.Eviction
import Mainline.Proofs.Activity.Course
import Mainline.Proofs.Key.Distance
import Mainline.Proofs.Lookup.Search
import Mainline.Proofs.Lookup.Rounds
import Mainline.Proofs.Lookup.Asking
import Mainline.Proofs.Lookup.Closest
import Mainline.Proofs.Activity.Account
import Mainline.Proofs.Activity.Pool
import Mainline.Proofs.Activity.Blame
import Mainline.Proofs.Bencode.Nesting
import Mainline.Proofs.Bencode.Framing
import Mainline.Proofs.Routing.Nearest
import Mainline.Proofs.Server.Store
import Mainline.Proofs.Server.Run
import Mainline.Proofs.Server.Announcing
import Mainline.Proofs.Server.Keeping
import Mainline.Proofs.Server.Contents
import Mainline.Proofs.Server.Sweeping
import Mainline.Proofs.Server.Validity
import Mainline.Proofs.Server.Refusing
import Mainline.Proofs.Routing.Staleness
import Mainline.Proofs.Routing.Outcome
import Mainline.Proofs.Lookup.Hearing
import Mainline.Proofs.Lookup.Stopping
import Mainline.Proofs.Bencode.Grammar
import Mainline.Proofs.Traffic.Calls
import Mainline.Proofs.Traffic.Vouching
import Mainline.Proofs.Activity.Vouching
import Mainline.Proofs.Activity.Site
import Mainline.Proofs.Activity.Provenance
import Mainline.Proofs.Activity.Heard
import Mainline.Proofs.Traffic.Reaction
import Mainline.Proofs.Routing.Inquiry
import Mainline.Proofs.Routing.Policy
import Mainline.Proofs.Routing.Address
import Mainline.Proofs.Bencode.Fault
import Mainline.Proofs.Bencode.Cursor
import Mainline.Proofs.Contact.Unpacking
import Mainline.Proofs.Krpc.Refusal
import Mainline.Proofs.Lookup.Findings
import Mainline.Proofs.Contact.Exact
import Mainline.Proofs.Key.Bits
import Mainline.Proofs.Routing.Region
import Mainline.Proofs.Krpc.Unknown
import Mainline.Proofs.Lookup.Announcement
import Mainline.Proofs.Checked
import Mainline.Proofs.Key.Drawing
import Mainline.Proofs.Key.Metric
import Mainline.Proofs.Routing.Tail
import Mainline.Proofs.Routing.Tally
import Mainline.Proofs.Traffic.Draws
import Mainline.Proofs.Activity.Beside
import Mainline.Proofs.Activity.Ending
import Mainline.Proofs.Activity.Running
import Mainline.Proofs.Activity.Scheduler
import Mainline.Proofs.Activity.Reached
import Mainline.Proofs.Activity.Pooling
