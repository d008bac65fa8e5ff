import Clearance.Memory.World
import Clearance.Proofs.Text.Replacement
import Clearance.Session.Operation
import Clearance.Proofs.Policy.Expansion
import Clearance.Proofs.Policy.Evaluation
import Clearance.Proofs.Policy.Tier
import Clearance.Proofs.Policy.Conjunction
import Clearance.Proofs.Session.Outcome
import Clearance.Proofs.Session.Step
import Clearance.Proofs.Session.History
import Clearance.Proofs.Session.Revocation
import Clearance.Proofs.Session.Agreement
import Clearance.Proofs.Text.Stem
import Clearance.Proofs.Policy.Naming
import Clearance.Proofs.Policy.Overlap
import Clearance.Proofs.Session.Course
import Clearance.Proofs.Session.Freshness
import Clearance.Proofs.Session.Blacklist
import Clearance.Proofs.Session.EventLog
import Clearance.Proofs.Session.Memoization
import Clearance.Proofs.Session.Decision
import Clearance.Proofs.Session.Logout
import Clearance.Proofs.Session.Lookups
import Clearance.Proofs.Json.Quoted
import Clearance.Proofs.Json.Whole
import Clearance.Proofs.Json.Scan
import Clearance.Proofs.Json.Draft
import Clearance.Proofs.Json.RoundTrip
import Clearance.Proofs.Policy.Verdict
import Clearance.Proofs.Policy.Wildcard
import Clearance.Proofs.Policy.Truncation
import Clearance.Proofs.Policy.Dimensions
import Clearance.Proofs.Policy.Marking
import Clearance.Proofs.Policy.Canonical
import Clearance.Proofs.Policy.Mixture
import Clearance.Proofs.Policy.Listing
import Clearance.Proofs.Request.Sources
import Clearance.Proofs.Request.Guards
import Clearance.Proofs.Identity.View
import Clearance.Proofs.Policy.Mirror
import Clearance.Proofs.Memory.RecordHistory
import Clearance.Proofs.Memory.TokenHistory
import Clearance.Proofs.Text.Trimming
import Clearance.Proofs.Request.HeaderValue
import Clearance.Proofs.Config.Validity
import Clearance.Proofs.Policy.Insertion
