import TriageDesk.Live
import TriageDesk.Main
import TriageDesk.Program
import TriageDesk.Web.Front
import TriageDesk.Proofs.Proposal.Course
import TriageDesk.Proofs.Agent.Course
import TriageDesk.Proofs.Proposal.Decisions
import TriageDesk.Proofs.Proposal.Notifications
import TriageDesk.Proofs.Agent.Histories
import TriageDesk.Proofs.Tool.Effects
import TriageDesk.Proofs.Service.Filings
import TriageDesk.Proofs.Activity.Course
import TriageDesk.Proofs.Activity.Overlaps
import TriageDesk.Proofs.Service.Course
import TriageDesk.Proofs.Service.Stops
import TriageDesk.Proofs.Service.Performance
import TriageDesk.Proofs.Json.Occurrences
import TriageDesk.Proofs.Agent.Calls
import TriageDesk.Proofs.Template.Filling
import TriageDesk.Proofs.Json.Filling
import TriageDesk.Proofs.Tool.Bodies
import TriageDesk.Proofs.Time.Order
import TriageDesk.Proofs.Table
import TriageDesk.Proofs.Proposal.Resubmission
import TriageDesk.Proofs.Proposal.Continuity
import TriageDesk.Proofs.Time.Calendar
import TriageDesk.Proofs.Time.Reading
import TriageDesk.Proofs.Json.Arrangement
import TriageDesk.Proofs.Json.Decoding
import TriageDesk.Proofs.Proposal.Wire
import TriageDesk.Proofs.Trace
import TriageDesk.Proofs.Web.Course
import TriageDesk.Proofs.Web.Delivery
import TriageDesk.Proofs.Text.Octets
import TriageDesk.Proofs.Web.Requests
import TriageDesk.Proofs.Web.Surface
import TriageDesk.Proofs.Web.Addresses
import TriageDesk.Proofs.Agent.Isolation
import TriageDesk.Proofs.Template.Pieces
import TriageDesk.Proofs.Http.Hosts
import TriageDesk.Proofs.Http.Origin
import TriageDesk.Proofs.Tool.Preparation
import TriageDesk.Proofs.Activity.Recording
import TriageDesk.Proofs.Activity.Turns
import TriageDesk.Proofs.Activity.Punctuality
import TriageDesk.Proofs.Activity.Timing
import TriageDesk.Proofs.Activity.Returns
import TriageDesk.Proofs.Agent.Bounds
import TriageDesk.Proofs.Json.Grammar
import TriageDesk.Proofs.Json.Numerals
import TriageDesk.Proofs.Json.Soundness
import TriageDesk.Proofs.Json.Records
import TriageDesk.Proofs.Agent.Shapes
import TriageDesk.Proofs.Activity.Accounts
import TriageDesk.Proofs.Activity.Intervals
import TriageDesk.Proofs.Parameters
import TriageDesk.Proofs.Tool.Forms
import TriageDesk.Proofs.Json.Values
import TriageDesk.Proofs.Proposal.Shapes
import TriageDesk.Proofs.Tool.Filing
import TriageDesk.Proofs.Http.Form
import TriageDesk.Proofs.Tool.Sending
import TriageDesk.Proofs.Web.Listing
import TriageDesk.Proofs.Tool.Rows
import TriageDesk.Proofs.Cleanup
import TriageDesk.Proofs.Tool.Listing
import TriageDesk.Proofs.Config.Layers
import TriageDesk.Proofs.Service.Shutdown
