import Switchboard.Board.Look
import Switchboard.Config.Loader
import Switchboard.Json.Ascii
import Switchboard.Operation.Script
import Switchboard.Operation.Trial
import Switchboard.Proofs.Operation.Course
import Switchboard.Proofs.Operation.Delivery
import Switchboard.Proofs.Operation.History
import Switchboard.Proofs.Operation.Silence
import Switchboard.Proofs.Subscription.Conversation
import Switchboard.Proofs.Subscription.Removal
import Switchboard.Proofs.Subscription.Reception
import Switchboard.Session.Rehearsal
import Switchboard.Proofs.Operation.Wake
import Switchboard.Proofs.Operation.NetworkStep
import Switchboard.Proofs.Operation.SeatInvariant
import Switchboard.Proofs.Operation.EndingToCome
import Switchboard.Proofs.Subscription.Exit
import Switchboard.Proofs.Board.Place
import Switchboard.Proofs.Dispatch.Credential
import Switchboard.Proofs.Subscription.Credentials
import Switchboard.Proofs.GraphQL.RoundTrip
import Switchboard.Proofs.Text.Order
import Switchboard.Proofs.Config.Valid
import Switchboard.Proofs.Config.Entry
import Switchboard.Proofs.Config.Apis
import Switchboard.Proofs.Dispatch.Setup
import Switchboard.Proofs.Config.Address
import Switchboard.Proofs.Config.Repeats
import Switchboard.Proofs.GraphQL.Model
import Switchboard.Proofs.GraphQL.Variables
import Switchboard.Proofs.Http.Draft
import Switchboard.Proofs.Text.Cut
import Switchboard.Proofs.Text.Ascii
import Switchboard.Proofs.Url.Origin
import Switchboard.Proofs.Url.Host
import Switchboard.Proofs.Rest.Origin
import Switchboard.Proofs.GraphQL.Filter
import Switchboard.Proofs.GraphQL.Answer
import Switchboard.Proofs.Operation.ControlStep
import Switchboard.Proofs.Operation.Abort
import Switchboard.Proofs.Session.Opening
import Switchboard.Proofs.Session.Traffic
import Switchboard.Proofs.Text.Utf8
import Switchboard.Proofs.Url.Form
import Switchboard.Proofs.Http.Build
import Switchboard.Proofs.Http.Unsent
import Switchboard.Proofs.Dispatch.Rejection
import Switchboard.Proofs.Dispatch.Callback
