import Hermo.App.BotTap
import Hermo.App.Delivery
import Hermo.App.EventSinkBridge
import Hermo.App.History
import Hermo.App.Invariant
import Hermo.App.MarkdownAgreement
import Hermo.App.MarkdownApps
import Hermo.App.MarkdownOpen
import Hermo.App.Opens
import Hermo.App.Recovery
import Hermo.App.SecondOpens
import Hermo.App.TranscriptRows
import Hermo.App.VisibleModel
import Hermo.Auth.Endpoint
import Hermo.Core.BotChat
import Hermo.Core.Closed
import Hermo.Core.Coverage
import Hermo.Core.Durable
import Hermo.Core.EpochTracking
import Hermo.Core.Failures
import Hermo.Core.Forget
import Hermo.Core.GivingUp
import Hermo.Core.Isolation
import Hermo.Core.OpenApprovals
import Hermo.Core.Prompts
import Hermo.Core.Reconnect
import Hermo.Core.RegistryWrites
import Hermo.Core.Rename
import Hermo.Core.RoutingIndex
import Hermo.Core.SlashLadder
import Hermo.Core.Submission
import Hermo.Core.Titles
import Hermo.Core.TurnOrder
import Hermo.Rpc.Correlation
import Hermo.Rpc.Framing
import Hermo.Rpc.WsUrl
import Hermo.Scripts.FixtureRedact
import Hermo.Transcript.Finished
import Hermo.Transcript.MarkdownLaws
import Hermo.Transcript.OneStream
import Hermo.Transcript.Representation
import Hermo.Transcript.Turns
import Hermo.App.ChatRow
import Hermo.App.ClarifyQuestions
import Hermo.App.Composer
import Hermo.App.PlainJson
import Hermo.App.Screen
import Hermo.App.ToolCardModel
import Hermo.FakeGateway.Access
import Hermo.FakeGateway.Closing
import Hermo.FakeGateway.Handshake
import Hermo.FakeGateway.Listing
