import TheokitGateways.Js.Text
import TheokitGateways.Js.Number
import TheokitGateways.Gateway.MessageEvent
import TheokitGateways.Gateway.SessionRouter
import TheokitGateways.Js.Json
import TheokitGateways.Js.JsonLex
import TheokitGateways.Js.Bytes
import TheokitGateways.Js.Convert
import TheokitGateways.NextcloudTalk.Webhook
import TheokitGateways.Transition
import TheokitGateways.Js.OrderedMap
import TheokitGateways.Gateway.Adapter
import TheokitGateways.Gateway.Chunk
import TheokitGateways.Line.Normalize
import TheokitGateways.Line.ReplyCache
import TheokitGateways.Line.ReplyTokens
import TheokitGateways.Telegram.Inbound
import TheokitGateways.Telegram.Paths
import TheokitGateways.Js.Uri
import TheokitGateways.Js.Header
import TheokitGateways.Sms.Backend
import TheokitGateways.Sms.SignedContent
import TheokitGateways.GoogleChat.VerifyToken
import TheokitGateways.GoogleChat.Inbound
import TheokitGateways.Js.Any
import TheokitGateways.Teams.VerifiedClaims
import TheokitGateways.Teams.ActivityVerifier
import TheokitGateways.Teams.Verdict
import TheokitGateways.Async.Prog
import TheokitGateways.Gateway.Hooks
import TheokitGateways.Gateway.Dispatch
import TheokitGateways.Gateway.HookChain
import TheokitGateways.Gateway.Replies
import TheokitGateways.Gateway.Dispatching
import TheokitGateways.History
import TheokitGateways.Records
import TheokitGateways.Gateway.Runner
import TheokitGateways.Gateway.RunnerInvariant
import TheokitGateways.Gateway.RunnerRelease
import TheokitGateways.Gateway.RunnerStop
import TheokitGateways.Js.Regex
import TheokitGateways.Js.Leftmost
import TheokitGateways.Js.Replaced
import TheokitGateways.Gateway.CredentialShapes
import TheokitGateways.Gateway.ErrorLines
import TheokitGateways.Js.Unicode
import TheokitGateways.Gateway.ChunkText
import TheokitGateways.Gateway.ChunkCharacters
import TheokitGateways.Telegram.Split
import TheokitGateways.Splitters
import TheokitGateways.Irc.Split
import TheokitGateways.Irc.Send
import TheokitGateways.Irc.Line
import TheokitGateways.Irc.Registration
import TheokitGateways.Irc.Normalize
import TheokitGateways.Irc.Adapter
import TheokitGateways.Irc.Sessions
import TheokitGateways.Gateway.ListenerLifecycle
import TheokitGateways.IMessage.Normalize
import TheokitGateways.IMessage.Adapter
import TheokitGateways.IMessage.Resume
import TheokitGateways.Email.Filters
import TheokitGateways.Email.Normalize
import TheokitGateways.Email.SeenUids
import TheokitGateways.Email.Adapter
import TheokitGateways.Email.Flagging
import TheokitGateways.Email.Retry
import TheokitGateways.WhatsApp.BackendTypes
import TheokitGateways.WhatsApp.InboundRules
import TheokitGateways.WhatsApp.Envelope
import TheokitGateways.WhatsApp.CloudBackend
import TheokitGateways.WhatsApp.Acceptance
import TheokitGateways.WhatsApp.Adapter
import TheokitGateways.WhatsApp.InboundPaths
import TheokitGateways.WhatsApp.Baileys.Normalize
import TheokitGateways.WhatsApp.Baileys.Connection
import TheokitGateways.WhatsApp.Baileys.Sockets
import TheokitGateways.WhatsApp.Baileys.Backend
import TheokitGateways.WhatsApp.Baileys.Frames
import TheokitGateways.WhatsApp.Baileys.Superseded
import TheokitGateways.WhatsApp.Baileys.SendQueue
import TheokitGateways.WhatsApp.Baileys.EchoGuard
import TheokitGateways.WhatsApp.Web.Ipc
import TheokitGateways.WhatsApp.Web.Backend
import TheokitGateways.WhatsApp.Web.Bridges
import TheokitGateways.WhatsApp.Web.Sessions
import TheokitGateways.WhatsApp.Web.Speaker
import TheokitGateways.GoogleChat.KeySet
import TheokitGateways.GoogleChat.KeySetReads
import TheokitGateways.Matrix.Adapter
import TheokitGateways.Matrix.Clients
import TheokitGateways.Teams.KeySetReads
import TheokitGateways.Gateway.ListenerOwner
import TheokitGateways.Gateway.OwnedListener
import TheokitGateways.Gateway.WebhookAdapters
import TheokitGateways.Irc.Handshake
import TheokitGateways.Irc.Wire
import TheokitGateways.Js.Members
import TheokitGateways.JsonRpc.LineClient
import TheokitGateways.JsonRpc.Lines
import TheokitGateways.JsonRpc.Settlement
import TheokitGateways.Line.Ingest
import TheokitGateways.Line.Ingested
import TheokitGateways.Mattermost.Adapter
import TheokitGateways.Mattermost.Sockets
import TheokitGateways.Slack.Adapter
import TheokitGateways.Slack.Apps
import TheokitGateways.Slack.Gates
import TheokitGateways.Irc.CleanLines
import TheokitGateways.Gateway.RawBody
import TheokitGateways.Js.Masking
import TheokitGateways.Gateway.MaskedShapes
import TheokitGateways.Telegram.Balanced
import TheokitGateways.PlainRendering
import TheokitGateways.Sms.Split
import TheokitGateways.Gateway.ChunkGraphemes
import TheokitGateways.Js.Deletion
import TheokitGateways.Signal.TextStyle
import TheokitGateways.Signal.Emphasis
import TheokitGateways.Signal.CodeSpans
import TheokitGateways.Gateway.Dialect
import TheokitGateways.Email.Dispatched
import TheokitGateways.Line.HeldTokens
import TheokitGateways.Js.Rounding
import TheokitGateways.Sms.Webhook
import TheokitGateways.GoogleChat.AccessToken
import TheokitGateways.GoogleChat.TokenExchanges
import TheokitGateways.WhatsApp.Baileys.Strict
import TheokitGateways.WhatsApp.Baileys.GroupReplies
import TheokitGateways.WhatsApp.Baileys.Pairing
import TheokitGateways.WhatsApp.EnvelopeFields
import TheokitGateways.Gateway.CreateChannels
import TheokitGateways.Gateway.Commands
import TheokitGateways.Gateway.Subscription
import TheokitGateways.WhatsApp.Subscription
import TheokitGateways.Gateway.HeldClient
import TheokitGateways.Line.Connections
import TheokitGateways.Matrix.Send
import TheokitGateways.Matrix.Connections
import TheokitGateways.ConnectedSends
import TheokitGateways.Teams.Normalize
import TheokitGateways.Mattermost.Addressed
import TheokitGateways.Js.NumberText
import TheokitGateways.Js.JsonText
import TheokitGateways.WhatsApp.Web.Commands
import TheokitGateways.WhatsApp.Web.Sends
import TheokitGateways.WhatsApp.Web.Exchange
import TheokitGateways.Async.InTurn
import TheokitGateways.Gateway.Outbound
import TheokitGateways.RenderedBodies
import TheokitGateways.Discord.Send
import TheokitGateways.Mattermost.Send
import TheokitGateways.Slack.Send
import TheokitGateways.Telegram.Send
import TheokitGateways.Gateway.TrimmedParts
import TheokitGateways.Teams.Send
import TheokitGateways.NextcloudTalk.Send
import TheokitGateways.Sms.Places
import TheokitGateways.Sms.Send
import TheokitGateways.Js.LineStream
import TheokitGateways.JsonRpc.Conversation
import TheokitGateways.Js.Recency
import TheokitGateways.Email.Threads
import TheokitGateways.Email.Send
import TheokitGateways.Async.Interference
import TheokitGateways.WhatsApp.Web.Lifecycle
import TheokitGateways.WhatsApp.Web.PidLock
