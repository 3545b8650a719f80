import ParatroSdk.Lib.Program
import ParatroSdk.Lib.Transition
import ParatroSdk.Lib.SharedCell
import ParatroSdk.Lib.Text
import ParatroSdk.Lib.Int64
import ParatroSdk.Lib.PercentEncoding
import ParatroSdk.Lib.Url
import ParatroSdk.Lib.Uri
import ParatroSdk.Lib.CharClass
import ParatroSdk.Lib.Json
import ParatroSdk.Lib.Codec
import ParatroSdk.Lib.Record
import ParatroSdk.Lib.Tagged
import ParatroSdk.Error
import ParatroSdk.ReasonTag
import ParatroSdk.Config
import ParatroSdk.Token
import ParatroSdk.Authenticate
import ParatroSdk.Deadline
import ParatroSdk.Client
import ParatroSdk.BaseUrl
import ParatroSdk.Send
import ParatroSdk.Outcome
import ParatroSdk.Resources
import ParatroSdk.System
import ParatroSdk.Protocol
import ParatroSdk.Refresh
import ParatroSdk.Served
import ParatroSdk.SingleFlight
import ParatroSdk.Lifetime
import ParatroSdk.Webhook
import ParatroSdk.Freshness
import ParatroSdk.Wire
import ParatroSdk.Transaction
import ParatroSdk.CreateTransaction
import ParatroSdk.Replay
import ParatroSdk.Classification
import ParatroSdk.WebhookEvent
import ParatroSdk.X402
import ParatroSdk.Delivery
import ParatroSdk.Idempotency
import ParatroSdk.Progress
import ParatroSdk.Lists
import ParatroSdk.Replies
import ParatroSdk.Posts
import ParatroSdk.Widening
import ParatroSdk.Refusals
import ParatroSdk.Credentials
