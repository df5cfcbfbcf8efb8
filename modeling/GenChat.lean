import GenChat.Gateway.Acknowledgement
import GenChat.Gateway.LiveView
import GenChat.Gateway.Expiry
import GenChat.Gateway.ChannelIsolation
import GenChat.Mls.Exclusion
import GenChat.Mls.TreeAgreement
import GenChat.Mls.TreeChanges
import GenChat.Mls.Authenticity
import GenChat.Mls.MessageRoundTrip
import GenChat.Mls.NonceUniqueness
import GenChat.Gateway.Authorship
import GenChat.Gateway.Blocklist
import GenChat.Gateway.Rejection
import GenChat.Gateway.WireFormats
import GenChat.Ledger.ExactlyOnce
import GenChat.Ledger.Receipts
import GenChat.Auth.Channels
import GenChat.Auth.CommitLog
import GenChat.Auth.KeyPackages
import GenChat.Auth.LinkingOrder
import GenChat.Auth.Push
import GenChat.Auth.Removal
import GenChat.Auth.PushOwnership
import GenChat.Group.Agreement
import GenChat.Group.Exclusion
import GenChat.Group.KeyCache
import GenChat.E2ee.IdentityStability
import GenChat.E2ee.PreKeyPool
import GenChat.Gateway.CommitRelay
import GenChat.Library.Hex
import GenChat.Offline.BackendAgreement
import GenChat.Offline.LocalCache
import GenChat.Offline.Tombstones
import GenChat.Pqxdh.Agreement
import GenChat.Pqxdh.Binding
import GenChat.Sframe.FrameNonces
import GenChat.Sframe.RoundTrip
import GenChat.Sync.InboundQueue
import GenChat.Sync.SessionOrder
import GenChat.Sync.StatusOrder
import GenChat.Ws.Ceiling
import GenChat.Ws.Delivery
import GenChat.Ws.DeliveryOrder
import GenChat.Ws.DeviceCap
import GenChat.Ws.Formats
import GenChat.Ws.Queues
import GenChat.Gateway.Paging
import GenChat.Ledger.SequenceOrder
import GenChat.Mls.Wasm
import GenChat.Auth.Blobs
import GenChat.Auth.BundleFetch
import GenChat.Auth.PreKeyUpload
import GenChat.Auth.Tokens
import GenChat.Auth.RefreshTokens
import GenChat.Auth.Registration
import GenChat.Client.Connection
import GenChat.Client.LiveAndHistory
import GenChat.Client.TextRoundTrip
import GenChat.Gateway.Framing
import GenChat.Auth.RateLimits
import GenChat.Auth.BlindTokens
import GenChat.Push.Dispatcher
import GenChat.Client.WsTransport
import GenChat.Client.TrustStore
import GenChat.Client.SafetyNumbers
import GenChat.Media.Presigned
import GenChat.Client.QrPayload
import GenChat.Client.QrCode
import GenChat.Auth.FeatureFlags
import GenChat.Call.GroupCandidates
import GenChat.Client.AudioSdp
import GenChat.E2ee.ContextIds
import GenChat.Mls.TreeHistory
import GenChat.Auth.FlagSnapshots
import GenChat.Gateway.RateLimit
import GenChat.Client.KeyBackup
import GenChat.Sync.Search
