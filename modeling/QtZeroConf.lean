import QtZeroConf.Library.Framing
import QtZeroConf.Library.Reactive
import QtZeroConf.Library.Table
import QtZeroConf.Library.Registry
import QtZeroConf.Library.Handles
import QtZeroConf.Library.Linear
import QtZeroConf.Library.Mirror
import QtZeroConf.Library.Mailbox
import QtZeroConf.Library.Reentrant
import QtZeroConf.Txt.RoundTrip
import QtZeroConf.Txt.Agreement
import QtZeroConf.Txt.Safety
import QtZeroConf.Avahi.Discovery
import QtZeroConf.Avahi.Latest
import QtZeroConf.Avahi.Frame
import QtZeroConf.Avahi.Consistent
import QtZeroConf.Avahi.Resolvers
import QtZeroConf.Bonjour.Backend
import QtZeroConf.Bonjour.Actions
import QtZeroConf.Bonjour.Lifetime
import QtZeroConf.Bonjour.Resolvers
import QtZeroConf.Bonjour.Ownership
import QtZeroConf.Bonjour.Removal
import QtZeroConf.Bonjour.Frame
import QtZeroConf.Bonjour.Listing
import QtZeroConf.Bonjour.Signals
import QtZeroConf.Bonjour.Resolution
import QtZeroConf.Bonjour.Teardown
import QtZeroConf.Bonjour.References
import QtZeroConf.Bonjour.LinearUse
import QtZeroConf.Bonjour.EventLoop
import QtZeroConf.Interference
import QtZeroConf.Reentrancy
import QtZeroConf.Android.ResolverQueue
import QtZeroConf.Android.Conservation
import QtZeroConf.Android.Delivery
import QtZeroConf.Android.Instance
import QtZeroConf.Android.Commands
import QtZeroConf.Android.CallOrder
import QtZeroConf.Android.Closure
import QtZeroConf.Android.Registration
import QtZeroConf.Android.Callbacks
import QtZeroConf.Android.Browsing
import QtZeroConf.Android.Losses
import QtZeroConf.Android.Stopping
import QtZeroConf.Android.Publishing
import QtZeroConf.AvahiClient.Publish
import QtZeroConf.AvahiCore.Publish
import QtZeroConf.AvahiCore.Desk
import QtZeroConf.AvahiCore.Deferred
import QtZeroConf.AvahiCore.Server
import QtZeroConf.AvahiCore.ServerUse
import QtZeroConf.AvahiCore.Tracking
import QtZeroConf.AvahiCore.Consistent
import QtZeroConf.AvahiCore.Ready
import QtZeroConf.AvahiCore.Teardown
import QtZeroConf.AvahiCore.OneBrowser
import QtZeroConf.Library.Cutting
import QtZeroConf.Library.Guarded
import QtZeroConf.Library.Jobs
import QtZeroConf.AvahiCommon.Utf8
import QtZeroConf.AvahiCommon.Label
import QtZeroConf.AvahiCommon.Domain
import QtZeroConf.AvahiCommon.ServiceName
import QtZeroConf.AvahiCommon.Strlst
import QtZeroConf.AvahiCore.Rr
import QtZeroConf.AvahiCore.Packet
import QtZeroConf.AvahiCore.PacketRecord
import QtZeroConf.AvahiCore.PacketSafety
import QtZeroConf.AvahiCore.PacketName
import QtZeroConf.AvahiCore.PacketAppend
import QtZeroConf.AvahiCore.PacketRoundTrip
import QtZeroConf.AvahiCore.PacketRoom
import QtZeroConf.AvahiCore.Message
import QtZeroConf.AvahiCore.RrEqual
import QtZeroConf.AvahiCore.RrCompare
import QtZeroConf.AvahiCore.QuerySched
import QtZeroConf.AvahiCore.QueryMessage
import QtZeroConf.AvahiCore.QueryRun
import QtZeroConf.AvahiCore.Announce
import QtZeroConf.AvahiCore.Announcing
import QtZeroConf.AvahiCore.Committing
import QtZeroConf.AvahiCore.Conflicts
import QtZeroConf.AvahiCore.PublishRun
import QtZeroConf.AvahiCore.GroupProgress
import QtZeroConf.AvahiCore.TieBreak
import QtZeroConf.AvahiCore.CacheRun
