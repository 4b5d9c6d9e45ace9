import Asyncmsg.Library.Scanner
import Asyncmsg.Library.Transition
import Asyncmsg.RoundTrip
import Asyncmsg.RpcDispatch
import Asyncmsg.ReceiverStop
import Asyncmsg.DecoderReads
import Asyncmsg.ReceiveHeads
import Asyncmsg.CrcDetection
import Asyncmsg.Retry
import Asyncmsg.DisconnectOnce
import Asyncmsg.Delivery
import Asyncmsg.Reencode
import Asyncmsg.Smuggling
import Asyncmsg.FrameOrder
import Asyncmsg.Routing
import Asyncmsg.Isolation
import Asyncmsg.ClientChannels
import Asyncmsg.ClientDelivery
import Asyncmsg.Reconnection
import Asyncmsg.ClientStop
import Asyncmsg.OwnId
import Asyncmsg.ServerStop
import Asyncmsg.Listing
import Asyncmsg.Pending
import Asyncmsg.Announcements
import Asyncmsg.RequestTable
import Asyncmsg.ClientWindow
import Asyncmsg.ServerPushes
import Asyncmsg.LruHistory
import Asyncmsg.SharedSeq
import Asyncmsg.RequestOrder
import Asyncmsg.HandlerStop
import Asyncmsg.RpcCalls
import Asyncmsg.BufferQueue
import Asyncmsg.IbufferMemory
import Asyncmsg.Keepalive
import Asyncmsg.ClientCall
import Asyncmsg.WaitPush
import Asyncmsg.PushDelivery
