import SmartSnmp.Lib.Bisect
import SmartSnmp.Lib.PrefixOrder
import SmartSnmp.Lib.PrefixMin
import SmartSnmp.Lib.ArrayShift
import SmartSnmp.Lib.Traced
import SmartSnmp.Lib.Bytes
import SmartSnmp.Lib.Base128
import SmartSnmp.Lib.Numeral
import SmartSnmp.Lib.Reader
import SmartSnmp.Lib.Extent
import SmartSnmp.Lib.Filler
import SmartSnmp.Lib.Run
import SmartSnmp.Mib.Oid
import SmartSnmp.Lib.CInt
import SmartSnmp.Mib.Order
import SmartSnmp.Mib.BinarySearch
import SmartSnmp.Mib.Tree.Basic
import SmartSnmp.Mib.Tree.Invariant
import SmartSnmp.Mib.Tree.Leaves
import SmartSnmp.Mib.Instance
import SmartSnmp.Mib.Search.Basic
import SmartSnmp.Mib.Search.Simulation
import SmartSnmp.Mib.Search.Start
import SmartSnmp.Mib.Search.Successor
import SmartSnmp.Mib.Search.View
import SmartSnmp.Mib.Search.Sound
import SmartSnmp.Mib.View.Basic
import SmartSnmp.Mib.View.Canonical
import SmartSnmp.Mib.View.Unreg
import SmartSnmp.Mib.View.ListHead
import SmartSnmp.Mib.View.Heap
import SmartSnmp.Mib.View.Shape
import SmartSnmp.Mib.View.Records
import SmartSnmp.Mib.View.Bind
import SmartSnmp.Mib.View.Refine
import SmartSnmp.Mib.View.Live
import SmartSnmp.Mib.View.Queries
import SmartSnmp.Snmp.Encoder
import SmartSnmp.Snmp.Decoder
import SmartSnmp.Snmp.Codec
import SmartSnmp.Snmp.Datagram
import SmartSnmp.Snmp.MsgIn
import SmartSnmp.Snmp.Message
import SmartSnmp.Snmp.Accept
import SmartSnmp.Snmp.Bounds
import SmartSnmp.Snmp.MsgOut
import SmartSnmp.Snmp.Size
import SmartSnmp.Snmp.RoundTrip
import SmartSnmp.Snmp.MsgProc
import SmartSnmp.Snmp.Access
import SmartSnmp.Snmp.Lengths
import SmartSnmp.Snmp.Leftover
import SmartSnmp.Snmp.Stored
import SmartSnmp.Snmp.Shown
import SmartSnmp.Snmp.Independent
import SmartSnmp.Snmp.Echo
import SmartSnmp.Snmp.Bulk
import SmartSnmp.Snmp.Global
import SmartSnmp.AgentX.Datagram
import SmartSnmp.AgentX.Decoder
import SmartSnmp.AgentX.MsgIn
import SmartSnmp.AgentX.MsgOut
import SmartSnmp.AgentX.MsgProc
import SmartSnmp.AgentX.Wire
import SmartSnmp.AgentX.Payload
import SmartSnmp.AgentX.RoundTrip
import SmartSnmp.AgentX.Compress
import SmartSnmp.AgentX.ByteOrder
import SmartSnmp.Transport.EvLoop
import SmartSnmp.Transport.Udp
import SmartSnmp.Transport.Tcp
import SmartSnmp.AgentX.Registration
import SmartSnmp.Lua.Group
import SmartSnmp.Lua.Getnext
import SmartSnmp.Mib.Tree.Registry
import SmartSnmp.Mib.Tree.Delete
import SmartSnmp.Mib.Tree.Capacity
import SmartSnmp.Mib.Search.Lookup
import SmartSnmp.Snmp.Views
import SmartSnmp.Snmp.ErrorStatus
import SmartSnmp.Snmp.Limits
import SmartSnmp.Snmp.Canonical
import SmartSnmp.Snmp.Numbers
import SmartSnmp.Snmp.OidContent
import SmartSnmp.Lib.Scan
import SmartSnmp.Snmp.HostOrder
import SmartSnmp.Snmp.SignExtension
import SmartSnmp.Snmp.DryRun
import SmartSnmp.Snmp.Reencode
import SmartSnmp.Snmp.SetResponse
import SmartSnmp.Lua.NodeSearch
import SmartSnmp.Lua.GroupIndex
import SmartSnmp.Lua.Objects
import SmartSnmp.Lib.Jump
import SmartSnmp.Lua.Successor
import SmartSnmp.Lua.Sparse
import SmartSnmp.Lua.Callbacks
import SmartSnmp.Lua.ReadBack
import SmartSnmp.Lua.LongIndex
import SmartSnmp.Lua.SetGet
import SmartSnmp.Snmp.SetRun
import SmartSnmp.AgentX.Buffers
import SmartSnmp.AgentX.Range
import SmartSnmp.AgentX.Requests
import SmartSnmp.Lib.Walk
import SmartSnmp.Lib.Links
import SmartSnmp.Snmp.Agent
import SmartSnmp.Snmp.Walk
import SmartSnmp.Snmp.BulkWalk
import SmartSnmp.Lib.Serve
import SmartSnmp.Transport.Epoll
import SmartSnmp.Snmp.Exchange
import SmartSnmp.Snmp.Memory
import SmartSnmp.Snmp.Integers
import SmartSnmp.Snmp.WireWalk
import SmartSnmp.Snmp.Isolation
import SmartSnmp.Lua.References
import SmartSnmp.Lua.Walk
import SmartSnmp.Lua.Confined
import SmartSnmp.Transport.Libevent
