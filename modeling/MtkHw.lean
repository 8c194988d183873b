import MtkHw.Lib.Loop
import MtkHw.Lib.Machine
import MtkHw.Lib.Receiver
import MtkHw.Lib.Ring
import MtkHw.Mux.Buffer
import MtkHw.Mux.Transmit
import MtkHw.Mux.BaseFrame
import MtkHw.Mux.BaseCodec
import MtkHw.Mux.AdvFrame
import MtkHw.Mux.AdvCodec
import MtkHw.Mux.Wakeup
import MtkHw.Mux.Command
import MtkHw.Mux.Response
import MtkHw.Lib.LinkedList
import MtkHw.Mux.FrameList
import MtkHw.Mux.FlowControl
import MtkHw.Rfx.Status
import MtkHw.Lib.TimedQueue
import MtkHw.Rfx.Suspend
import MtkHw.Lib.CString
import MtkHw.Rfx.ReadLine
import MtkHw.Rfx.LineAssembly
import MtkHw.Lib.Descriptor
import MtkHw.Rfx.Fragment
import MtkHw.Rfx.FragmentTransport
import MtkHw.Sms.Inbound
import MtkHw.Sms.AckDiscipline
import MtkHw.Sms.BcConfig
import MtkHw.Rfx.Completion
import MtkHw.Rfx.HandlerManager
import MtkHw.Rfx.UrcRouting
import MtkHw.Lib.Framing
import MtkHw.Meta.Escape
import MtkHw.Meta.UsbRxWatcher
import MtkHw.Meta.HostDecode
import MtkHw.Meta.HostLink
import MtkHw.Meta.MdRxWatcher
import MtkHw.Meta.ModemFrame
import MtkHw.Meta.ModemConfirm
import MtkHw.Lib.Arbiter
import MtkHw.Power.Defs
import MtkHw.Power.Scenario
import MtkHw.Power.Service
import MtkHw.Power.Aggregate
import MtkHw.Power.Configure
import MtkHw.Power.Arbitration
import MtkHw.Power.WhiteList
import MtkHw.Hwc.BufferQueue
import MtkHw.Hwc.FrameOrder
import MtkHw.Hwc.Overlay
import MtkHw.Lib.Rank
import MtkHw.Hwc.OverlaySlots
import MtkHw.Hwc.GlesCache
import MtkHw.Gps.Mnld
import MtkHw.Gps.Session
import MtkHw.Gps.Acks
import MtkHw.Gps.Nmea
import MtkHw.Gps.NmeaEpoch
import MtkHw.Speech.Message
import MtkHw.Speech.Messenger
import MtkHw.Speech.System
import MtkHw.Speech.Queue
import MtkHw.Speech.Discipline
import MtkHw.Mux.CommandAccess
import MtkHw.Mux.AdvBuffer
import MtkHw.Mux.Resync
import MtkHw.Mux.PendingBytes
import MtkHw.Mux.ReceiveThread
import MtkHw.Lib.BitStream
import MtkHw.Sms.CdmaNode
import MtkHw.Sms.CdmaAddress
import MtkHw.Sms.CdmaBearer
import MtkHw.Sms.CdmaMessage
import MtkHw.Sms.CdmaGrammar
import MtkHw.NetAgent.Defs
import MtkHw.NetAgent.Service
import MtkHw.NetAgent.Transactions
import MtkHw.Mux.ShortWrites
import MtkHw.NetAgent.Notices
import MtkHw.Sms.CdmaRemoveZero
import MtkHw.Lib.Text
import MtkHw.Rfx.AtLine
import MtkHw.Sms.GsmDcs
import MtkHw.Sms.GsmPduCheck
import MtkHw.Sms.CbChannels
import MtkHw.Rfx.ResponsePairing
import MtkHw.Rfx.Registration
import MtkHw.Lib.DoubleList
import MtkHw.Lib.OrderedForest
import MtkHw.Rfx.ObjectForest
import MtkHw.Rfx.ObjectClosing
import MtkHw.Meta.HostMemory
import MtkHw.Meta.HostOctets
import MtkHw.Meta.HostSafety
import MtkHw.Meta.ModemFeed
import MtkHw.Meta.ModemRecovery
import MtkHw.Lib.Block
import MtkHw.Meta.PortHandle
import MtkHw.Meta.ReplyFrame
import MtkHw.Meta.HostReplies
import MtkHw.Power.CoreCeilings
import MtkHw.Power.CoreTotals
import MtkHw.Hwc.Fences
import MtkHw.Hwc.MmBudget
import MtkHw.Hwc.ReleaseFences
import MtkHw.Hwc.Hrt
import MtkHw.Hwc.HrtSweep
import MtkHw.Hwc.HrtLimit
import MtkHw.Hwc.OriginDisp
import MtkHw.Lib.Placement
import MtkHw.Hwc.BlitCrop
import MtkHw.Gps.GpsTime
import MtkHw.Speech.ParaRing
import MtkHw.BtSco.Msbc
import MtkHw.BtSco.ExtMdRing
import MtkHw.Speech.Uplink
import MtkHw.Gps.Aiding
import MtkHw.Gps.Wakelock
import MtkHw.Gps.NmeaLines
import MtkHw.Gps.NmeaMemory
import MtkHw.Gps.NmeaSafety
import MtkHw.Gps.NmeaCounters
import MtkHw.Gps.Epo
import MtkHw.Gps.EpoInjected
import MtkHw.Lib.Packer
import MtkHw.Speech.ParamParser
import MtkHw.Speech.ParamUnits
import MtkHw.Speech.ParamUnitCounts
import MtkHw.Mux.ReceiveFifo
import MtkHw.Lib.TextMap
import MtkHw.Cc.NetworkEcc
import MtkHw.NetAgent.Handover
import MtkHw.NetAgent.IoParser
import MtkHw.Lib.Numeral
import MtkHw.NetAgent.IoRecv
import MtkHw.NetAgent.IoText
import MtkHw.NetAgent.UrcFraming
import MtkHw.NetAgent.AtCommand
import MtkHw.Lib.Buffer
import MtkHw.Lib.Hex
import MtkHw.Phb.Encode
import MtkHw.Phb.SimEncoding
import MtkHw.Phb.Packing
import MtkHw.Phb.Names
import MtkHw.BtSco.MsbcStream
import MtkHw.Gps.HalLink
