import CryptoOpal.Lib.Transducer
import CryptoOpal.Lib.ReplayWindow
import CryptoOpal.Lib.Octets
import CryptoOpal.Lib.InPlace
import CryptoOpal.Srtp.Status
import CryptoOpal.Srtp.Bitvector
import CryptoOpal.Srtp.Rdbx
import CryptoOpal.Srtp.ReplayLaw
import CryptoOpal.Srtp.KeyLimit
import CryptoOpal.Srtp.Crypto
import CryptoOpal.Srtp.Rdb
import CryptoOpal.Srtp.Header
import CryptoOpal.Srtp.HeaderEncryption
import CryptoOpal.Lib.KeyedList
import CryptoOpal.Srtp.Session
import CryptoOpal.Srtp.Estimate
import CryptoOpal.Srtp.Incoming
import CryptoOpal.Srtp.Outgoing
import CryptoOpal.Srtp.Unprotect
import CryptoOpal.Srtp.Protect
import CryptoOpal.Srtp.Memory
import CryptoOpal.Srtp.Calls
import CryptoOpal.Srtp.Ideal
import CryptoOpal.Srtp.NoReplay
import CryptoOpal.Srtp.IvUnique
import CryptoOpal.Srtp.Exhausted
import CryptoOpal.Srtp.RtcpHeader
import CryptoOpal.Srtp.UnprotectRtcp
import CryptoOpal.Srtp.ProtectRtcp
import CryptoOpal.Srtp.DeviceCipher
import CryptoOpal.Srtp.DeviceIv
import CryptoOpal.Srtp.Bounds
import CryptoOpal.Srtp.Forged
import CryptoOpal.Srtp.MkiSearch
import CryptoOpal.Rtp.Buffer
import CryptoOpal.Rtp.AudioPadding
import CryptoOpal.Rtp.ControlFrame
import CryptoOpal.Rtp.Compound
import CryptoOpal.Rtp.SourceDescription
import CryptoOpal.Rtp.Receiver
import CryptoOpal.Rtp.Resequence
import CryptoOpal.Rtp.SequenceShift
import CryptoOpal.Srtp.KeyDerivation
import CryptoOpal.Srtp.PendingRoc
import CryptoOpal.Srtp.Policy
import CryptoOpal.Srtp.Manage
import CryptoOpal.Lib.Registry
import CryptoOpal.Srtp.Owners
import CryptoOpal.Srtp.OneStream
import CryptoOpal.Srtp.UpdateFails
import CryptoOpal.Rtp.Jitter
import CryptoOpal.Rtp.TimestampShift
import CryptoOpal.Srtp.RoundTrip
import CryptoOpal.Srtp.RtcpRoundTrip
import CryptoOpal.Lib.FirstShared
import CryptoOpal.Zrtp.Secrets
import CryptoOpal.Zrtp.RetainedSecrets
import CryptoOpal.Zrtp.PresharedKey
import CryptoOpal.Zrtp.Types
import CryptoOpal.Zrtp.Contention
import CryptoOpal.Codec.Rfc2833
import CryptoOpal.Zrtp.ReplayList
import CryptoOpal.Zrtp.SrtpBuiltin
import CryptoOpal.Zrtp.Preparse
import CryptoOpal.Zrtp.Engine
import CryptoOpal.Zrtp.Downgrade
import CryptoOpal.Zrtp.KeystreamReuse
import CryptoOpal.Zrtp.Receive
import CryptoOpal.Zrtp.SharedWindows
import CryptoOpal.Zrtp.ForgedMedia
import CryptoOpal.Lib.Reads
import CryptoOpal.Rtp.ControlReceiver
import CryptoOpal.Rtp.ControlBounds
import CryptoOpal.Lib.Fill
import CryptoOpal.Codec.Rfc4175
import CryptoOpal.Codec.ScanLines
import CryptoOpal.Codec.Pgroups
import CryptoOpal.Codec.ScanTable
import CryptoOpal.Codec.VideoRoundTrip
import CryptoOpal.Zrtp.ReplayOctets
import CryptoOpal.Zrtp.RtcpCounter
import CryptoOpal.Zrtp.SrtpBounds
import CryptoOpal.H323.LogicalChannel
import CryptoOpal.H323.CapabilitySet
import CryptoOpal.H323.MasterSlave
import CryptoOpal.Codec.H264RoundTrip
import CryptoOpal.Codec.H264Loss
import CryptoOpal.Zrtp.CacheRestart
import CryptoOpal.Zrtp.MessageBounds
import CryptoOpal.H224.HdlcLine
import CryptoOpal.H224.HdlcRoundTrip
import CryptoOpal.H323.Q931
import CryptoOpal.H323.Q931RoundTrip
import CryptoOpal.Iax2.Delivery
import CryptoOpal.T38.Reading
import CryptoOpal.T38.Recovery
import CryptoOpal.T38.Redundancy
import CryptoOpal.Asn.PerBits
import CryptoOpal.Asn.PerCodec
import CryptoOpal.Asn.ScalarCodec
import CryptoOpal.Asn.ScalarRoundTrip
import CryptoOpal.Iax2.Acking
import CryptoOpal.Iax2.Encryption
import CryptoOpal.Iax2.Recognised
import CryptoOpal.Lib.Blocks
import CryptoOpal.Rtp.Unpadding
import CryptoOpal.Sm3.Compress
import CryptoOpal.Sm3.Stream
import CryptoOpal.Srtp.CounterMode
import CryptoOpal.Srtp.ExtensionWalk
import CryptoOpal.Srtp.RdbLaw
import CryptoOpal.Srtp.TrailerLength
import CryptoOpal.Sip.Fmtp
import CryptoOpal.Codec.EventsMask
import CryptoOpal.Codec.PlcHistory
import CryptoOpal.Rtp.HeaderSetters
import CryptoOpal.Rtp.JitterAccounts
import CryptoOpal.Rtp.JitterDelay
import CryptoOpal.Rtp.ReceiverStatistics
import CryptoOpal.Codec.VideoBounds
import CryptoOpal.Asn.ObjectId
import CryptoOpal.Codec.BitRate
import CryptoOpal.Codec.H264Bounds
import CryptoOpal.H224.Handler
import CryptoOpal.H224.HandlerBounds
import CryptoOpal.H224.HdlcBounds
import CryptoOpal.H323.PartyNumber
import CryptoOpal.Rtp.Metrics
import CryptoOpal.Zrtp.KeyAgreement
import CryptoOpal.Codec.PlcConcealment
import CryptoOpal.Codec.CopyWindow
import CryptoOpal.Iax2.SoundStamps
import CryptoOpal.Lib.Search
import CryptoOpal.Lib.Serving
import CryptoOpal.Mime.Multipart
import CryptoOpal.Mixer.AudioStream
import CryptoOpal.Mixer.Streams
import CryptoOpal.Url.Escapes
import CryptoOpal.Url.Legacy
import CryptoOpal.Url.Variables
import CryptoOpal.Mime.Complex
import CryptoOpal.Iax2.Elements
import CryptoOpal.Lib.Reorder
import CryptoOpal.Lib.Window
import CryptoOpal.Media.Formats
import CryptoOpal.Media.Registry
import CryptoOpal.Text.Literal
import CryptoOpal.Text.Ucs2
import CryptoOpal.Stun.Reply
import CryptoOpal.Im.Msrp
import CryptoOpal.Lib.Census
import CryptoOpal.Sync.ReadWriteMutex
import CryptoOpal.Sync.Exclusion
