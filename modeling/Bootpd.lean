import Bootpd.AddressTexts
import Bootpd.Arguments
import Bootpd.BootSequence
import Bootpd.ByteOrder
import Bootpd.ConcurrentQueue
import Bootpd.ConcurrentQueueCalls
import Bootpd.ConcurrentQueueProgress
import Bootpd.ConfigDocument
import Bootpd.ConfigIni
import Bootpd.ConfigIniErrors
import Bootpd.ConfigIniViews
import Bootpd.Crc32
import Bootpd.DhcpAcknowledge
import Bootpd.DhcpClientKeys
import Bootpd.DhcpConfiguration
import Bootpd.DhcpIndependence
import Bootpd.DhcpLeaseTimers
import Bootpd.DhcpOffers
import Bootpd.DhcpOptionTexts
import Bootpd.DhcpOptionsGrammar
import Bootpd.DhcpOptionsLengths
import Bootpd.DhcpOptionsObjects
import Bootpd.DhcpOptionsV4
import Bootpd.DhcpOptionsValues
import Bootpd.DhcpOutcomes
import Bootpd.DhcpPacketV4
import Bootpd.DhcpReply
import Bootpd.DhcpReplySize
import Bootpd.DhcpServerThreads
import Bootpd.DhcpServerV4
import Bootpd.Filesystem
import Bootpd.LexicalCast
import Bootpd.Lib.Acceptance
import Bootpd.Lib.ByteDigits
import Bootpd.Lib.Crc
import Bootpd.Lib.EventLog
import Bootpd.Lib.Grouping
import Bootpd.Lib.Handles
import Bootpd.Lib.LexicalPath
import Bootpd.Lib.Refinement
import Bootpd.Lib.Scanning
import Bootpd.Lib.StopAndWait
import Bootpd.Lib.Targets
import Bootpd.Lib.Transition
import Bootpd.Main
import Bootpd.NumberTexts
import Bootpd.SerdesCursor
import Bootpd.SerdesCursorRecords
import Bootpd.SerdesCursorRefinement
import Bootpd.SerdesGrammar
import Bootpd.SerdesRecords
import Bootpd.SizeHint
import Bootpd.SocketHandles
import Bootpd.SocketUdp
import Bootpd.StringView
import Bootpd.TftpConfinement
import Bootpd.TftpDelivery
import Bootpd.TftpErrorExchange
import Bootpd.TftpForeignSource
import Bootpd.TftpGrammar
import Bootpd.TftpHealthySteps
import Bootpd.TftpLateAck
import Bootpd.TftpLockStep
import Bootpd.TftpNetascii
import Bootpd.TftpNetwork
import Bootpd.TftpOack
import Bootpd.TftpPacket
import Bootpd.TftpRecovery
import Bootpd.TftpReports
import Bootpd.TftpRetries
import Bootpd.TftpServerThreads
import Bootpd.TftpServerV4
import Bootpd.TftpSessionList
import Bootpd.TftpSessionSteps
import Bootpd.TftpSessionV4
import Bootpd.TftpSlices
import Bootpd.TftpTeardown
import Bootpd.TftpTermination
import Bootpd.TftpThreads
import Bootpd.TftpTimeouts
import Bootpd.TftpTransitions
import Bootpd.TftpStopRequests
