import Muxponder.Lib.Machine
import Muxponder.Lib.Framing
import Muxponder.Lib.CString
import Muxponder.Lib.Digits
import Muxponder.Lib.NorFlash
import Muxponder.Lib.ByteBuffer
import Muxponder.Lib.Memory
import Muxponder.Lib.Printf
import Muxponder.Lib.Region
import Muxponder.Lib.RingBuffer
import Muxponder.Lib.Variables
import Muxponder.Lib.Interrupts
import Muxponder.KursProcessor
import Muxponder.KursFraming
import Muxponder.KursBound
import Muxponder.KursHelper
import Muxponder.KursRemoteUpdate
import Muxponder.KursUpdateStep
import Muxponder.KursStopAndWait
import Muxponder.KursSender
import Muxponder.KursReboot
import Muxponder.KursFlashImage
import Muxponder.KursLoader
import Muxponder.KursService
import Muxponder.KursProfile
import Muxponder.KursSetParam
import Muxponder.KursSetAtomicity
import Muxponder.KursSetGrammar
import Muxponder.KursPrint
import Muxponder.KursRefresh
import Muxponder.KursColors
import Muxponder.KursRequests
import Muxponder.KursWriteGate
import Muxponder.KursReplyLength
import Muxponder.KursReplyBound
import Muxponder.KursReadBounds
import Muxponder.KursLangPack
import Muxponder.KursLangTransfer
import Muxponder.KursReplyChecksum
import Muxponder.Prot2Processor
import Muxponder.Prot2Bound
import Muxponder.Prot2Service
import Muxponder.UartPorts
import Muxponder.UartTransmission
import Muxponder.Ipglb2Reply
import Muxponder.Ipglb2Arguments
import Muxponder.Ipglb2NackBit
import Muxponder.Ipglb2Checksum
import Muxponder.KursUserPrefs
import Muxponder.KursCard
import Muxponder.KursCardSections
import Muxponder.KursReadIndependence
import Muxponder.AltAlarm
import Muxponder.Transceiver
import Muxponder.TransceiverPresence
import Muxponder.TransceiverWakeUp
import Muxponder.TransceiverComLoss
import Muxponder.RingBufferStorage
import Muxponder.Scheduler
import Muxponder.SchedulerTable
import Muxponder.SchedulerTasks
import Muxponder.SchedulerMailbox
import Muxponder.SchedulerDelivery
import Muxponder.SchedulerLoop
import Muxponder.SchedulerMemory
import Muxponder.SchedulerClocks
import Muxponder.SchedulerDispatch
import Muxponder.Task10
import Muxponder.Task10Views
import Muxponder.Task10Handshake
import Muxponder.TransceiverFault
import Muxponder.Lib.Selection
import Muxponder.I2cMux
import Muxponder.Lib.LastWrite
import Muxponder.SiliconClocks
import Muxponder.PortRate
import Muxponder.PortBanks
import Muxponder.Lib.OnChange
import Muxponder.StatusLed
import Muxponder.ArmExchange
import Muxponder.RegisterMap
import Muxponder.Pfc
import Muxponder.PfcLifecycle
import Muxponder.Lib.Uninterrupted
import Muxponder.ProfileDefaults
import Muxponder.ResetToDefaults
import Muxponder.KursNumbers
import Muxponder.KursHexDigits
import Muxponder.KursText
import Muxponder.KursColorHistory
import Muxponder.CardAlarms
import Muxponder.FecStatistics
import Muxponder.I2cBounds
import Muxponder.KursLangFile
import Muxponder.Task10OutOfService
import Muxponder.SaveCoherence
import Muxponder.Lib.Crc
import Muxponder.KursCrc16
import Muxponder.KursFlashCheck
import Muxponder.KursDecimal
import Muxponder.Ipglb2Mmap
import Muxponder.PfcMonitoring
import Muxponder.KursSetColor
import Muxponder.PowerCycle
import Muxponder.PowerCycleRuns
import Muxponder.Lib.LoadRecords
import Muxponder.BootCopier
import Muxponder.Lib.FlashWrite
import Muxponder.CfiFlash
import Muxponder.FirmwareUpdate
import Muxponder.Lib.CircularList
import Muxponder.AlarmService
import Muxponder.KursLine
import Muxponder.KursLineRuns
