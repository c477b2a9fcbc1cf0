import LinuxDfl.Afu.Mmap
import LinuxDfl.Afu.PageAccount
import LinuxDfl.Afu.RegionLookup
import LinuxDfl.Bmc.CancelKept
import LinuxDfl.Bmc.DataPath
import LinuxDfl.Bmc.FlashLock
import LinuxDfl.Bmc.FlashRead
import LinuxDfl.Bmc.Handshake
import LinuxDfl.Bmc.LogArmed
import LinuxDfl.Bmc.LogSync
import LinuxDfl.Bmc.PollComplete
import LinuxDfl.Bmc.PowerOnImage
import LinuxDfl.Bmc.PowerOnSequence
import LinuxDfl.Bmc.RetimerLoad
import LinuxDfl.Cxl.Confined
import LinuxDfl.Cxl.Numbering
import LinuxDfl.Cxl.Protect
import LinuxDfl.Dfl.DeviceData
import LinuxDfl.Dfl.Discovery
import LinuxDfl.Dfl.Enumerate
import LinuxDfl.Dfl.FeatureScan
import LinuxDfl.Dfl.FmeReference
import LinuxDfl.Dfl.HeaderLocality
import LinuxDfl.Dfl.IrqRange
import LinuxDfl.Dfl.IrqTriggers
import LinuxDfl.Dfl.ModAlias
import LinuxDfl.Dfl.PortRegistry
import LinuxDfl.Dfl.Resources
import LinuxDfl.Dfl.Rules
import LinuxDfl.Dfl.SubFeature
import LinuxDfl.Dfl.Walk
import LinuxDfl.Dfl.WalkPositions
import LinuxDfl.Dfl.WindowReads
import LinuxDfl.Fme.FabricMode
import LinuxDfl.Fme.ImageOwner
import LinuxDfl.Fme.PerfCount
import LinuxDfl.Fme.PortEnabled
import LinuxDfl.Fme.PortHeld
import LinuxDfl.Fme.PrCycle
import LinuxDfl.Fme.PrMgmt
import LinuxDfl.Fme.PrWrite
import LinuxDfl.Fme.ResourceBalance
import LinuxDfl.Fpga.AlteraPs
import LinuxDfl.Fpga.BridgeOwner
import LinuxDfl.Fpga.Cvp
import LinuxDfl.Fpga.CvpCredit
import LinuxDfl.Fpga.CvpSession
import LinuxDfl.Fpga.HeaderCopy
import LinuxDfl.Fpga.Hps2fpga
import LinuxDfl.Fpga.LoadAgreement
import LinuxDfl.Fpga.MachXo2
import LinuxDfl.Fpga.OfRegion
import LinuxDfl.Fpga.OverlayBalance
import LinuxDfl.Fpga.Socfpga
import LinuxDfl.Fpga.Stratix10
import LinuxDfl.Fpga.Stratix10Buffers
import LinuxDfl.Fpga.Stratix10Handover
import LinuxDfl.Fpga.Stratix10Passes
import LinuxDfl.Fpga.WordWriter
import LinuxDfl.Fpga.Zynq
import LinuxDfl.Fpga.ZynqQueue
import LinuxDfl.Fpga.ZynqTransfer
import LinuxDfl.ImageLoad.Exclusive
import LinuxDfl.ImageLoad.LifeCycle
import LinuxDfl.ImageLoad.Protocol
import LinuxDfl.Lib.Answers
import LinuxDfl.Lib.Chunks
import LinuxDfl.Lib.Modules
import LinuxDfl.Lib.Monitor
import LinuxDfl.Lib.Sections
import LinuxDfl.Lib.Calls
import LinuxDfl.Lib.ErrorLog
import LinuxDfl.Fme.GlobalErrors
import LinuxDfl.Lib.Padding
import LinuxDfl.Lib.Population
import LinuxDfl.Lib.SharedExclusive
import LinuxDfl.Lib.Transition
import LinuxDfl.Lib.Truncation
import LinuxDfl.Net.Hssi
import LinuxDfl.Net.HssiRollback
import LinuxDfl.Net.QsfpHotplug
import LinuxDfl.Net.QsfpPolling
import LinuxDfl.Net.S10Hssi
import LinuxDfl.Net.S10HssiPolling
import LinuxDfl.Net.S10Phy
import LinuxDfl.Port.AccessMode
import LinuxDfl.Port.Card
import LinuxDfl.Port.FeatureDev
import LinuxDfl.Port.Ownership
import LinuxDfl.Port.ResetBalance
import LinuxDfl.Port.ResetCount
import LinuxDfl.Ptp.Divisions
import LinuxDfl.Ptp.DriftRatio
import LinuxDfl.Regmap.Debugfs
import LinuxDfl.Regmap.Mmio
import LinuxDfl.Spi.AlteraCore
import LinuxDfl.Spi.BufferBound
import LinuxDfl.Spi.Encoder
import LinuxDfl.Spi.Indirect
import LinuxDfl.Spi.Progress
import LinuxDfl.Spi.RegAccess
import LinuxDfl.Sva.DevList
import LinuxDfl.Sva.HandleLife
import LinuxDfl.Sva.LockOrder
import LinuxDfl.Sva.Outlive
