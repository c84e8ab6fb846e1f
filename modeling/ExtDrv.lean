import ExtDrv.Lib.Run
import ExtDrv.Lib.RingBuf
import ExtDrv.Lib.RegField
import ExtDrv.Lib.RegFile
import ExtDrv.Lib.Loop
import ExtDrv.Lib.Sessions
import ExtDrv.Cipher.Attribution
import ExtDrv.Cipher.Context
import ExtDrv.Cipher.Ownership
import ExtDrv.Cipher.Requests
import ExtDrv.Cipher.Resume
import ExtDrv.Cipher.Propagation
import ExtDrv.Cipher.Interrupts
import ExtDrv.GpioI2c.Transfers
import ExtDrv.Guard.OpenCnt
import ExtDrv.HiI2c.RoundTrip
import ExtDrv.Irda.KeyState
import ExtDrv.Irda.Exclusive
import ExtDrv.Ov7725.Output
import ExtDrv.Rt3370.Delivery
import ExtDrv.Rt3370.BaTable
import ExtDrv.Rt3370.BlockPool
import ExtDrv.Rt3370.Accounting
import ExtDrv.Rt3370.AmsduBounds
import ExtDrv.Rt3370.Defrag
import ExtDrv.Rt3370.SoftAes
import ExtDrv.Rt3370.TimerOrder
import ExtDrv.Rt3370.TxRingRuns
import ExtDrv.Sil9024.EdidSafety
import ExtDrv.Sil9024.HotPlug
import ExtDrv.Wdt.Feeding
import ExtDrv.Wdt.Nowayout
import ExtDrv.Wdt.References
import ExtDrv.Rt3370.WscRoundTrip
import ExtDrv.Rt3370.EfuseWrites
import ExtDrv.Rt3370.RxPlaintext
import ExtDrv.Rt3370.AmsduRoundTrip
import ExtDrv.Rt3370.WpaMic
import ExtDrv.Rt3370.WpaReplay
import ExtDrv.Rt3370.WpaOrder
import ExtDrv.Rt3370.WpaReinstall
import ExtDrv.Rt3370.WpaGroupKey
import ExtDrv.Rt3370.WpaMessage1
import ExtDrv.Rt3370.WpaRsn
import ExtDrv.Rt3370.MlmeQueue
import ExtDrv.Rt3370.MultiWrite
import ExtDrv.Rt3370.OidBssid
import ExtDrv.Rt3370.PtkDerivation
import ExtDrv.Rt3370.RequestTables
import ExtDrv.Rt3370.RateSwitch
import ExtDrv.Rt3370.RateSwitchRuns
import ExtDrv.Rt3370.RatePeers
import ExtDrv.Rt3370.Connect
import ExtDrv.Rt3370.ConnectQueue
import ExtDrv.Rt3370.ConnectRuns
import ExtDrv.Rt3370.ConnectLost
import ExtDrv.Rt3370.ConnectLinks
import ExtDrv.Rt3370.MacTable
import ExtDrv.Rt3370.ScanTable
import ExtDrv.Rt3370.SsidSort
import ExtDrv.Rt3370.ReceivedOnly
import ExtDrv.Rt3370.KeyDataRoundTrip
import ExtDrv.Rt3370.DeQueueBatches
import ExtDrv.Rt3370.ARalink
import ExtDrv.Rt3370.HardTransmitDisposal
import ExtDrv.Rt3370.ChannelSwitch
import ExtDrv.Rt3370.MeasureReport
import ExtDrv.Rt3370.DlsResponses
import ExtDrv.Rt3370.AmpduDisposal
import ExtDrv.Rt3370.BaNegotiation
import ExtDrv.Sil9024.EdidWalk
import ExtDrv.Sil9024.InfoFrames
import ExtDrv.Irda.Config
import ExtDrv.Rtc.Proc
import ExtDrv.Wdt.Margin
import ExtDrv.GpioI2c.StrFunc
import ExtDrv.HiI2c.Answers
import ExtDrv.Ssp.Config
import ExtDrv.Ov7725.Adjustments
import ExtDrv.Nvp1918.Video
import ExtDrv.Tw2865.ImageAdjust
import ExtDrv.Rt3370.CmmAes
import ExtDrv.Rt3370.CcmStandard
import ExtDrv.Rt3370.TkipMixing
import ExtDrv.Rt3370.Wep
import ExtDrv.Rt3370.WepRoundTrip
import ExtDrv.Rt3370.Michael
import ExtDrv.Rt3370.ARalinkBounds
import ExtDrv.Rt3370.RxBulk
import ExtDrv.Rt3370.RxStrip
import ExtDrv.Rt3370.SoftTkip
import ExtDrv.Rt3370.SoftAesTape
import ExtDrv.Rt3370.SoftDecryptBounds
import ExtDrv.Rt3370.FragmentPartition
import ExtDrv.Rt3370.EapolInBounds
import ExtDrv.Rt3370.KeyWrapStandard
import ExtDrv.Rt3370.SecurityElement
import ExtDrv.Rt3370.CipherParse
import ExtDrv.Rt3370.CipherShown
import ExtDrv.Rt3370.ElementBounds
import ExtDrv.Rt3370.BeaconStores
import ExtDrv.Rt3370.SsidAdmission
import ExtDrv.Rt3370.ExtractSuite
import ExtDrv.Rt3370.Profile
