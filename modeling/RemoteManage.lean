import RemoteManage.Foundation.FixedBuffer
import RemoteManage.Foundation.WordBytes
import RemoteManage.Foundation.Mealy
import RemoteManage.Foundation.Transition
import RemoteManage.Foundation.FrameDecoder
import RemoteManage.Foundation.DeferredWrite
import RemoteManage.Foundation.RecordPipe
import RemoteManage.Foundation.CString
import RemoteManage.Foundation.ScanInt
import RemoteManage.Foundation.ValueTree
import RemoteManage.Foundation.Binary32
import RemoteManage.Foundation.ThreadPhase
import RemoteManage.Foundation.ChunkedStream
import RemoteManage.Foundation.TracedMemory
import RemoteManage.Foundation.PosixPath
import RemoteManage.Foundation.RingBuffer
import RemoteManage.Foundation.FieldUpdates
import RemoteManage.Foundation.TurnLoop
import RemoteManage.Foundation.Median
import RemoteManage.Foundation.Mailbox
import RemoteManage.Foundation.Calendar
import RemoteManage.Common.Calculate
import RemoteManage.Common.AsioServer
import RemoteManage.Common.SingleSession
import RemoteManage.Common.LoggerPrivilege
import RemoteManage.Common.JsonTree
import RemoteManage.Common.SystemConfig
import RemoteManage.Common.DynamicConfig
import RemoteManage.Common.ThreadQueue
import RemoteManage.Common.ConfigDefaults
import RemoteManage.Common.TimerManage
import RemoteManage.Common.TimerDeadline
import RemoteManage.Common.TimerStop
import RemoteManage.MainProcess.Protocol
import RemoteManage.MainProcess.Frame
import RemoteManage.MainProcess.ProtocolDecoder
import RemoteManage.MainProcess.ReceiverRefinement
import RemoteManage.MainProcess.FrameStream
import RemoteManage.MainProcess.AckExchange
import RemoteManage.MainProcess.Reconnect
import RemoteManage.MainProcess.WireIntegrity
import RemoteManage.MainProcess.SendData
import RemoteManage.MainProcess.Resync
import RemoteManage.LocalDevice.DeviceEvent
import RemoteManage.LocalDevice.CommandFifo
import RemoteManage.LocalDevice.DeviceInfo
import RemoteManage.LocalDevice.PwmDevice
import RemoteManage.LocalDevice.PwmSysfs
import RemoteManage.LocalDevice.StatusFifo
import RemoteManage.LocalDevice.LoopLed
import RemoteManage.LocalDevice.LoopLedCycle
import RemoteManage.LocalDevice.IioDevice
import RemoteManage.LocalDevice.SpiIcm
import RemoteManage.MainProcess.Ingress
import RemoteManage.MainProcess.ProcessDevice
import RemoteManage.MainProcess.Console
import RemoteManage.MainProcess.ConsoleIsolation
import RemoteManage.MainProcess.ConsoleArguments
import RemoteManage.MainProcess.MqttProtocol
import RemoteManage.MainProcess.SetDevAgreement
import RemoteManage.MainProcess.LevelSync
import RemoteManage.LoggerTool.LogProcess
import RemoteManage.LoggerTool.LoginGate
import RemoteManage.LoggerTool.ConnectionLogin
import RemoteManage.LoggerTool.LogForwarding
import RemoteManage.LoggerTool.ElapsedSeconds
import RemoteManage.CanNet.CanProtocol
import RemoteManage.CanNet.CanDecoder
import RemoteManage.CanNet.CanMessage
import RemoteManage.CanNet.CanReply
import RemoteManage.CanNet.CanService
import RemoteManage.CanNet.CanAuthenticity
import RemoteManage.CanNet.CanSegmentation
import RemoteManage.Modbus.MbCrc
import RemoteManage.Modbus.SerialPort
import RemoteManage.Modbus.Transmission
import RemoteManage.Modbus.HalfDuplex
import RemoteManage.Modbus.TcpPort
import RemoteManage.Modbus.MbUtils
import RemoteManage.Modbus.RegisterTables
import RemoteManage.Modbus.RegisterLaws
import RemoteManage.Modbus.RegisterBounds
import RemoteManage.Modbus.ReplyPacking
import RemoteManage.ManageTool.ProtocolInfo
import RemoteManage.ManageTool.ReplySegmentation
import RemoteManage.ManageTool.SendBuffer
import RemoteManage.ManageTool.ReceiveLoop
import RemoteManage.ManageTool.ProtocolQueue
import RemoteManage.ManageTool.FileUpdate
import RemoteManage.NodeServer.StaticEngine
import RemoteManage.NodeServer.DynamicEngine
import RemoteManage.LowerDevice.SerialRelay
import RemoteManage.KernelModule.KeyRwio
import RemoteManage.KernelModule.Pcf8563
import RemoteManage.KernelModule.Pcf8563Date
import RemoteManage.KernelModule.BusRtc
import RemoteManage.KernelModule.Pcf8563Migration
import RemoteManage.Foundation.MemoryCopy
import RemoteManage.KernelModule.RamDisk
import RemoteManage.KernelModule.RamDiskSectors
import RemoteManage.Foundation.BitField
import RemoteManage.KernelModule.PwmProvider
import RemoteManage.KernelModule.PwmClock
import RemoteManage.KernelModule.PwmWaveform
import RemoteManage.Foundation.ReflectedCrc
import RemoteManage.ManageTool.ProtocolCrc
import RemoteManage.CanNet.CrcAgreement
import RemoteManage.Foundation.BufferMemory
import RemoteManage.Modbus.MbFunctions
import RemoteManage.Modbus.RegisterDevice
import RemoteManage.Modbus.PduRefinement
import RemoteManage.Modbus.FrameBounds
import RemoteManage.Modbus.PduConfinement
import RemoteManage.Modbus.TcpServer
import RemoteManage.Modbus.MbAscii
import RemoteManage.Modbus.AsciiText
import RemoteManage.Modbus.AsciiReceiver
import RemoteManage.Modbus.AsciiSlave
import RemoteManage.Foundation.CrcErrors
import RemoteManage.CanNet.CrcDetection
import RemoteManage.Modbus.RtuReceiver
import RemoteManage.MainProcess.LineErrors
