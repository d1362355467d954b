import TelemetryNode.Library.BoundedFifo
import TelemetryNode.Library.CircularBuffer
import TelemetryNode.Library.Composition
import TelemetryNode.Library.Crc
import TelemetryNode.Library.CrcPolynomial
import TelemetryNode.Library.CrcDistance
import TelemetryNode.Library.FlatJson
import TelemetryNode.Library.KnownBits
import TelemetryNode.Library.LittleEndian
import TelemetryNode.Library.RegisterProgram
import TelemetryNode.Library.Transducer
import TelemetryNode.Library.TransitionSystem
import TelemetryNode.Library.WindowScanner
import TelemetryNode.Library.WrapCounter
import TelemetryNode.Common.ProtocolSpec
import TelemetryNode.Common.ChecksumPolynomial
import TelemetryNode.Esp32.UartReceiver
import TelemetryNode.Esp32.FrameScanner
import TelemetryNode.Esp32.ParserInvariant
import TelemetryNode.Esp32.MqttPublisher
import TelemetryNode.Esp32.JsonRoundTrip
import TelemetryNode.Esp32.WifiMqttClient
import TelemetryNode.Esp32.WifiStation
import TelemetryNode.Esp32.AppMain
import TelemetryNode.Stm32.UartHandshake
import TelemetryNode.Stm32.DataPacket
import TelemetryNode.Stm32.DmaAdc
import TelemetryNode.Stm32.MainLoop
import TelemetryNode.Stm32.Averaging
import TelemetryNode.Stm32.DataReady
import TelemetryNode.Stm32.SystickDelay
import TelemetryNode.Stm32.DelayBounds
import TelemetryNode.Stm32.Sampling
import TelemetryNode.Stm32.ScanConsistency
import TelemetryNode.Stm32.Packets
import TelemetryNode.Stm32.BoardSetup
import TelemetryNode.Stm32.BoardRules
import TelemetryNode.Link.WireFrame
import TelemetryNode.Link.Delivery
import TelemetryNode.Link.Alignment
import TelemetryNode.Link.Resynchronisation
import TelemetryNode.Link.ErrorDetection
import TelemetryNode.Link.BurstErrors
import TelemetryNode.Link.HammingDistance
import TelemetryNode.System.Pipeline
import TelemetryNode.System.Conservation
import TelemetryNode.System.AckAgreement
import TelemetryNode.System.Drain
import TelemetryNode.System.EndToEnd
import TelemetryNode.System.DutyCycle
import TelemetryNode.System.WireLevel
import TelemetryNode.System.Backlog
import TelemetryNode.System.Startup
import TelemetryNode.System.NoPublisher
