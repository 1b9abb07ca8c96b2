import IoTRepublic.Lib.Columns
import IoTRepublic.IoT.Package
import IoTRepublic.IoT.PackageSound
import IoTRepublic.IoT.Utility
import IoTRepublic.IoT.ChecksumSound
import IoTRepublic.IoT.Corruption
import IoTRepublic.IoT.UtilitySound
import IoTRepublic.IoT.AcceptedPackage
import IoTRepublic.IoT.PackageLoop
import IoTRepublic.Lib.Transition
import IoTRepublic.Broker.ReceiveLoops
import IoTRepublic.Broker.ReceiveLoopsSound
import IoTRepublic.Network.TcpServer
import IoTRepublic.Network.TcpServerSound
import IoTRepublic.Network.ServerLoopSound
import IoTRepublic.IoT.Command
import IoTRepublic.IoT.Ruler
import IoTRepublic.IoT.Manager
import IoTRepublic.IoT.ManagerSpec
import IoTRepublic.Lib.Framing
import IoTRepublic.IoT.Reassembly
import IoTRepublic.IoT.StreamSound
import IoTRepublic.IoT.RegistrySound
import IoTRepublic.IoT.RuleTable
import IoTRepublic.IoT.RulerSound
import IoTRepublic.IoT.StaleRules
import IoTRepublic.IoT.RuleWrites
import IoTRepublic.Lib.Countdown
import IoTRepublic.IoT.RulePeriod
import IoTRepublic.IoT.Registration
import IoTRepublic.IoT.AddressKeys
import IoTRepublic.Broker.CloudBridge
import IoTRepublic.Broker.CloudBridgeSound
import IoTRepublic.Broker.LoRaBroker
import IoTRepublic.Broker.LoRaBrokerSound
import IoTRepublic.IoT.Device
import IoTRepublic.IoT.DeviceSound
import IoTRepublic.IoT.ManagerTotal
import IoTRepublic.Broker.CloudUploader
import IoTRepublic.Broker.CloudUploaderSound
import IoTRepublic.Cpp.Bits
import IoTRepublic.Lib.Sextets
import IoTRepublic.Utility.Base64
import IoTRepublic.Utility.Base64Sound
import IoTRepublic.Utility.JsonTexts
import IoTRepublic.Utility.JsonPrinter
import IoTRepublic.IoT.MessageSound
import IoTRepublic.Broker.WaitSound
import IoTRepublic.Lib.Escaping
import IoTRepublic.Broker.XBeeApi
import IoTRepublic.Broker.XBeeBroker
import IoTRepublic.Broker.XBeeSendSound
import IoTRepublic.Broker.XBeeReceiveSound
import IoTRepublic.Broker.XBeeHandshakeSound
import IoTRepublic.Broker.XBeeForwardSound
import IoTRepublic.Broker.XBeeScan
import IoTRepublic.Broker.XBeeTableSound
import IoTRepublic.IoT.Extraction
import IoTRepublic.Lib.BigEndian
import IoTRepublic.Network.DescriptorsSound
import IoTRepublic.Broker.LoRaReceive
import IoTRepublic.Broker.XBeeScanSound
import IoTRepublic.Broker.LoRaReceiveSound
import IoTRepublic.Broker.LoRaAliveSound
import IoTRepublic.Broker.LoRaConfigSound
import IoTRepublic.IoT.MoreInput
import IoTRepublic.Broker.XBeeReader
import IoTRepublic.Lib.Delimited
import IoTRepublic.Broker.XBeeReaderSpec
import IoTRepublic.Broker.XBeeReaderSound
import IoTRepublic.Broker.XBeeDeliverySound
import IoTRepublic.Jansson.Stream
import IoTRepublic.Jansson.Lexer
import IoTRepublic.Jansson.Parser
import IoTRepublic.Jansson.Hashtable
import IoTRepublic.Jansson.HashtableSound
import IoTRepublic.Jansson.Dump
import IoTRepublic.Jansson.StringSound
import IoTRepublic.Jansson.LexerSound
import IoTRepublic.Jansson.ObjectSound
import IoTRepublic.Jansson.Document
import IoTRepublic.Jansson.RoundTrip
import IoTRepublic.Jansson.Accepted
import IoTRepublic.Jansson.Library
import IoTRepublic.Broker.IBroker
import IoTRepublic.Lib.Allotment
import IoTRepublic.Broker.IBrokerSound
import IoTRepublic.Broker.CloudBridgeRelay
import IoTRepublic.Broker.CloudBridgeRelaySound
import IoTRepublic.Broker.ReceiveStreamSound
import IoTRepublic.Broker.CloudUpload
import IoTRepublic.Broker.CloudUploadSound
import IoTRepublic.Broker.FakeBroker
import IoTRepublic.Broker.FakeBrokerSound
