import Serialosc.Support.ByteMemory
import Serialosc.Ipc.Message
import Serialosc.Ipc.Encode
import Serialosc.Ipc.Decode
import Serialosc.Ipc.Dispatch
import Serialosc.Support.Runs
import Serialosc.Support.UvHandle
import Serialosc.Supervisor.Callbacks
import Serialosc.Supervisor.Loop
import Serialosc.Supervisor.Specs
import Serialosc.Supervisor.Lifecycle
import Serialosc.Supervisor.Running
import Serialosc.Supervisor.Disable
import Serialosc.Supervisor.Notifications
import Serialosc.Supervisor.Records
import Serialosc.Supervisor.Listing
import Serialosc.Supervisor.FailedLaunch
import Serialosc.Device.Methods
import Serialosc.Support.Channels
import Serialosc.Announcements
import Serialosc.Ipc.Inversion
import Serialosc.Ipc.Misread
import Serialosc.Support.Cuts
import Serialosc.Ipc.Chunks
import Serialosc.Supervisor.Teardown
import Serialosc.Supervisor.OneShot
import Serialosc.Ipc.EncodeBounds
import Serialosc.Ipc.DecodeBounds
import Serialosc.Ipc.Read
import Serialosc.Ipc.ReadFaults
import Serialosc.Support.Numeral
import Serialosc.Device.Server
import Serialosc.Device.Rotation
import Serialosc.Destinations
import Serialosc.Detector.Libudev
import Serialosc.Detector.Startup
import Serialosc.Support.Scanner
import Serialosc.Confuse.Lexer
import Serialosc.Confuse.Lexemes
import Serialosc.Device.Config
import Serialosc.Device.Printed
import Serialosc.Device.Restore
import Serialosc.Detector.Compatible
import Serialosc.Detector.Iokitlib
import Serialosc.Support.Statements
import Serialosc.Device.Leds
import Serialosc.Ipc.Accounting
import Serialosc.Ipc.DecodeRoom
import Serialosc.Ipc.Pipe
import Serialosc.Device.LedMethods
import Serialosc.Device.Settings
import Serialosc.Device.Process
import Serialosc.Device.ProcessRuns
import Serialosc.Device.Cleanup
import Serialosc.Device.Session
import Serialosc.Support.Simulations
import Serialosc.Device.Exit
import Serialosc.Network
import Serialosc.Shutdown
import Serialosc.Supervisor.Progress
import Serialosc.Device.Restarts
import Serialosc.Device.ConfigGrammar
import Serialosc.Detection
import Serialosc.Discovery
import Serialosc.Wwrl.Vector
import Serialosc.Supervisor.Endpoints
import Serialosc.Readiness
import Serialosc.World
import Serialosc.Device.Directory
import Serialosc.Supervisor.EndpointBytes
