import ErobCanopen.Wire.Frame
import ErobCanopen.Wire.CString
import ErobCanopen.Dictionary.Eds
import ErobCanopen.Dictionary.Lines
import ErobCanopen.Dictionary.Sections
import ErobCanopen.Dictionary.Texts
import ErobCanopen.Dictionary.Table
import ErobCanopen.Sdo.Engine
import ErobCanopen.Sdo.Program
import ErobCanopen.Drive.Move
import ErobCanopen.Drive.Handshake
import ErobCanopen.Drive.Cia402
import ErobCanopen.Sdo.Session
import ErobCanopen.Sdo.Timely
import ErobCanopen.Sdo.Schedule
import ErobCanopen.Console.Command
import ErobCanopen.Console.Session
import ErobCanopen.Console.Monitor
import ErobCanopen.Console.Setpoints
import ErobCanopen.Console.Bounds
import ErobCanopen.Discovery.Scan
import ErobCanopen.Discovery.Deadlines
import ErobCanopen.Console.Startup
