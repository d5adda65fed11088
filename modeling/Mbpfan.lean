import Mbpfan.Library.Machine
import Mbpfan.Library.Play
import Mbpfan.Library.CInt
import Mbpfan.Library.Rounding
import Mbpfan.Library.Triangular
import Mbpfan.Library.Share
import Mbpfan.Library.WriteCache
import Mbpfan.Library.Potential
import Mbpfan.Library.PlayMemory
import Mbpfan.Library.Buckets
import Mbpfan.Library.Descriptors
import Mbpfan.Library.Upsert
import Mbpfan.Library.Ticks
import Mbpfan.Library.Trim
import Mbpfan.Fans
import Mbpfan.Control
import Mbpfan.Steps
import Mbpfan.Curve
import Mbpfan.Interpolation
import Mbpfan.Arithmetic
import Mbpfan.Run
import Mbpfan.Band
import Mbpfan.Direction
import Mbpfan.HotStart
import Mbpfan.CString
import Mbpfan.Settings
import Mbpfan.SettingsMap
import Mbpfan.Lines
import Mbpfan.RetrieveSettings
import Mbpfan.Language
import Mbpfan.Reload
import Mbpfan.Forgetting
import Mbpfan.Reconfigure
import Mbpfan.Limits
import Mbpfan.Hardware
import Mbpfan.Writes
import Mbpfan.Sensors
import Mbpfan.Descriptors
import Mbpfan.Daemon
import Mbpfan.Transition
import Mbpfan.Simulation
import Mbpfan.Exit
import Mbpfan.PidFile
import Mbpfan.Exclusion
import Mbpfan.Mailbox
import Mbpfan.Resume
import Mbpfan.ClockSkew
import Mbpfan.Labels
import Mbpfan.DetectedLimits
import Mbpfan.Decimal
import Mbpfan.Temperature
import Mbpfan.Detection
import Mbpfan.Statements
import Mbpfan.Comments
import Mbpfan.ShortComments
import Mbpfan.SettingsStore
import Mbpfan.SettingsFile
import Mbpfan.Progress
import Mbpfan.Memory
import Mbpfan.Printed
import Mbpfan.Tuples
import Mbpfan.Concatenation
import Mbpfan.InForce
import Mbpfan.Startup
import Mbpfan.Files
import Mbpfan.Messages
import Mbpfan.InControl
import Mbpfan.Safety
import Mbpfan.Overheating
import Mbpfan.Unchanged
import Mbpfan.OpenFiles
