import SbEasy.ExactlyOnce
import SbEasy.Fence
import SbEasy.LockStep
import SbEasy.Serving
import SbEasy.RenderScript
import SbEasy.RefreshStable
import SbEasy.AuthOnce
import SbEasy.AuthSafety
import SbEasy.EnrollmentOnce
import SbEasy.PreferencesRegister
import SbEasy.WireGuardConfig
import SbEasy.WireGuardQuota
import SbEasy.BridgeStop
import SbEasy.SupervisorRun
import SbEasy.WinUpdateSafe
import SbEasy.DataPathSafe
import SbEasy.GrantGrowth
import SbEasy.JsonCalls
import SbEasy.ProxyBase64
import SbEasy.ProxyUri
import SbEasy.RuntimeFiles
import SbEasy.WireGuardNext
import SbEasy.YamlRoundTrip
import SbEasy.Observability
import SbEasy.WireGuardExpiry
import SbEasy.ConfigApply
import SbEasy.TrafficLedger
