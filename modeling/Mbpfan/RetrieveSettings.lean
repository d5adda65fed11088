import Mbpfan.Fans
import Mbpfan.Settings

/-!
# retrieve_settings

The file is `none` when it cannot be opened. The parameters are overwritten one by one
from the keys the file has; a missing key and the value 0 leave the value in force.
-/

namespace Mbpfan

open Library

abbrev ConfFile := Option (List UInt8)

/-- What `settings_open` returns for the file, `none` also when it cannot be opened. -/
def readSettings : ConfFile → Option Settings
  | none => none
  | some stream => settingsOpen stream

def minFanKey (fanId : ℕ) : CString := cstring "min_fan" ++ decimal fanId ++ cstring "_speed"

def maxFanKey (fanId : ℕ) : CString := cstring "max_fan" ++ decimal fanId ++ cstring "_speed"

def getGeneral (settings : Settings) (key : CString) : CInt :=
  settingsGetInt settings (cstring "general") key

/-- `if (result != 0) old = result;` -/
def override (result old : CInt) : CInt := if result.val ≠ 0 then result else old

def overrideFan (settings : Settings) (fan : Fan) : Fan :=
  { fan with
    fanMinSpeed := override (getGeneral settings (minFanKey fan.fanId)) fan.fanMinSpeed
    fanMaxSpeed := override (getGeneral settings (maxFanKey fan.fanId)) fan.fanMaxSpeed }

def overrideParams (settings : Settings) (p : Params) : Params where
  lowTemp := override (getGeneral settings (cstring "low_temp")) p.lowTemp
  highTemp := override (getGeneral settings (cstring "high_temp")) p.highTemp
  maxTemp := override (getGeneral settings (cstring "max_temp")) p.maxTemp
  pollingInterval := override (getGeneral settings (cstring "polling_interval")) p.pollingInterval

def applySettings (settings : Option Settings) (p : Params) (fans : List Fan) :
    Params × List Fan :=
  match settings with
  | none => (p, fans)
  | some settings => (overrideParams settings p, fans.map (overrideFan settings))

def retrieveSettings (file : ConfFile) (p : Params) (fans : List Fan) : Params × List Fan :=
  applySettings (readSettings file) p fans

end Mbpfan
