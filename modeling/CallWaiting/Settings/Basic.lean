import CallWaiting.Error
import CallWaiting.Level
import CallWaiting.Preference.Key
import CallWaiting.Text.Blank

namespace CallWaiting

structure LogSettings where
  level : String
  json : Bool
  fileInfo : Bool
deriving DecidableEq

structure Settings where
  group : String
  storePath : Option String
  logging : LogSettings
deriving DecidableEq

def LogSettings.default : LogSettings := ⟨"info", false, false⟩

namespace Settings

def default : Settings := ⟨Preference.defaultGroup, none, .default⟩

end Settings

def LogSettings.level? (l : LogSettings) : Except Error Level :=
  match Level.ofText? l.level with
  | some level => .ok level
  | none => .error (.settings (.unknownLevel l.level))

def Settings.validate (s : Settings) : Except Error Settings :=
  if Text.allBlank s.group then .error (.settings .blankGroup)
  else s.logging.level?.map fun _ => s

end CallWaiting
