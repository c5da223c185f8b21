import CallWaiting.FileSystem.Fault

namespace CallWaiting

inductive SettingsFault where
  | blankGroup
  | unknownLevel (level : String)
  | unreadable
  | loggerPresent
  | stated (detail : String)
deriving DecidableEq

inductive Error where
  | storage (detail : String)
  | io (fault : FileSystem.Fault)
  | serialization
  | settings (fault : SettingsFault)
  | closed
  | internal (detail : String)
deriving DecidableEq

namespace SettingsFault

def detail? : SettingsFault → Option String
  | blankGroup => some "preference_group must not be empty"
  | unknownLevel level => some ("Invalid log level: " ++ level)
  | stated detail => some detail
  | unreadable => none
  | loggerPresent => none

end SettingsFault

namespace Error

def text? : Error → Option String
  | storage detail => some ("Storage error: " ++ detail)
  | io fault => some ("I/O error: " ++ fault.text)
  | serialization => none
  | settings fault => fault.detail?.map ("Configuration error: " ++ ·)
  | closed => some "Call waiting service is closed"
  | internal detail => some ("Internal error: " ++ detail)

end Error

end CallWaiting
