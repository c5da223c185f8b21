import CallWaiting.Bundle
import CallWaiting.Settings.Basic
import CallWaiting.Toml.Form

namespace CallWaiting

namespace Toml

instance : Form Bundle where
  ofToml? v := do
    match ← fields? ["ut_terminal_based_services", "terminal_based_call_waiting_sync_type",
        "terminal_based_call_waiting_default_enabled"] v with
    | [services, sync, enabled] =>
      return ⟨← optional none services, ← optional none sync, ← optional none enabled⟩
    | _ => none

instance : Form LogSettings where
  ofToml? v := do
    match ← fields? ["level", "json", "file_info"] v with
    | [level, json, info] =>
      return ⟨← optional LogSettings.default.level level, ← optional LogSettings.default.json json,
        ← optional LogSettings.default.fileInfo info⟩
    | _ => none

instance : Form Settings where
  ofToml? v := do
    match ← fields? ["preference_group", "store_path", "logging"] v with
    | [group, path, logging] =>
      return ⟨← optional Settings.default.group group, ← optional none path,
        ← optional LogSettings.default logging⟩
    | _ => none

end Toml

def Bundle.ofToml? (s : String) : Option Bundle :=
  Toml.parse? .first s

def Settings.ofToml (s : String) : Except Error Settings :=
  match (Toml.parse? .first s : Option Settings) with
  | some settings => settings.validate
  | none => .error (.settings .unreadable)

end CallWaiting
