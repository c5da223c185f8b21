import CallWaiting.Json.Form
import CallWaiting.ListenerId
import CallWaiting.Status
import CallWaiting.Bundle
import CallWaiting.Preference.Key
import CallWaiting.Settings.Basic

namespace CallWaiting

open Json (Form toJson ofJson? fields? record required optional)

instance : Form PhoneId where
  toJson p := toJson p.number
  ofJson? j := (ofJson? j).map PhoneId.mk

instance : Form SubscriptionId where
  toJson s := toJson s.number
  ofJson? j := (ofJson? j).map SubscriptionId.mk

instance : Form ServiceClass where
  toJson c := toJson c.bits
  ofJson? j := (ofJson? j).map ServiceClass.mk

namespace State

def caseName : State → String
  | notSupported => "NotSupported"
  | notActivated => "NotActivated"
  | activated => "Activated"

instance : Form State where
  toJson s := toJson s.caseName
  ofJson? j := do
    let n ← j.caseName?
    [notSupported, notActivated, activated].find? (·.caseName = n)

end State

namespace Sync

def named : List Sync := [none, userChange, firstPowerUp, firstChange, imsOnly]

def ofName? (n : String) : Option Sync :=
  named.find? (·.text = n)

instance : Form Sync where
  toJson
    | other c => record [("Other", toJson c)]
    | s => toJson s.text
  ofJson? j :=
    match j with
    | .object [(k, v)] => do
      if (← Json.Escape.text? k) = "Other" then (ofJson? v).map other
      else j.caseName?.bind ofName?
    | _ => j.caseName?.bind ofName?

end Sync

instance : Form Status where
  toJson s := record [("state", toJson s.state), ("service_class", toJson s.serviceClass)]
  ofJson? j := do
    match ← fields? ["state", "service_class"] j with
    | [s, c] => return ⟨← required s, ← required c⟩
    | _ => none

instance : Form Preference.Field where
  toJson f := toJson f.name
  ofJson? j := j.caseName?.bind Preference.Field.ofName?

instance : Form Preference.Key where
  toJson k := record [("field", toJson k.field), ("scope", toJson k.scope)]
  ofJson? j := do
    match ← fields? ["field", "scope"] j with
    | [f, s] => return ⟨← required f, ← required s⟩
    | _ => none

instance : Form Bundle where
  toJson b :=
    record [("ut_terminal_based_services", toJson b.services),
      ("terminal_based_call_waiting_sync_type", toJson b.syncType),
      ("terminal_based_call_waiting_default_enabled", toJson b.defaultEnabled)]
  ofJson? j := do
    match ← fields? ["ut_terminal_based_services", "terminal_based_call_waiting_sync_type",
        "terminal_based_call_waiting_default_enabled"] j with
    | [services, sync, enabled] =>
      return ⟨← optional none services, ← optional none sync, ← optional none enabled⟩
    | _ => none

instance : Form ListenerId where
  toJson l := toJson l.text
  ofJson? j := (ofJson? j).bind ListenerId.ofText?

instance : Form LogSettings where
  toJson l :=
    record [("level", toJson l.level), ("json", toJson l.json), ("file_info", toJson l.fileInfo)]
  ofJson? j := do
    match ← fields? ["level", "json", "file_info"] j with
    | [level, json, info] =>
      return ⟨← optional LogSettings.default.level level, ← optional LogSettings.default.json json,
        ← optional LogSettings.default.fileInfo info⟩
    | _ => none

instance : Form Settings where
  toJson s :=
    record [("preference_group", toJson s.group), ("store_path", toJson s.storePath),
      ("logging", toJson s.logging)]
  ofJson? j := do
    match ← fields? ["preference_group", "store_path", "logging"] j with
    | [group, path, logging] =>
      return ⟨← optional Settings.default.group group, ← optional none path,
        ← optional LogSettings.default logging⟩
    | _ => none

end CallWaiting
