import CallWaiting.Broadcast.Hub
import CallWaiting.Form.Values
import CallWaiting.Proofs.Json.Form
import CallWaiting.Proofs.ListenerId

namespace CallWaiting

open Json (LawfulForm IsRecord toJson ofJson?)

instance : LawfulForm PhoneId :=
  .of_inner PhoneId.number (some ∘ PhoneId.mk) (fun _ => rfl) (fun _ => Option.map_eq_bind)
    fun _ => rfl

instance : LawfulForm SubscriptionId :=
  .of_inner SubscriptionId.number (some ∘ SubscriptionId.mk) (fun _ => rfl)
    (fun _ => Option.map_eq_bind) fun _ => rfl

instance : LawfulForm ServiceClass :=
  .of_inner ServiceClass.bits (some ∘ ServiceClass.mk) (fun _ => rfl) (fun _ => Option.map_eq_bind)
    fun _ => rfl

instance : LawfulForm ListenerId :=
  .of_inner ListenerId.text ListenerId.ofText? (fun _ => rfl) (fun _ => rfl) ListenerId.ofText?_text

instance : LawfulForm State where
  isWritten s := Json.isWritten_ofText s.caseName
  ofJson?_toJson s := by
    change (toJson s.caseName).caseName?.bind _ = _
    rw [Json.caseName?_toJson]
    cases s <;> decide

instance : LawfulForm Preference.Field where
  isWritten f := Json.isWritten_ofText f.name
  ofJson?_toJson f := by
    change (toJson f.name).caseName?.bind _ = _
    rw [Json.caseName?_toJson]
    cases f <;> decide

lemma Sync.ofJson?_text {s : Sync} (h : s ∈ named) : ofJson? (toJson s.text) = some s := by
  change (toJson s.text).caseName?.bind ofName? = some s
  rw [Json.caseName?_toJson]
  revert s
  decide

instance : LawfulForm Sync where
  isWritten s := by
    cases s with
    | other c =>
      refine Json.isWritten_record ?_
      simpa using LawfulForm.isWritten c
    | none | userChange | firstPowerUp | firstChange | imsOnly => exact Json.isWritten_ofText _
  ofJson?_toJson s := by
    cases s with
    | other c =>
      have hk : Json.Escape.text? (Json.Escape.ofText "Other") = some "Other" :=
        Json.Escape.text?_ofText "Other"
      change (do if (← Json.Escape.text? _) = "Other" then _ else _) = _
      simp [hk]
    | none | userChange | firstPowerUp | firstChange | imsOnly => exact Sync.ofJson?_text (by decide)

lemma Status.isRecord (s : Status) :
    IsRecord s [("state", toJson s.state), ("service_class", toJson s.serviceClass)] :=
  .of_build (fun _ => rfl) rfl rfl (by decide) (by simp [LawfulForm.isWritten]) (by simp)

lemma Preference.Key.isRecord (k : Preference.Key) :
    IsRecord k [("field", toJson k.field), ("scope", toJson k.scope)] :=
  .of_build (fun _ => rfl) rfl rfl (by decide) (by simp [LawfulForm.isWritten]) (by simp)

lemma Bundle.isRecord (b : Bundle) : IsRecord b [("ut_terminal_based_services", toJson b.services),
    ("terminal_based_call_waiting_sync_type", toJson b.syncType),
    ("terminal_based_call_waiting_default_enabled", toJson b.defaultEnabled)] :=
  .of_build (fun _ => rfl) rfl rfl (by decide) (by simp [LawfulForm.isWritten]) (by simp)

lemma Broadcast.SlotChange.isRecord (c : Broadcast.SlotChange) :
    IsRecord c [("slot_index", toJson c.slot.number)] :=
  .of_build (fun _ => rfl) rfl rfl (by decide) (by simp [LawfulForm.isWritten]) (by simp)

lemma LogSettings.isRecord (l : LogSettings) : IsRecord l
    [("level", toJson l.level), ("json", toJson l.json), ("file_info", toJson l.fileInfo)] :=
  .of_build (fun _ => rfl) rfl rfl (by decide) (by simp [LawfulForm.isWritten]) (by simp)

instance : LawfulForm Status := .of_records fun s => ⟨_, s.isRecord⟩
instance : LawfulForm Preference.Key := .of_records fun k => ⟨_, k.isRecord⟩
instance : LawfulForm Bundle := .of_records fun b => ⟨_, b.isRecord⟩
instance : LawfulForm Broadcast.SlotChange := .of_records fun c => ⟨_, c.isRecord⟩
instance : LawfulForm LogSettings := .of_records fun l => ⟨_, l.isRecord⟩

lemma Settings.isRecord (s : Settings) : IsRecord s [("preference_group", toJson s.group),
    ("store_path", toJson s.storePath), ("logging", toJson s.logging)] :=
  .of_build (fun _ => rfl) rfl rfl (by decide) (by simp [LawfulForm.isWritten]) (by simp)

instance : LawfulForm Settings := .of_records fun s => ⟨_, s.isRecord⟩

namespace Json

theorem forms_roundTrip :
    RoundTrips PhoneId ∧ RoundTrips SubscriptionId ∧ RoundTrips State ∧ RoundTrips Sync ∧
    RoundTrips ServiceClass ∧ RecordRoundTrips Status ∧ RoundTrips Preference.Field ∧
    RecordRoundTrips Preference.Key ∧ RecordRoundTrips Bundle ∧
    RecordRoundTrips Broadcast.SlotChange ∧ RoundTrips ListenerId ∧ RecordRoundTrips LogSettings ∧
    RecordRoundTrips Settings :=
  ⟨roundTrips _, roundTrips _, roundTrips _, roundTrips _, roundTrips _,
    recordRoundTrips Status.isRecord, roundTrips _, recordRoundTrips Preference.Key.isRecord,
    recordRoundTrips Bundle.isRecord, recordRoundTrips Broadcast.SlotChange.isRecord, roundTrips _,
    recordRoundTrips LogSettings.isRecord, recordRoundTrips Settings.isRecord⟩

theorem forms_roundTrip_written_otherwise :
    parse? (compactText (Sync.other 0)) = some (Sync.other 0) ∧
    parse? (.ofText "[\"Activated\",1]") = some (⟨.activated, .voice⟩ : Status) ∧
    let s : Settings := ⟨"g", none, ⟨"debug", true, false⟩⟩
    parse? (.ofText "\x7b\"z\":1e9,\"logging\":[\"de\\u0062ug\",true],\"preference_group\":\"g\"\x7d") =
      some s ∧ parse? (compactText s) = some s := by
  obtain ⟨-, -, -, hsync, -, hstatus, -, -, -, -, -, -, hsettings⟩ := forms_roundTrip
  have hs : ∀ cs (s : Settings), parse? cs = some s →
      parse? cs = some s ∧ parse? (compactText s) = some s :=
    fun cs s h => ⟨h, (hsettings.again cs s h).trans h⟩
  refine ⟨hsync.back _, ?_, hs _ _ (by decide +kernel)⟩
  exact hstatus.given _ [("state", toJson State.activated), ("service_class", toJson ServiceClass.voice)]
    _ _ rfl rfl .array

end Json

end CallWaiting
