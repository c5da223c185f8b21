import CallWaiting.Text.Numeral

namespace CallWaiting

inductive Sync where
  | none
  | userChange
  | firstPowerUp
  | firstChange
  | imsOnly
  | other (code : Int32)
deriving DecidableEq

namespace Sync

def code : Sync → Int32
  | none => 0
  | userChange => 1
  | firstPowerUp => 2
  | firstChange => 3
  | imsOnly => 4
  | other c => c

def ofCode (c : Int32) : Sync :=
  if c = 0 then none
  else if c = 1 then userChange
  else if c = 2 then firstPowerUp
  else if c = 3 then firstChange
  else if c = 4 then imsOnly
  else other c

def isLocal (s : Sync) : Bool :=
  decide (s = none)

def text : Sync → String
  | none => "None"
  | userChange => "UserChange"
  | firstPowerUp => "FirstPowerUp"
  | firstChange => "FirstChange"
  | imsOnly => "ImsOnly"
  | other c => "Other(" ++ Numeral.text c.toInt ++ ")"

@[simp] theorem code_ofCode (c : Int32) : (ofCode c).code = c := by
  unfold ofCode
  repeat' split
  all_goals simp_all [code]

end Sync

end CallWaiting
