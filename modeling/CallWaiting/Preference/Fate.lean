import CallWaiting.Error

namespace CallWaiting.Preference

inductive Fate where
  | stored
  | refused (e : Error)
  /-- The store broke off without an answer, and with it whatever was waiting for one. -/
  | crashed
deriving DecidableEq

end CallWaiting.Preference
