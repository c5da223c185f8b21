import CallWaiting.Toml.Basic
import CallWaiting.Text.Numeral

namespace CallWaiting.Toml.Moment

def digits? (count : Nat) (cs : List Char) : Option (Nat × List Char) :=
  if (cs.take count).length = count then
    (Numeral.toNat? (cs.take count)).map (·, cs.drop count)
  else none

def isLeap (year : Nat) : Bool :=
  year % 4 = 0 && (year % 100 ≠ 0 || year % 400 = 0)

def daysIn (year month : Nat) : Nat :=
  if month = 2 then if isLeap year then 29 else 28
  else if month ∈ [4, 6, 9, 11] then 30
  else 31

def date? (cs : List Char) : Option (List Char × List Char) := do
  match ← digits? 4 cs with
  | (year, '-' :: rest) =>
    match ← digits? 2 rest with
    | (month, '-' :: rest) =>
      let (day, rest) ← digits? 2 rest
      if 1 ≤ month ∧ month ≤ 12 ∧ 1 ≤ day ∧ day ≤ daysIn year month then some (cs.take 10, rest)
      else none
    | _ => none
  | _ => none

def clock? (cs : List Char) : Option (List Char × List Char) := do
  match ← digits? 2 cs with
  | (hour, ':' :: rest) =>
    let (minute, rest) ← digits? 2 rest
    if hour ≤ 23 ∧ minute ≤ 59 then some (cs.take 5, rest) else none
  | _ => none

def fraction (ds : List Char) : List Char :=
  let kept := ((ds.take 9).reverse.dropWhile (· = '0')).reverse
  '.' :: if kept = [] then ['0'] else kept

def second? (cs : List Char) : Option (List Char × List Char) := do
  let (second, rest) ← digits? 2 cs
  if second ≤ 60 then
    match rest with
    | '.' :: rest =>
      let ds := rest.takeWhile Char.isDigit
      if ds = [] then none
      else some (cs.take 2 ++ fraction ds, rest.dropWhile Char.isDigit)
    | rest => some (cs.take 2, rest)
  else none

def time? (d : Dialect) (cs : List Char) : Option (List Char × List Char) := do
  let (clock, rest) ← clock? cs
  match rest with
  | ':' :: rest =>
    let (second, rest) ← second? rest
    some (clock ++ ':' :: second, rest)
  | rest => if d.shortTimes then some (clock, rest) else none

def offset? : List Char → Option (List Char)
  | [] => some []
  | ['Z'] => some ['Z']
  | ['z'] => some ['Z']
  | sign :: cs => do
    let (clock, rest) ← clock? cs
    if rest = [] ∧ (sign = '+' ∨ sign = '-') then
      some ((if clock = ['0', '0', ':', '0', '0'] then '+' else sign) :: clock)
    else none

def afterDate? (d : Dialect) : List Char → Option (List Char)
  | [] => some []
  | c :: cs => do
    if c = 'T' ∨ c = 't' then
      let (time, rest) ← time? d cs
      some ('T' :: time ++ (← offset? rest))
    else none

def ofText? (d : Dialect) (cs : List Char) : Option (List Char) :=
  match date? cs with
  | some (date, rest) => (afterDate? d rest).map (date ++ ·)
  | none =>
    match time? d cs with
    | some (time, []) => some time
    | _ => none

end CallWaiting.Toml.Moment
