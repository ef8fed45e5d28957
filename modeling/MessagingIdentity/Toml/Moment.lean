namespace MessagingIdentity.Toml

def twoDigits (least greatest : Nat) : List Char → Option (Nat × List Char)
  | a :: b :: rest =>
    let n := (a.toNat - '0'.toNat) * 10 + (b.toNat - '0'.toNat)
    if a.isDigit && b.isDigit && least ≤ n && n ≤ greatest then some (n, rest) else none
  | _ => none

def behind (c : Char) : List Char → Option (List Char)
  | d :: rest => if c = d then some rest else none
  | [] => none

def isLeap (year : Nat) : Bool := year % 4 == 0 && (year % 100 != 0 || year % 400 == 0)

def daysIn (year month : Nat) : Nat :=
  if month = 2 then if isLeap year then 29 else 28
  else if month ∈ [4, 6, 9, 11] then 30
  else 31

def date (cs : List Char) : Option (List Char) := do
  let (century, cs) ← twoDigits 0 99 cs
  let (year, cs) ← twoDigits 0 99 cs
  let (month, cs) ← twoDigits 1 12 (← behind '-' cs)
  let (day, cs) ← twoDigits 1 31 (← behind '-' cs)
  if day ≤ daysIn (century * 100 + year) month then some cs else none

def time (cs : List Char) : Option (List Char) := do
  let (_, cs) ← twoDigits 0 23 cs
  let (_, cs) ← twoDigits 0 59 (← behind ':' cs)
  let (_, cs) ← twoDigits 0 60 (← behind ':' cs)
  match cs with
  | '.' :: c :: rest => if c.isDigit then some (rest.dropWhile Char.isDigit) else some cs
  | _ => some cs

def offset : List Char → Option (List Char)
  | 'Z' :: rest | 'z' :: rest => some rest
  | '+' :: rest | '-' :: rest => do
    let (_, rest) ← twoDigits 0 23 rest
    let (_, rest) ← twoDigits 0 59 (← behind ':' rest)
    some rest
  | _ => none

def timeOf : List Char → Option (List Char)
  | 'T' :: rest | 't' :: rest | ' ' :: rest => (time rest).map fun cs ↦ (offset cs).getD cs
  | _ => none

def moment (cs : List Char) : Option (List Char) :=
  match date cs with
  | some rest => some ((timeOf rest).getD rest)
  | none => time cs

end MessagingIdentity.Toml
