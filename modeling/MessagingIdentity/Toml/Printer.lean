namespace MessagingIdentity.Toml

inductive Form where
  | basic
  | literal
  | longBasic
  | longLiteral
deriving DecidableEq

def longestRun (c : Char) : Nat → List Char → Nat
  | n, [] => n
  | n, d :: cs => if d = c then longestRun c (n + 1) cs else max n (longestRun c 0 cs)

def needsEscape (c : Char) : Bool := (c < ' ' && c != '\t' && c != '\n') || c == '\x7f'

def formOf (cs : List Char) : Form :=
  let broken := cs.contains '\n'
  let quotes := longestRun '"' 0 cs
  let apostrophes := longestRun '\'' 0 cs
  if cs.any needsEscape then if broken then .longBasic else .basic
  else if !cs.contains '\\' && quotes = 0 && !broken then .basic
  else if apostrophes = 0 && !broken then .literal
  else if !cs.contains '\\' && quotes ≤ 2 then .longBasic
  else if apostrophes ≤ 2 then .longLiteral
  else if broken then .longBasic
  else .basic

def hexDigits (n : Nat) : List Char :=
  [Nat.digitChar (n / 16), Nat.digitChar (n % 16)].map Char.toUpper

def escape (long : Bool) (c : Char) : List Char :=
  if c = '\x08' then ['\\', 'b']
  else if c = '\t' then ['\\', 't']
  else if c = '\n' then if long then ['\n'] else ['\\', 'n']
  else if c = '\x0c' then ['\\', 'f']
  else if c = '\r' then ['\\', 'r']
  else if c = '\\' then ['\\', '\\']
  else if c < ' ' || c = '\x7f' then '\\' :: 'u' :: '0' :: '0' :: hexDigits c.toNat
  else [c]

/-- The characters between quotes. The number is how many more quotes may stand one behind the
other; on one line none may. -/
def escaped (long : Bool) : Nat → List Char → List Char
  | _, [] => []
  | quotes, '"' :: cs =>
    match quotes with
    | 0 => '\\' :: '"' :: escaped long (if long then 2 else 0) cs
    | quotes + 1 => '"' :: escaped long quotes cs
  | _, c :: cs =>
    escape long c ++ escaped long (if long then 2 else 0) cs

/-- A line break behind three opening marks does not count, so one is put before a text with line
breaks. -/
def opening (cs : List Char) : List Char := if cs.contains '\n' then ['\n'] else []

def written (cs : List Char) : List Char :=
  let quotes := List.replicate 3 '"'
  let apostrophes := List.replicate 3 '\''
  match formOf cs with
  | .basic => '"' :: escaped false 0 cs ++ ['"']
  | .literal => '\'' :: cs ++ ['\'']
  | .longBasic => quotes ++ opening cs ++ escaped true 2 cs ++ quotes
  | .longLiteral => apostrophes ++ opening cs ++ cs ++ apostrophes

end MessagingIdentity.Toml
