namespace MessagingIdentity.Toml

def digitValue? (base : Nat) (c : Char) : Option Nat :=
  let n :=
    if c.isDigit then c.toNat - '0'.toNat
    else if 'a' ≤ c ∧ c ≤ 'f' then c.toNat - 'a'.toNat + 10
    else if 'A' ≤ c ∧ c ≤ 'F' then c.toNat - 'A'.toNat + 10
    else base
  if n < base then some n else none

def valueOf (base : Nat) (digits : List Nat) : Nat := digits.foldl (fun n d ↦ n * base + d) 0

/-- The digits at the start, with underscores between them. -/
def moreDigits (base : Nat) : List Char → List Nat × List Char
  | [] => ([], [])
  | '_' :: c :: rest =>
    match digitValue? base c with
    | some d =>
      let (digits, rest) := moreDigits base rest
      (d :: digits, rest)
    | none => ([], '_' :: c :: rest)
  | c :: rest =>
    match digitValue? base c with
    | some d =>
      let (digits, rest) := moreDigits base rest
      (d :: digits, rest)
    | none => ([], c :: rest)

def digits (base : Nat) : List Char → Option (List Nat × List Char)
  | [] => none
  | c :: rest => do
    let d ← digitValue? base c
    let (more, rest) := moreDigits base rest
    some (d :: more, rest)

def decimalDigits : List Char → Option (List Nat × List Char)
  | '0' :: rest => some ([0], rest)
  | cs => digits 10 cs

def sign : List Char → Bool × List Char
  | '-' :: rest => (true, rest)
  | '+' :: rest => (false, rest)
  | cs => (false, cs)

def ofInteger? (i : Int) : Option Int :=
  if -0x8000000000000000 ≤ i ∧ i < 0x8000000000000000 then some i else none

def basedInteger (base : Nat) (cs : List Char) : Option (Int × List Char) := do
  let (ds, rest) ← digits base cs
  some (← ofInteger? (valueOf base ds), rest)

def integer : List Char → Option (Int × List Char)
  | '0' :: 'x' :: rest => basedInteger 16 rest
  | '0' :: 'o' :: rest => basedInteger 8 rest
  | '0' :: 'b' :: rest => basedInteger 2 rest
  | cs => do
    let (negative, cs) := sign cs
    let (ds, rest) ← decimalDigits cs
    let n : Int := valueOf 10 ds
    some (← ofInteger? (if negative then -n else n), rest)

def isHuge (digits : List Nat) (exponent : Int) : Bool :=
  let n := valueOf 10 digits
  let size := (digits.dropWhile (· = 0)).length + exponent
  let limit := Nat.pow 2 1024 - Nat.pow 2 970
  if n = 0 || size < 300 then false
  else if 310 < size then true
  else if 0 ≤ exponent then limit ≤ n * Nat.pow 10 exponent.toNat
  else limit * Nat.pow 10 (-exponent).toNat ≤ n

def exponent (cs : List Char) : Option (Int × List Char) := do
  let (negative, cs) := sign cs
  let (ds, rest) ← digits 10 cs
  let n : Int := valueOf 10 ds
  some (if negative then -n else n, rest)

def fraction : List Char → Option (List Nat × Int × List Char)
  | '.' :: cs => do
    let (ds, rest) ← digits 10 cs
    match rest with
    | 'e' :: more | 'E' :: more =>
      let (e, rest) ← exponent more
      some (ds, e, rest)
    | _ => some (ds, 0, rest)
  | 'e' :: cs | 'E' :: cs => do
    let (e, rest) ← exponent cs
    some ([], e, rest)
  | _ => none

/-- Reads a number with a fraction or an exponent, and gives what follows it. One beyond the largest
number is refused, but not its negative. -/
def decimal (cs : List Char) : Option (List Char) := do
  let (negative, cs) := sign cs
  let (whole, rest) ← decimalDigits cs
  let (part, e, rest) ← fraction rest
  if !negative && isHuge (whole ++ part) (e - part.length) then none else some rest

def special (cs : List Char) : Option (List Char) :=
  match (sign cs).2 with
  | 'i' :: 'n' :: 'f' :: rest => some rest
  | 'n' :: 'a' :: 'n' :: rest => some rest
  | _ => none

def real (cs : List Char) : Option (List Char) := decimal cs <|> special cs

end MessagingIdentity.Toml
