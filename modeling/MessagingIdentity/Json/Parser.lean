import MessagingIdentity.Json.Basic

namespace MessagingIdentity.Json.Parser

def isBlank (c : Char) : Bool := c = ' ' || c = '\n' || c = '\t' || c = '\r'

def skipBlanks (cs : List Char) : List Char := cs.dropWhile isBlank

def hexValue (c : Char) : Option Nat :=
  if c.isDigit then some (c.toNat - '0'.toNat)
  else if 'a' ≤ c ∧ c ≤ 'f' then some (c.toNat - 'a'.toNat + 10)
  else if 'A' ≤ c ∧ c ≤ 'F' then some (c.toNat - 'A'.toNat + 10)
  else none

def hexUnit (a b c d : Char) : Option Nat := do
  return (((← hexValue a) * 16 + (← hexValue b)) * 16 + (← hexValue c)) * 16 + (← hexValue d)

def simpleEscape (c : Char) : Option Char :=
  if c = '"' ∨ c = '\\' ∨ c = '/' then some c
  else if c = 'b' then some '\x08'
  else if c = 'f' then some '\x0c'
  else if c = 'n' then some '\n'
  else if c = 'r' then some '\r'
  else if c = 't' then some '\t'
  else none

/-- A text after its opening quote, and what follows the closing one. A character beyond the basic
plane is escaped as two surrogates, the high one first. -/
def textBody : List Char → Option (List Char × List Char)
  | [] => none
  | '"' :: rest => some ([], rest)
  | '\\' :: 'u' :: a :: b :: c :: d :: rest => do
    let u ← hexUnit a b c d
    if 0xd800 ≤ u ∧ u < 0xdc00 then
      match rest with
      | '\\' :: 'u' :: a :: b :: c :: d :: rest =>
        let v ← hexUnit a b c d
        if 0xdc00 ≤ v ∧ v < 0xe000 then
          let (cs, after) ← textBody rest
          return (Char.ofNat (0x10000 + (u - 0xd800) * 0x400 + (v - 0xdc00)) :: cs, after)
        else none
      | _ => none
    else if 0xdc00 ≤ u ∧ u < 0xe000 then none
    else
      let (cs, after) ← textBody rest
      return (Char.ofNat u :: cs, after)
  | '\\' :: e :: rest => do
    let c ← simpleEscape e
    let (cs, after) ← textBody rest
    return (c :: cs, after)
  | c :: rest =>
    if c = '\\' ∨ c.toNat < 32 then none
    else do
      let (cs, after) ← textBody rest
      return (c :: cs, after)

def digitsValue (ds : List Char) : Nat := ds.foldl (fun n d ↦ n * 10 + (d.toNat - '0'.toNat)) 0

/-- The longest start of a digit sequence that fits 64 bits, with the value it has, beginning at a
value, and how many digits are left over. -/
def leadingValue : Nat → List Char → Nat × Nat
  | n, [] => (n, 0)
  | n, d :: ds =>
    let m := n * 10 + (d.toNat - '0'.toNat)
    if m < 0x10000000000000000 then leadingValue m ds else (n, (d :: ds).length)

/-- The number with the given digits before and after the point and the given exponent. Digits
beyond 64 bits count only by their place. -/
def realOf (negative : Bool) (whole fraction : List Char) (exponent : Int) : Option Number :=
  let (w, dropped) := leadingValue 0 whole
  if dropped = 0 then
    let (s, left) := leadingValue w fraction
    (Real.ofDecimal negative s (exponent - ((fraction.length : Int) - left))).map .real
  else
    let (s, left) := leadingValue w fraction
    (Real.ofDecimal negative s (exponent + dropped - ((fraction.length : Int) - left))).map .real

/-- An integer, if it fits: up to 64 bits, or 63 bits below zero; negative zero is no integer. -/
def integerOf (negative : Bool) (whole : List Char) : Option Number :=
  let n := digitsValue whole
  if negative then
    if n = 0 then some (.real ⟨true, 0, -1074⟩)
    else if n ≤ 0x8000000000000000 then some (.integer (-n))
    else realOf true whole [] 0
  else if n < 0x10000000000000000 then some (.integer n)
  else realOf false whole [] 0

def exponentPart (cs : List Char) : Option (Option Int × List Char) :=
  match cs with
  | e :: rest =>
    if e = 'e' ∨ e = 'E' then
      let (negative, rest) :=
        match rest with
        | '+' :: rest => (false, rest)
        | '-' :: rest => (true, rest)
        | rest => (false, rest)
      let ds := rest.takeWhile Char.isDigit
      if ds.isEmpty then none
      else
        let n : Int := digitsValue ds
        some (some (if negative then -n else n), rest.dropWhile Char.isDigit)
    else some (none, cs)
  | [] => some (none, [])

def unsigned (negative : Bool) (cs : List Char) : Option (Number × List Char) := do
  let whole := cs.takeWhile Char.isDigit
  let rest := cs.dropWhile Char.isDigit
  if whole.isEmpty ∨ (whole.head? = some '0' ∧ whole.length ≠ 1) then none
  else
    match rest with
    | '.' :: rest =>
      let fraction := rest.takeWhile Char.isDigit
      if fraction.isEmpty then none
      else
        let (exponent, after) ← exponentPart (rest.dropWhile Char.isDigit)
        return (← realOf negative whole fraction (exponent.getD 0), after)
    | rest =>
      match ← exponentPart rest with
      | (some exponent, after) => return (← realOf negative whole [] exponent, after)
      | (none, after) => return (← integerOf negative whole, after)

def word (w : String) (cs : List Char) : Option (List Char) :=
  if w.toList.isPrefixOf cs then some (cs.drop w.length) else none

mutual

/-- A value, and what follows it. Each step takes one unit of fuel; `depth` bounds the nesting. -/
def value : Nat → Nat → List Char → Option (Json × List Char)
  | 0, _, _ => none
  | fuel + 1, depth, cs =>
    match skipBlanks cs with
    | 'n' :: rest => (word "ull" rest).map (null, ·)
    | 't' :: rest => (word "rue" rest).map (bool true, ·)
    | 'f' :: rest => (word "alse" rest).map (bool false, ·)
    | '"' :: rest => (textBody rest).map fun (s, after) ↦ (text (String.ofList s), after)
    | '-' :: rest => (unsigned true rest).map fun (n, after) ↦ (number n, after)
    | '[' :: rest =>
      match depth with
      | 0 => none
      | depth + 1 =>
        match skipBlanks rest with
        | ']' :: after => some (list [], after)
        | rest => (items fuel depth rest).map fun (vs, after) ↦ (list vs, after)
    | '{' :: rest =>
      match depth with
      | 0 => none
      | depth + 1 =>
        match skipBlanks rest with
        | '}' :: after => some (object [], after)
        | rest => (members fuel depth rest).map fun (ms, after) ↦ (ofMembers ms, after)
    | rest => (unsigned false rest).map fun (n, after) ↦ (number n, after)

def items : Nat → Nat → List Char → Option (List Json × List Char)
  | 0, _, _ => none
  | fuel + 1, depth, cs => do
    let (v, rest) ← value fuel depth cs
    match skipBlanks rest with
    | ',' :: rest =>
      let (vs, after) ← items fuel depth rest
      return (v :: vs, after)
    | ']' :: after => return ([v], after)
    | _ => none

def members : Nat → Nat → List Char → Option (List (String × Json) × List Char)
  | 0, _, _ => none
  | fuel + 1, depth, cs =>
    match skipBlanks cs with
    | '"' :: rest => do
      let (k, rest) ← textBody rest
      match skipBlanks rest with
      | ':' :: rest =>
        let (v, rest) ← value fuel depth rest
        match skipBlanks rest with
        | ',' :: rest =>
          let (ms, after) ← members fuel depth rest
          return ((String.ofList k, v) :: ms, after)
        | '}' :: after => return ([(String.ofList k, v)], after)
        | _ => none
      | _ => none
    | _ => none

end

end MessagingIdentity.Json.Parser

namespace MessagingIdentity.Json

def parse (s : String) : Option Json :=
  let cs := s.toList
  match Parser.value (2 * cs.length + 2) 127 cs with
  | some (v, rest) => if (Parser.skipBlanks rest).isEmpty then some v else none
  | none => none

def parseMembers (s : String) : Option Members :=
  match parse s with
  | some (object members) => some members
  | _ => none

end MessagingIdentity.Json
