import MessagingIdentity.Toml.Moment
import MessagingIdentity.Toml.Table
import MessagingIdentity.Toml.Text

namespace MessagingIdentity.Toml

def skipBlanks (cs : List Char) : List Char := cs.dropWhile isBlank

/-- How deep values may be nested, and how many names a key may have. -/
def depthLimit : Nat := 79

def endOfLine (cs : List Char) : Option (List Char) :=
  let cs := match skipBlanks cs with
    | '#' :: rest => rest.dropWhile isPlain
    | cs => cs
  match cs with
  | [] => some []
  | '\n' :: rest => some rest
  | '\r' :: '\n' :: rest => some rest
  | _ => none

def skipGap (comment : Bool) : List Char → Option (List Char)
  | [] => some []
  | '\r' :: '\n' :: rest => skipGap false rest
  | c :: rest =>
    if c = '\n' then skipGap false rest
    else if comment then if isPlain c then skipGap true rest else none
    else if isBlank c then skipGap false rest
    else if c = '#' then skipGap true rest
    else some (c :: rest)

def isBare (c : Char) : Bool := c.isAlphanum || c == '_' || c == '-'

def name (cs : List Char) : Option (String × List Char) :=
  match cs with
  | '"' :: rest => (basicBody rest).map fun (n, rest) ↦ (String.ofList n, rest)
  | '\'' :: rest => (literalBody rest).map fun (n, rest) ↦ (String.ofList n, rest)
  | _ =>
    let bare := cs.takeWhile isBare
    if bare.isEmpty then none else some (String.ofList bare, cs.dropWhile isBare)

def names : Nat → List Char → Option (List String × List Char)
  | 0, _ => none
  | fuel + 1, cs => do
    let (n, rest) ← name (skipBlanks cs)
    match skipBlanks rest with
    | '.' :: more =>
      let (ns, rest) ← names fuel more
      some (n :: ns, rest)
    | rest => some ([n], rest)

def key (cs : List Char) : Option (Key × List Char) := do
  let (ns, rest) ← names (depthLimit + 1) cs
  if depthLimit < ns.length then none
  else some (⟨ns.dropLast, ns.getLast?.getD ""⟩, rest)

def figure (cs : List Char) : Option (Value × List Char) :=
  let written (rest : List Char) : String := String.ofList (cs.take (cs.length - rest.length))
  match moment cs with
  | some rest => some (.moment (written rest), rest)
  | none =>
    match real cs with
    | some rest => some (.real (written rest), rest)
    | none => (integer cs).map fun (i, rest) ↦ (.integer i, rest)

mutual

def value : Nat → Nat → List Char → Option (Value × List Char)
  | 0, _, _ => none
  | fuel + 1, depth, cs =>
    match cs with
    | '[' :: rest =>
      match depth with
      | 0 => none
      | depth + 1 => (items fuel depth rest).map fun (vs, rest) ↦ (.array vs, rest)
    | '\x7b' :: rest =>
      match depth with
      | 0 => none
      | depth + 1 => do
        match skipBlanks rest with
        | '\x7d' :: rest => some (.table .braces [], rest)
        | rest =>
          let (ps, rest) ← pairs fuel depth rest
          some (← tableOf ps, rest)
    | 't' :: 'r' :: 'u' :: 'e' :: rest => some (.boolean true, rest)
    | 'f' :: 'a' :: 'l' :: 's' :: 'e' :: rest => some (.boolean false, rest)
    | '"' :: _ | '\'' :: _ => (text cs).map fun (s, rest) ↦ (.text (String.ofList s), rest)
    | _ => figure cs

def items : Nat → Nat → List Char → Option (List Value × List Char)
  | 0, _, _ => none
  | fuel + 1, depth, cs => do
    match ← skipGap false cs with
    | ']' :: rest => some ([], rest)
    | cs =>
      let (v, rest) ← value fuel depth cs
      match ← skipGap false rest with
      | ',' :: rest =>
        let (vs, rest) ← items fuel depth rest
        some (v :: vs, rest)
      | ']' :: rest => some ([v], rest)
      | _ => none

def pairs : Nat → Nat → List Char → Option (List (Key × Value) × List Char)
  | 0, _, _ => none
  | fuel + 1, depth, cs => do
    let (k, rest) ← key cs
    let (v, rest) ← value fuel depth (skipBlanks (← behind '=' rest))
    match skipBlanks rest with
    | ',' :: rest =>
      let (ps, rest) ← pairs fuel depth rest
      some ((k, v) :: ps, rest)
    | '\x7d' :: rest => some ([(k, v)], rest)
    | _ => none

end

def statement (cs : List Char) : Option (Statement × List Char) :=
  match cs with
  | '[' :: '[' :: rest => do
    let (k, rest) ← key rest
    some (.element k, ← behind ']' (← behind ']' rest))
  | '[' :: rest => do
    let (k, rest) ← key rest
    some (.header k, ← behind ']' rest)
  | _ => do
    let (k, rest) ← key cs
    let cs := skipBlanks (← behind '=' rest)
    let (v, rest) ← value (cs.length + 1) depthLimit cs
    some (.assignment k v, rest)

def statements : Nat → List Char → Option (List Statement)
  | 0, _ => none
  | fuel + 1, cs =>
    match skipBlanks cs with
    | [] => some []
    | '#' :: rest => do statements fuel (← endOfLine ('#' :: rest))
    | '\n' :: rest => statements fuel rest
    | '\r' :: '\n' :: rest => statements fuel rest
    | cs => do
      let (s, rest) ← statement cs
      let more ← statements fuel (← endOfLine rest)
      some (s :: more)

def parse (s : String) : Option Entries := do
  let cs := match s.toList with
    | '\ufeff' :: cs => cs
    | cs => cs
  Document.ofStatements (← statements (cs.length + 1) cs)

end MessagingIdentity.Toml
