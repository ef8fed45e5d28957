import MessagingIdentity.Toml.Number

namespace MessagingIdentity.Toml

def isPlain (c : Char) : Bool := c == '\t' || (' ' ≤ c && c != '\x7f')

def isBlank (c : Char) : Bool := c == ' ' || c == '\t'

def escapes : List (Char × Char) :=
  [('b', '\x08'), ('t', '\t'), ('n', '\n'), ('f', '\x0c'), ('r', '\r'), ('"', '"'), ('\\', '\\')]

def characterOf (digits : List Char) : Option Char := do
  let n := valueOf 16 (← digits.mapM (digitValue? 16))
  if n.isValidChar then some (Char.ofNat n) else none

def andThen (c : Char) (r : Option (List Char × List Char)) : Option (List Char × List Char) :=
  r.map fun (body, rest) ↦ (c :: body, rest)

def basicBody : List Char → Option (List Char × List Char)
  | [] => none
  | '"' :: rest => some ([], rest)
  | '\\' :: 'u' :: a :: b :: c :: d :: rest => do
    andThen (← characterOf [a, b, c, d]) (basicBody rest)
  | '\\' :: 'U' :: a :: b :: c :: d :: e :: f :: g :: h :: rest => do
    andThen (← characterOf [a, b, c, d, e, f, g, h]) (basicBody rest)
  | '\\' :: c :: rest => do
    andThen (← escapes.lookup c) (basicBody rest)
  | c :: rest => if isPlain c && c != '\\' then andThen c (basicBody rest) else none

def literalBody : List Char → Option (List Char × List Char)
  | [] => none
  | '\'' :: rest => some ([], rest)
  | c :: rest => if isPlain c then andThen c (literalBody rest) else none

/-- Up to two more of the closing marks, which belong to the text. -/
def lateMarks (mark : Char) : List Char → List Char × List Char
  | [] => ([], [])
  | [c] => if c = mark then ([mark], []) else ([], [c])
  | c :: d :: rest =>
    if c = mark then if d = mark then ([mark, mark], rest) else ([mark], d :: rest)
    else ([], c :: d :: rest)

def endsLine (cs : List Char) : Bool :=
  match cs.dropWhile isBlank with
  | '\n' :: _ => true
  | '\r' :: '\n' :: _ => true
  | _ => false

/-- Reads up to three closing quotes. A backslash at the end of a line has the reader skip blanks
and line breaks behind it. -/
def longBasicBody (skipping : Bool) : List Char → Option (List Char × List Char)
  | [] => none
  | '"' :: '"' :: '"' :: rest => some (lateMarks '"' rest)
  | '\r' :: '\n' :: rest =>
    if skipping then longBasicBody true rest else andThen '\n' (longBasicBody false rest)
  | '\\' :: 'u' :: a :: b :: c :: d :: rest => do
    andThen (← characterOf [a, b, c, d]) (longBasicBody false rest)
  | '\\' :: 'U' :: a :: b :: c :: d :: e :: f :: g :: h :: rest => do
    andThen (← characterOf [a, b, c, d, e, f, g, h]) (longBasicBody false rest)
  | '\\' :: c :: rest =>
    match escapes.lookup c with
    | some e => andThen e (longBasicBody false rest)
    | none => if endsLine (c :: rest) then longBasicBody true rest else none
  | c :: rest =>
    if skipping && (isBlank c || c == '\n') then longBasicBody true rest
    else if c == '\n' || (isPlain c && c != '\\') then andThen c (longBasicBody false rest)
    else none

def longLiteralBody : List Char → Option (List Char × List Char)
  | [] => none
  | '\'' :: '\'' :: '\'' :: rest => some (lateMarks '\'' rest)
  | '\r' :: '\n' :: rest => andThen '\n' (longLiteralBody rest)
  | c :: rest => if c == '\n' || isPlain c then andThen c (longLiteralBody rest) else none

def dropLineBreak : List Char → List Char
  | '\n' :: rest => rest
  | '\r' :: '\n' :: rest => rest
  | cs => cs

def text : List Char → Option (List Char × List Char)
  | '"' :: '"' :: '"' :: rest => longBasicBody false (dropLineBreak rest)
  | '"' :: rest => basicBody rest
  | '\'' :: '\'' :: '\'' :: rest => longLiteralBody (dropLineBreak rest)
  | '\'' :: rest => literalBody rest
  | _ => none

end MessagingIdentity.Toml
