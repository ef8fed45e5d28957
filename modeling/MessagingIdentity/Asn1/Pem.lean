import MessagingIdentity.Encoding.Base64
import MessagingIdentity.Text.Blank

namespace MessagingIdentity.Pem

def splitAtFirst (marker : List Char) : List Char → Option (List Char × List Char)
  | [] => if marker.isEmpty then some ([], []) else none
  | c :: rest =>
    if marker.isPrefixOf (c :: rest) then some ([], (c :: rest).drop marker.length)
    else (splitAtFirst marker rest).map fun (before, after) ↦ (c :: before, after)

def occurs (marker : List Char) (cs : List Char) : Bool := (splitAtFirst marker cs).isSome

def beginMarker : List Char := "-----BEGIN ".toList
def endMarker : List Char := "-----END ".toList
def dashes : List Char := "-----".toList

def isBlank (c : Char) : Bool := c = ' ' || c = '\t' || c = '\n' || c = '\r'

def dropReturn (line : List Char) : List Char :=
  match line.getLast? with
  | some '\r' => line.dropLast
  | _ => line

def lines (cs : List Char) : List (List Char) :=
  let parts := cs.splitOn '\n'
  match parts.getLast? with
  | some [] => parts.dropLast.map dropReturn
  | _ => parts.map dropReturn

/-- The header lines and the data: the first empty line parts them, if there is one. -/
def splitHeaders (body : List Char) : List Char × List Char :=
  ((splitAtFirst ['\n', '\n'] body).orElse fun _ ↦
    splitAtFirst ['\r', '\n', '\r', '\n'] body).getD ([], body)

def parse (s : String) : Option (String × Bytes) := do
  let (_, rest) ← splitAtFirst beginMarker s.toList
  let (label, rest) ← splitAtFirst dashes rest
  let (body, rest) ← splitAtFirst endMarker (rest.dropWhile isBlank)
  let (endLabel, _) ← splitAtFirst dashes rest
  let (headers, data) := splitHeaders body
  if label.isEmpty ∨ label ≠ endLabel ∨ ¬ (lines headers).all (':' ∈ ·) then none
  else
    let symbols := ((lines data).map Text.trimEndChars).flatten
    match Base64.decode (String.ofList symbols) with
    | .ok content => return (String.ofList label, content)
    | .error _ => none

def lineWidth : Nat := 64

def encode (label : String) (content : Bytes) : String :=
  let line (cs : List Char) : List Char := cs ++ ['\r', '\n']
  let body := (pieces lineWidth (Base64.encode content).toList).flatMap line
  String.ofList (line (beginMarker ++ label.toList ++ dashes) ++ body ++
    line (endMarker ++ label.toList ++ dashes))

end MessagingIdentity.Pem
