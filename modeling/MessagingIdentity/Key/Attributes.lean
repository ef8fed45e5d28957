import MessagingIdentity.Json.Basic
import MessagingIdentity.Key.Error
import MessagingIdentity.Text.Blank
import MessagingIdentity.Text.Decimal

namespace MessagingIdentity

namespace Field

def algorithm : String := "algorithm"
def data : String := "data"
def mode : String := "mode"
def padding : String := "padding"
def digest : String := "digest"
def curve : String := "curve"
def keySize : String := "keySize"
def iv : String := "IV"
def ivLower : String := "iv"

end Field

namespace Transport

/-- The part of a text behind its last comma, or all of it, without white space around it. -/
def payload (s : String) : String :=
  String.ofList (Text.trimChars (s.toList.reverse.takeWhile (· ≠ ',')).reverse)

def decode (s : String) : Except KeyError Bytes :=
  (Base64.decode (payload s)).mapError fun e ↦ .invalidData (.base64 e)

end Transport

namespace Json.Members

def algorithm (m : Members) : Except KeyError String :=
  match m.text? Field.algorithm with
  | some tag => .ok tag
  | none => .error (.missingField Field.algorithm)

/-- A number of 64 bits that may be written as a number or as a text. Anything else counts as the
default. -/
def natural (name : String) (default : Nat) (m : Members) : Nat :=
  match m.get? name with
  | some (.number (.integer i)) => if 0 ≤ i then i.toNat else default
  | some (.text s) => (Text.natural? 64 (Text.trim s)).getD default
  | _ => default

end Json.Members

structure Attributes where
  members : Json.Members
  algorithm : String
  data : String
  algorithm_eq : members.text? Field.algorithm = some algorithm
  data_eq : members.text? Field.data = some data
  data_ne : data ≠ ""

namespace Attributes

def ofMembers (m : Json.Members) : Except KeyError Attributes :=
  match ha : m.text? Field.algorithm with
  | none => .error (.missingField Field.algorithm)
  | some algorithm =>
    match hd : m.text? Field.data with
    | none => .error (.missingField Field.data)
    | some data =>
      if h : data ≠ "" then .ok ⟨m, algorithm, data, ha, hd, h⟩
      else .error (.missingField Field.data)

end Attributes

end MessagingIdentity
