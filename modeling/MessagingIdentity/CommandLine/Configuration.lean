import MessagingIdentity.Meta.Scheme
import MessagingIdentity.Address.EntityType
import MessagingIdentity.Text.Decimal
import MessagingIdentity.Toml.Parser
import MessagingIdentity.Toml.Printer

namespace MessagingIdentity

structure Configuration where
  algorithm : String
  metaType : String
  network : EntityType
  logLevel : String
deriving DecidableEq

namespace Configuration

def default : Configuration := ⟨"ECC", "1", .user, "info"⟩

def algorithmName : String := "algorithm"
def metaTypeName : String := "meta_type"
def networkName : String := "network"
def logLevelName : String := "log_level"

def textLine (name value : String) : List Char :=
  name.toList ++ " = ".toList ++ Toml.written value.toList ++ ['\n']

def numberLine (name : String) (value : Nat) : List Char :=
  name.toList ++ " = ".toList ++ Nat.toDigits 10 value ++ ['\n']

def print (c : Configuration) : String :=
  String.ofList (textLine algorithmName c.algorithm ++ textLine metaTypeName c.metaType ++
    numberLine networkName c.network.byte.toNat ++ textLine logLevelName c.logLevel)

def textOf (name default : String) (t : Toml.Entries) : Option String :=
  match t.lookup name with
  | none => some default
  | some (.text s) => some s
  | some _ => none

def byteOf (name : String) (default : UInt8) (t : Toml.Entries) : Option UInt8 :=
  match t.lookup name with
  | none => some default
  | some (.integer i) => if 0 ≤ i ∧ i < 256 then some i.toNat.toUInt8 else none
  | some _ => none

/-- Reads a configuration. What has another name is passed over. -/
def parse (s : String) : Option Configuration := do
  let t ← Toml.parse s
  let algorithm ← textOf algorithmName default.algorithm t
  let metaType ← textOf metaTypeName default.metaType t
  let network ← byteOf networkName default.network.byte t
  let logLevel ← textOf logLevelName default.logLevel t
  some ⟨algorithm, metaType, ⟨network⟩, logLevel⟩

end Configuration

inductive LogLevel where
  | error
  | warning
  | info
  | debug
  | trace
deriving DecidableEq

namespace LogLevel

def names : List (String × LogLevel) :=
  [("error", error), ("warn", warning), ("info", info), ("debug", debug), ("trace", trace)]

def parse? (s : String) : Option LogLevel :=
  let numbered := (Text.natural? 64 s).bind fun n ↦
    if n = 0 then none else (names.map Prod.snd)[n - 1]?
  numbered <|> names.lookup (String.ofList (s.toList.map Char.toLower))

end LogLevel

end MessagingIdentity
