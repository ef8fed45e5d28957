import MessagingIdentity.CommandLine.Command
import MessagingIdentity.CommandLine.Level

namespace MessagingIdentity.Arguments

def directoryOption : String := "config-path"

def seedOption : String := "seed"
def typeOption : String := "meta-type"
def networkOption : String := "network"
def algorithmOption : String := "algorithm"
def logLevelOption : String := "log-level"
def terminalOption : String := "terminal"
def publicKeyOption : String := "public-key"
def secretFlag : String := "private"
def showMetaFlag : String := "show-meta"
def helpName : String := "help"

def shared : List (String × ValueKind) := [(directoryOption, .path)]

def metaOptions : List (String × ValueKind) :=
  [(seedOption, .text), (typeOption, .text), (networkOption, .byte)]

def group (children : List String) : Level := ⟨[], shared, 0, children⟩

def leaf (flags : List String) (options : List (String × ValueKind)) (operands : Nat) : Level :=
  ⟨flags, shared ++ options, operands, []⟩

def children : List String → List String
  | [] => ["init", "key", "address", "id", "sign", "verify", "version", helpName]
  | ["key"] => ["generate", "show", helpName]
  | ["id"] => ["generate", "parse", helpName]
  | _ => []

def leads (path : List String) : List String → Bool
  | [] => true
  | n :: rest => (children path).contains n && leads (path ++ [n]) rest

def readLeaf (l : Level) (make : Matches → Command) (args : List String) :
    Except Refusal Invocation := do
  let (r, _) ← Reader.start.run l args
  let r ← r.settle l
  if r.settled.operands.length = l.operands then
    .ok ⟨make r.settled, r.settled.value? directoryOption⟩
  else .error .usage

def readGroup (path : List String) (child : String → List String → Except Refusal Invocation)
    (args : List String) : Except Refusal Invocation := do
  let l := group (children path)
  match ← Reader.start.run l args with
  | (_, none) => .error .usage
  | (r, some (name, rest)) =>
    if name = helpName then .error (if leads path rest then .help else .usage)
    else
      let i ← child name rest
      let r ← r.settle l
      .ok { i with directory := i.directory <|> r.settled.value? directoryOption }

def metaOptionsOf (m : Matches) : MetaOptions :=
  ⟨m.value? seedOption, m.value? typeOption, m.byte? networkOption⟩

def configurationOf (m : Matches) : Configuration :=
  let d := Configuration.default
  ⟨m.valueOr algorithmOption d.algorithm, m.valueOr typeOption d.metaType,
    ⟨(m.byte? networkOption).getD d.network.byte⟩, m.valueOr logLevelOption d.logLevel⟩

def readKey (name : String) : List String → Except Refusal Invocation :=
  if name = "generate" then
    readLeaf (leaf [] [(algorithmOption, .text)] 0) fun m ↦
      .generateKey (m.valueOr algorithmOption Configuration.default.algorithm)
  else
    readLeaf (leaf [secretFlag] [] 0) fun m ↦ .showKey (m.has secretFlag)

def readIdentifier (name : String) : List String → Except Refusal Invocation :=
  if name = "generate" then
    readLeaf (leaf [] (metaOptions ++ [(terminalOption, .text)]) 0) fun m ↦
      .generateIdentifier (metaOptionsOf m) (m.value? terminalOption)
  else
    readLeaf (leaf [] [] 1) fun m ↦ .parseIdentifier (m.operand 0)

def readTop (name : String) : List String → Except Refusal Invocation :=
  match name with
  | "init" =>
    readLeaf
      (leaf []
        [(algorithmOption, .text), (typeOption, .text), (networkOption, .byte),
          (logLevelOption, .text)] 0)
      fun m ↦ .init (configurationOf m)
  | "key" => readGroup ["key"] readKey
  | "address" =>
    readLeaf (leaf [showMetaFlag] metaOptions 0) fun m ↦
      .address (metaOptionsOf m) (m.has showMetaFlag)
  | "id" => readGroup ["id"] readIdentifier
  | "sign" => readLeaf (leaf [] [] 1) fun m ↦ .sign (m.operand 0)
  | "verify" =>
    readLeaf (leaf [] [(publicKeyOption, .text)] 2) fun m ↦
      .verify (m.operand 0) (m.operand 1) (m.value? publicKeyOption)
  | _ => readLeaf (leaf [] [] 0) fun _ ↦ .version

def parse (args : List String) : Except Refusal Invocation := readGroup [] readTop args

end MessagingIdentity.Arguments
