import MessagingIdentity.Text.Decimal

namespace MessagingIdentity

inductive Refusal where
  | usage
  | help
deriving DecidableEq

inductive ValueKind where
  | text
  | path
  | byte

namespace ValueKind

def byte? (s : String) : Option UInt8 :=
  (Text.integer? s).bind fun i ↦ if 0 ≤ i ∧ i < 256 then some i.toNat.toUInt8 else none

def admits : ValueKind → String → Bool
  | text, _ => true
  | path, s => s ≠ ""
  | byte, s => (byte? s).isSome

end ValueKind

structure Level where
  flags : List String
  options : List (String × ValueKind)
  operands : Nat
  children : List String

structure Matches where
  flags : List String
  values : List (String × String)
  operands : List String

namespace Matches

def empty : Matches := ⟨[], [], []⟩

def has (m : Matches) (flag : String) : Bool := m.flags.contains flag

def value? (m : Matches) (option : String) : Option String := m.values.lookup option

def valueOr (m : Matches) (option default : String) : String := (m.value? option).getD default

def byte? (m : Matches) (option : String) : Option UInt8 := (m.value? option).bind ValueKind.byte?

def operand (m : Matches) (i : Nat) : String := m.operands.getD i ""

end Matches

/-- The state of a reader: what has been settled, an option that has not, perhaps with its value,
and whether only operands may follow. A value is not looked at before something follows it; what is
wrong with it then counts as found there. -/
structure Reader where
  settled : Matches
  pending : Option (String × Option String)
  onlyOperands : Bool

namespace Reader

def start : Reader := ⟨.empty, none, false⟩

def awaitsValue (r : Reader) : Bool :=
  match r.pending with
  | some (_, none) => true
  | _ => false

def take (l : Level) (r : Reader) (option value : String) : Except Refusal Reader :=
  let m := r.settled
  let admitted := match l.options.lookup option with
    | some kind => kind.admits value
    | none => false
  if (m.value? option).isNone && admitted then
    .ok ⟨{ m with values := (option, value) :: m.values }, none, r.onlyOperands⟩
  else .error .usage

def settle (l : Level) (r : Reader) : Except Refusal Reader :=
  match r.pending with
  | none => .ok r
  | some (_, none) => .error .usage
  | some (option, some value) => r.take l option value

def operand (l : Level) (r : Reader) (s : String) : Except Refusal Reader := do
  let r ← r.settle l
  let m := r.settled
  if m.operands.length < l.operands then
    .ok { r with settled := { m with operands := m.operands ++ [s] } }
  else .error .usage

def help (l : Level) (r : Reader) : Except Refusal Reader := do
  let _ ← r.settle l
  .error .help

def long (l : Level) (r : Reader) (name : String) (attached : Option String) :
    Except Refusal Reader := do
  if name = "help" then
    match attached with
    | some _ => .error .usage
    | none => r.help l
  else if l.flags.contains name then
    let r ← r.settle l
    if attached.isSome || r.settled.has name then .error .usage
    else .ok { r with settled := { r.settled with flags := name :: r.settled.flags } }
  else if (l.options.lookup name).isSome then
    let r ← r.settle l
    match attached with
    | some value => r.take l name value
    | none => .ok { r with pending := some (name, none) }
  else .error .usage

def splitLong (cs : List Char) : String × Option String :=
  let name := String.ofList (cs.takeWhile (· ≠ '='))
  match cs.dropWhile (· ≠ '=') with
  | [] => (name, none)
  | _ :: value => (name, some (String.ofList value))

def step (l : Level) (r : Reader) (arg : String) : Except Refusal Reader :=
  if r.onlyOperands then r.operand l arg
  else
    match arg.toList with
    | ['-', '-'] => .ok { r with onlyOperands := true }
    | '-' :: '-' :: cs =>
      let (name, attached) := splitLong cs
      r.long l name attached
    | '-' :: 'h' :: _ => r.help l
    | '-' :: _ :: _ => .error .usage
    | _ =>
      match r.pending with
      | some (option, none) => .ok { r with pending := some (option, some arg) }
      | _ => r.operand l arg

def run (l : Level) (r : Reader) :
    List String → Except Refusal (Reader × Option (String × List String))
  | [] => .ok (r, none)
  | arg :: rest =>
    if !r.onlyOperands && !r.awaitsValue && l.children.contains arg then .ok (r, some (arg, rest))
    else do
      let r ← r.step l arg
      r.run l rest

end Reader

end MessagingIdentity
