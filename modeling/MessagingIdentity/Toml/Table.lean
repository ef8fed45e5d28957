import MessagingIdentity.Association
import MessagingIdentity.Toml.Value

namespace MessagingIdentity.Toml

/-- Changes the table at the end of a path from a table of the given origin. Tables that are missing
are made. Of an array of tables the last is meant. -/
def change (f : Origin → Entries → Option Entries) (dotted : Bool) (here : Origin) :
    List String → Entries → Option Entries
  | [], t => f here t
  | name :: path, t =>
    let made : Origin := if dotted then .dotted else .path
    match t.lookup name with
    | none => (change f dotted made path []).map fun u ↦ assign name (.table made u) t
    | some (.table origin u) =>
      if origin = .braces || (dotted && origin = .header) then none
      else (change f dotted origin path u).map fun u ↦ assign name (.table origin u) t
    | some (.tables elements) =>
      match elements.getLast? with
      | none => none
      | some u =>
        (change f dotted .header path u).map fun u ↦
          assign name (.tables (elements.dropLast ++ [u])) t
    | some _ => none

def setKey (key : Key) (value : Value) (here : Origin) (t : Entries) : Option Entries :=
  change
    (fun origin u ↦
      if (key.parents.isEmpty || origin = .dotted) && (u.lookup key.last).isNone then
        some (assign key.last value u)
      else none)
    true here key.parents t

def openTable (key : Key) (root : Entries) : Option Entries :=
  change
    (fun _ t ↦
      match t.lookup key.last with
      | none => some (assign key.last (.table .header []) t)
      | some (.table .path u) => some (assign key.last (.table .header u) t)
      | some _ => none)
    false .header key.parents root

def openElement (key : Key) (root : Entries) : Option Entries :=
  change
    (fun _ t ↦
      match t.lookup key.last with
      | none => some (assign key.last (.tables [[]]) t)
      | some (.tables elements) => some (assign key.last (.tables (elements ++ [[]])) t)
      | some _ => none)
    false .header key.parents root

def tableOf (pairs : List (Key × Value)) : Option Value :=
  (pairs.foldlM (fun t (key, value) ↦ setKey key value .braces t) []).map (.table .braces)

structure Document where
  root : Entries
  current : List String

namespace Document

def add (d : Document) : Statement → Option Document
  | .assignment key value =>
    (change (setKey key value) false .header d.current d.root).map fun root ↦ { d with root }
  | .header key => (openTable key d.root).map fun root ↦ ⟨root, key.parents ++ [key.last]⟩
  | .element key => (openElement key d.root).map fun root ↦ ⟨root, key.parents ++ [key.last]⟩

def ofStatements (statements : List Statement) : Option Entries :=
  (statements.foldlM add ⟨[], []⟩).map root

end Document

end MessagingIdentity.Toml
