namespace MessagingIdentity.Toml

/-- What a table was first named by: a header of its own, a header of a table inside it, a dotted
key, or braces. Only some of these may be extended later. -/
inductive Origin where
  | header
  | path
  | dotted
  | braces
deriving DecidableEq

/-- A value. Numbers with a fraction or exponent, dates and times are kept as they are written. -/
inductive Value where
  | text (s : String)
  | integer (i : Int)
  | real (written : String)
  | boolean (b : Bool)
  | moment (written : String)
  | array (items : List Value)
  | table (origin : Origin) (entries : List (String × Value))
  | tables (elements : List (List (String × Value)))

abbrev Entries := List (String × Value)

structure Key where
  parents : List String
  last : String

inductive Statement where
  | assignment (key : Key) (value : Value)
  | header (key : Key)
  | element (key : Key)

end MessagingIdentity.Toml
