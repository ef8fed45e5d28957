namespace MessagingIdentity

/-- Sets the value of a key: in its place, or behind all entries if it is new. -/
def assign {κ ν : Type} [DecidableEq κ] (key : κ) (value : ν) : List (κ × ν) → List (κ × ν)
  | [] => [(key, value)]
  | (k, v) :: rest => if key = k then (key, value) :: rest else (k, v) :: assign key value rest

end MessagingIdentity
