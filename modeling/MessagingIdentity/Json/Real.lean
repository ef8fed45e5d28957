namespace MessagingIdentity.Json

/-- The number `significand * 2 ^ exponent`, or its negative. The significand is below `2 ^ 53`,
and the exponent is between `-1074` and `971`. -/
structure Real where
  negative : Bool
  significand : Nat
  exponent : Int
deriving DecidableEq

namespace Real

def quotient (m : Nat) (e : Int) : Nat × Nat :=
  if 0 ≤ e then (m * Nat.pow 2 e.toNat, 1) else (m, Nat.pow 2 (-e).toNat)

def exponentOf (num den : Nat) : Int :=
  let e : Int := num.log2 - den.log2 - 52
  let (a, b) := quotient 1 (-e)
  max (if num * a < Nat.pow 2 52 * (den * b) then e - 1 else e) (-1074)

/-- The nearest number to a quotient, ties to the even significand; none if it is too large. -/
def round (negative : Bool) (num den : Nat) : Option Real :=
  if num = 0 then some ⟨negative, 0, -1074⟩
  else
    let e := exponentOf num den
    let (a, b) := quotient 1 (-e)
    let n := num * a
    let d := den * b
    let q := n / d
    let up := d < 2 * (n % d) ∨ (2 * (n % d) = d ∧ q % 2 = 1)
    let m := if up then q + 1 else q
    let (m, e) := if m = Nat.pow 2 53 then (Nat.pow 2 52, e + 1) else (m, e)
    if 971 < e then none else some ⟨negative, m, e⟩

def scale (x : Real) (power : Nat) (up : Bool) : Option Real := do
  let p ← round false (Nat.pow 10 power) 1
  let (xn, xd) := quotient x.significand x.exponent
  let (pn, pd) := quotient p.significand p.exponent
  if up then round x.negative (xn * pn) (xd * pd) else round x.negative (xn * pd) (xd * pn)

def scaleDown (x : Real) : Nat → Nat → Option Real
  | 0, _ => some x
  | fuel + 1, places =>
    if places ≤ 308 then scale x places false
    else if x.significand = 0 then some x
    else do scaleDown (← scale x 308 false) fuel (places - 308)

/-- The number read from a significand and a decimal exponent: the significand is rounded first,
then the power of ten is applied. -/
def ofDecimal (negative : Bool) (significand : Nat) (exponent : Int) : Option Real := do
  let x ← round negative significand 1
  if 0 ≤ exponent then
    if exponent ≤ 308 then scale x exponent.toNat true
    else if x.significand = 0 then some x else none
  else scaleDown x ((-exponent).toNat / 308 + 2) (-exponent).toNat

def digitCount (n : Nat) : Nat := (Nat.toDigits 10 n).length

/-- The decimal exponent `p` with `10 ^ (p - 1) ≤ num / den < 10 ^ p`. -/
def magnitude (num den : Nat) : Int :=
  let p : Int := digitCount num - digitCount den
  let (a, b) := if 0 ≤ p then (1, Nat.pow 10 p.toNat) else (Nat.pow 10 (-p).toNat, 1)
  if num * a < den * b then p else p + 1

def decimalQuotient (c : Nat) (k : Int) : Nat × Nat :=
  if 0 ≤ k then (c * Nat.pow 10 k.toNat, 1) else (c, Nat.pow 10 (-k).toNat)

/-- The decimal with the given exponent nearest to the number, of those that read back as it. -/
def decimalAt (x : Real) (k : Int) : Option Nat :=
  let (num, den) := quotient x.significand x.exponent
  let (a, b) := decimalQuotient 1 (-k)
  let n := num * a
  let d := den * b
  let low := n / d
  let readsBack (c : Nat) : Bool :=
    let (cn, cd) := decimalQuotient c k
    round x.negative cn cd == some x
  let nearest := if 2 * (n % d) ≤ d then [low, low + 1] else [low + 1, low]
  nearest.find? readsBack

/-- The shortest decimal that reads back, as digits and exponent: at `n` digits, with `fuel`
further lengths to try. -/
def shortestFrom (x : Real) (p : Int) : Nat → Nat → Nat × Int
  | 0, n => (0, p - n)
  | fuel + 1, n =>
    match decimalAt x (p - n) with
    | some c => (c, p - n)
    | none => shortestFrom x p fuel (n + 1)

def strip : Nat → Nat × Int → Nat × Int
  | 0, d => d
  | fuel + 1, (c, k) => if c ≠ 0 ∧ c % 10 = 0 then strip fuel (c / 10, k + 1) else (c, k)

def shortest (x : Real) : Nat × Int :=
  let (num, den) := quotient x.significand x.exponent
  strip 20 (shortestFrom x (magnitude num den) 20 1)

/-- The text of digits and exponent: positional from 10⁻⁵ up to 10¹⁶, with a point in any case,
and beyond that one digit, the fraction if any, and the exponent. -/
def decimalText (c : Nat) (k : Int) : List Char :=
  let digits := Nat.toDigits 10 c
  let point : Int := digits.length + k
  let exponent := 'e' :: (toString (point - 1)).toList
  if 0 ≤ k ∧ point ≤ 16 then digits ++ List.replicate k.toNat '0' ++ ['.', '0']
  else if 0 < point ∧ point ≤ 16 then
    digits.take point.toNat ++ '.' :: digits.drop point.toNat
  else if -5 < point ∧ point ≤ 0 then '0' :: '.' :: List.replicate (-point).toNat '0' ++ digits
  else
    match digits with
    | [d] => d :: exponent
    | d :: rest => d :: '.' :: rest ++ exponent
    | [] => exponent

def text (x : Real) : List Char :=
  let body :=
    if x.significand = 0 then ['0', '.', '0']
    else
      let (c, k) := x.shortest
      decimalText c k
  if x.negative then '-' :: body else body

end Real

end MessagingIdentity.Json
