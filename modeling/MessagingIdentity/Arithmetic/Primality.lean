import MessagingIdentity.Arithmetic.Modular

namespace MessagingIdentity.Primality

def splitTwos : Nat → Nat → Nat × Nat
  | 0, n => (0, n)
  | fuel + 1, n =>
    if n % 2 = 0 then
      let (s, d) := splitTwos fuel (n / 2)
      (s + 1, d)
    else (0, n)

/-- Whether `x`, or one of its first `k` squarings, is `n - 1`. -/
def reachesMinusOne (n : Nat) : Nat → Nat → Bool
  | 0, x => x == n - 1
  | k + 1, x => x == n - 1 || reachesMinusOne n k (x * x % n)

def passes (n a : Nat) : Bool :=
  let (s, d) := splitTwos n.log2 (n - 1)
  let x := Modular.pow a d n
  x == 1 || reachesMinusOne n (s - 1) x

def smallPrimes : List Nat :=
  [3, 5, 7, 11, 13, 17, 19, 23, 29, 31, 37, 41, 43, 47, 53, 59, 61, 67, 71, 73, 79, 83, 89, 97, 101,
   103, 107, 109, 113, 127, 131, 137, 139, 149, 151, 157, 163, 167, 173, 179, 181, 191, 193,
   197, 199]

/-- Whether a large odd number has no small factor and passes the test to twelve bases. -/
def isProbablePrime (n : Nat) : Bool :=
  smallPrimes.all (fun p ↦ n % p ≠ 0) &&
    [2, 3, 5, 7, 11, 13, 17, 19, 23, 29, 31, 37].all (passes n)

def search (accept : Nat → Bool) : Nat → Nat → Option Nat
  | 0, _ => none
  | fuel + 1, n => if isProbablePrime n && accept n then some n else search accept fuel (n + 2)

end MessagingIdentity.Primality
