/-!
# Numerals

Digits in a base, their value, and the 32-bit words that are written in decimal.
-/

namespace WireProxy.Text

def digitValue? (c : Char) : Option Nat :=
  if '0' ≤ c ∧ c ≤ '9' then some (c.toNat - '0'.toNat)
  else if 'a' ≤ c ∧ c ≤ 'f' then some (c.toNat - 'a'.toNat + 10)
  else if 'A' ≤ c ∧ c ≤ 'F' then some (c.toNat - 'A'.toNat + 10)
  else none

def digit? (base : Nat) (c : Char) : Option Nat :=
  (digitValue? c).filter (· < base)

/-- The value of digits in `base`, starting from the value `acc` of those already read. -/
def digitsValue? (base : Nat) : Nat → List Char → Option Nat
  | acc, [] => some acc
  | acc, c :: rest => do
      let d ← digit? base c
      digitsValue? base (base * acc + d) rest

def numeral? (base : Nat) (cs : List Char) : Option Nat :=
  if cs.isEmpty then none else digitsValue? base 0 cs

def wordLimit : Nat := 4294967296

def word? (n : Nat) : Option UInt32 :=
  if n < wordLimit then some (UInt32.ofNat n) else none

/-- A 32-bit word written in decimal, with at most one `+` before it. -/
def readWord? (cs : List Char) : Option UInt32 :=
  let digits := match cs with
    | '+' :: rest => rest
    | _ => cs
  (numeral? 10 digits).bind word?

end WireProxy.Text
