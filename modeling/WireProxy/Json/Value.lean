import WireProxy.Text.Numeral

/-!
# JSON values

A value that is exchanged, and the readers from which the shapes of the domain are put together.
A record is an object, where fields that it does not name are ignored, or an array of the values of
its fields, where there may be no further ones.
-/

namespace WireProxy

inductive Json where
  | null
  | bool (value : Bool)
  /-- A mantissa over a power of ten; the exponent is zero exactly for integers. -/
  | number (mantissa : Int) (exponent : Nat)
  | string (value : String)
  | array (items : List Json)
  | object (fields : List (String × Json))
  deriving Inhabited

namespace Json

def nat (n : Nat) : Json := number n 0

def word (n : UInt32) : Json := nat n.toNat

def strings (values : List String) : Json := array (values.map string)

def orNull {α : Type} (encode : α → Json) : Option α → Json
  | some value => encode value
  | none => null

def optionalField {α : Type} (name : String) (encode : α → Json) :
    Option α → List (String × Json)
  | some value => [(name, encode value)]
  | none => []

def field? (name : String) : Json → Option Json
  | object fields => fields.lookup name
  | _ => none

def string? : Json → Option String
  | string value => some value
  | _ => none

/-- The name of a choice: a string, or an object with this one field and null in it. -/
def choice? : Json → Option String
  | string name => some name
  | object [(name, null)] => some name
  | _ => none

def bool? : Json → Option Bool
  | bool value => some value
  | _ => none

def nat? : Json → Option Nat
  | number (.ofNat n) 0 => some n
  | _ => none

def word? (j : Json) : Option UInt32 :=
  j.nat?.bind Text.word?

def list? {α : Type} (decode : Json → Option α) : Json → Option (List α)
  | array items => items.mapM decode
  | _ => none

/-- A record with its fields by name.  An array gives their values in order; those of the fields in
`others` may be left out from its end. -/
def record (names others : List String) : Json → Json
  | array items =>
      if names.length ≤ items.length ∧ items.length ≤ (names ++ others).length then
        object ((names ++ others).zip items)
      else array items
  | j => j

def record? {α : Type} (names others : List String) (decode : Json → Option α) (j : Json) :
    Option α :=
  decode (j.record names others)

def required? {α : Type} (decode : Json → Option α) (name : String) (j : Json) : Option α :=
  (j.field? name).bind decode

/-- A field that may be absent or null. -/
def optional? {α : Type} (decode : Json → Option α) (name : String) (j : Json) :
    Option (Option α) :=
  match j.field? name with
  | none | some null => some none
  | some value => (decode value).map some

/-- A field that may be absent, but not null. -/
def defaulted? {α : Type} (default : α) (decode : Json → Option α) (name : String) (j : Json) :
    Option α :=
  match j.field? name with
  | none => some default
  | some value => decode value

end Json

end WireProxy
