import WireProxy.Text.Numeral
import WireProxy.Xml.Character

/-!
# References

Character data is written with references for characters that cannot stand for themselves.
`expand?` gives the characters that are meant.
-/

namespace WireProxy.Xml

/-- The character with a code point, or U+FFFD where there is none. -/
def charOfCode (code : Nat) : Char :=
  if code.isValidChar then Char.ofNat code else '\ufffd'

def referencedChar? (code : Nat) : Option Char :=
  if code < Text.wordLimit ∧ isAllowed (charOfCode code) then some (charOfCode code) else none

def reference? (body : List Char) : Option Char :=
  match body with
  | '#' :: 'x' :: digits => (Text.numeral? 16 digits).bind referencedChar?
  | '#' :: digits => (Text.numeral? 10 digits).bind referencedChar?
  | _ =>
      if body = "quot".toList then some '"'
      else if body = "amp".toList then some '&'
      else if body = "apos".toList then some '\''
      else if body = "lt".toList then some '<'
      else if body = "gt".toList then some '>'
      else none

abbrev Normal := Char → Char

def lineEnd : Normal
  | '\r' => '\n'
  | c => c

def spaced : Normal
  | '\r' | '\n' | '\t' => ' '
  | c => c

/--
The characters meant by literal characters and references.  A carriage return and line feed are
read as one literal line feed.  The first argument holds, last character first, the reference that
is being read.
-/
def expandFrom? (normal : Normal) : Option (List Char) → List Char → Option (List Char)
  | none, [] => some []
  | some _, [] => none
  | none, '&' :: rest => expandFrom? normal (some []) rest
  | none, '\r' :: '\n' :: rest => (expandFrom? normal none rest).map (normal '\n' :: ·)
  | none, c :: rest => (expandFrom? normal none rest).map (normal c :: ·)
  | some body, ';' :: rest => do
      let c ← reference? body.reverse
      (expandFrom? normal none rest).map (c :: ·)
  | some body, c :: rest => expandFrom? normal (some (c :: body)) rest

def expand? (normal : Normal) (cs : List Char) : Option (List Char) :=
  expandFrom? normal none cs

end WireProxy.Xml
