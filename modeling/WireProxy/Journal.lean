import WireProxy.Text.Invisible

/-!
# The journal

What a run reports while it works: entries with a level, the part of the program that speaks, a
message and named values.
-/

namespace WireProxy

inductive Level where
  | trace
  | debug
  | info
  | warn
  deriving DecidableEq, Repr, Inhabited

def Level.label : Level → String
  | trace => "TRACE"
  | debug => "DEBUG"
  | info => "INFO"
  | warn => "WARN"

/-- Shown on the terminal unless more is asked for. -/
def Level.isShown : Level → Bool
  | info | warn => true
  | trace | debug => false

inductive Part where
  | loading
  | access
  | lowering
  | generation
  | commandLine
  deriving DecidableEq, Repr, Inhabited

def Part.label : Part → String
  | loading => "waygen_core::loader"
  | access => "waygen_core::visibility"
  | lowering => "waygen_core::emit"
  | generation => "waygen_core::driver"
  | commandLine => "waygen"

inductive FieldValue where
  | number (value : Nat)
  /-- Text that is shown as it is. -/
  | plain (value : String)
  /-- Text that is shown in quotes. -/
  | quoted (value : String)
  deriving DecidableEq, Repr, Inhabited

structure Entry where
  level : Level
  part : Part
  message : String
  fields : List (String × FieldValue) := []
  deriving DecidableEq, Repr, Inhabited

abbrev Journal := List Entry

def codeEscape (c : Char) : List Char :=
  ['\\', 'u', '{'] ++ Nat.toDigits 16 c.toNat ++ ['}']

def quotedChar (c : Char) : List Char :=
  if c = '"' then ['\\', '"']
  else if c = '\\' then ['\\', '\\']
  else if c = '\n' then ['\\', 'n']
  else if c = '\r' then ['\\', 'r']
  else if c = '\t' then ['\\', 't']
  else if c = '\x00' then ['\\', '0']
  else if Text.isInvisible c then codeEscape c
  else [c]

def quote (s : String) : String :=
  String.ofList ('"' :: s.toList.flatMap quotedChar ++ ['"'])

/-- A character of a message.  Those that a terminal may take for a command are escaped. -/
def messageChar (c : Char) : List Char :=
  if c = '\x1b' then "\\x1b".toList
  else if c = '\x07' then "\\x07".toList
  else if c = '\x08' then "\\x08".toList
  else if c = '\x0c' then "\\x0c".toList
  else if c = '\x7f' then "\\x7f".toList
  else if 0x80 ≤ c.toNat ∧ c.toNat ≤ 0x9f then codeEscape c
  else [c]

def Entry.messageText (e : Entry) : String :=
  String.ofList (e.message.toList.flatMap messageChar)

def FieldValue.text : FieldValue → String
  | number value => toString value
  | plain value => value
  | quoted value => quote value

def Entry.line (e : Entry) : String :=
  e.fields.foldl (fun line (name, value) => line ++ " " ++ name ++ "=" ++ value.text)
    (e.level.label ++ " " ++ e.part.label ++ ": " ++ e.messageText)

def Journal.lines (journal : Journal) : List String :=
  (journal.filter (·.level.isShown)).map Entry.line

end WireProxy
