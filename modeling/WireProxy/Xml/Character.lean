import WireProxy.Text.Ranges

/-!
# Characters of documents

The classes of characters that a document is made of: all that may occur, white space, and those
of names.
-/

namespace WireProxy.Xml

def isAllowed (c : Char) : Bool :=
  c == '\t' || c == '\n' || c == '\r' ||
    (0x20 ≤ c.toNat && c.toNat != 0xfffe && c.toNat != 0xffff)

def isSpace (c : Char) : Bool :=
  c == ' ' || c == '\t' || c == '\n' || c == '\r'

def nameStartRanges : Text.Ranges :=
  [(0x41, 0x5a), (0x5f, 0x5f), (0x61, 0x7a), (0xc0, 0xd6), (0xd8, 0xf6), (0xf8, 0x2ff),
    (0x370, 0x37d), (0x37f, 0x1fff), (0x200c, 0x200d), (0x2070, 0x218f), (0x2c00, 0x2fef),
    (0x3001, 0xd7ff), (0xf900, 0xfdcf), (0xfdf0, 0xfffd), (0x10000, 0xeffff)]

def nameOnlyRanges : Text.Ranges :=
  [(0x2d, 0x2e), (0x30, 0x39), (0xb7, 0xb7), (0x300, 0x36f), (0x203f, 0x2040)]

/-- A character that a name, or either side of its colon, may begin with. -/
def isNameStart (c : Char) : Bool :=
  nameStartRanges.has c

def isNameChar (c : Char) : Bool :=
  isNameStart c || nameOnlyRanges.has c

end WireProxy.Xml
