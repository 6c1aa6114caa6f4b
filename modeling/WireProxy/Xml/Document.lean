import WireProxy.Xml.Namespace
import WireProxy.Xml.Token

/-!
# Documents

A document is a text declaration, if any, and one root element with white space, comments and
instructions around it.  `Document.root?` gives that element if the text is well formed.
-/

namespace WireProxy.Xml

/-- An element whose end has not come yet; the last child stands first. -/
structure Open where
  name : QName
  attributes : List Attribute
  children : List Node

/-- The open elements, innermost first, and the root once it is complete. -/
structure Builder where
  stack : List Open := []
  root : Option Node := none

namespace Builder

/-- Puts a complete node into the innermost open element.  Outside, an element becomes the root,
which there is only one of, and other nodes are dropped. -/
def place? (b : Builder) (node : Node) : Option Builder :=
  match b.stack with
  | top :: below => some { b with stack := { top with children := node :: top.children } :: below }
  | [] =>
      match node with
      | .element .. => if b.root.isSome then none else some { b with root := some node }
      | _ => some b

def step? (b : Builder) : Token → Option Builder
  | .opening name attributes =>
      if b.stack.isEmpty && b.root.isSome then none
      else some { b with stack := ⟨name, attributes, []⟩ :: b.stack }
  | .empty name attributes => b.place? (.element name attributes [])
  | .closing name =>
      match b.stack with
      | top :: below =>
          if top.name = name then
            place? { b with stack := below } (.element name top.attributes top.children.reverse)
          else none
      | [] => none
  | .text raw =>
      if b.stack.isEmpty then if raw.all isSpace then some b else none
      else (expand? lineEnd raw).bind fun content => b.place? (.text (String.ofList content))
  | .data content => if b.stack.isEmpty then none else b.place? (.text (String.ofList content))
  | .comment content => b.place? (.comment (String.ofList content))
  | .instruction target content =>
      b.place? (.instruction (String.ofList target) (String.ofList content))

def finish? (b : Builder) : Option Node :=
  if b.stack.isEmpty then b.root else none

end Builder

def build? (tokens : List Token) : Option Node :=
  (tokens.foldlM Builder.step? {}).bind Builder.finish?

/-- White space, which may be missing before the end mark of a declaration. -/
def skipGap? (cs : List Char) : Option (List Char) :=
  if cs.head?.any isSpace then some (skipSpaces cs)
  else if "?>".toList.isPrefixOf cs then some cs
  else none

def skipAssignment? (start cs : List Char) : Option (List Char) :=
  if start.isPrefixOf cs then (readAssignment? cs).bind fun (_, rest) => skipGap? rest else none

def skipOptional? (start cs : List Char) : Option (List Char) :=
  if start.isPrefixOf cs then skipAssignment? start cs else some cs

def skipDeclaration? (cs : List Char) : Option (List Char) :=
  match after? "<?xml ".toList cs with
  | none => some cs
  | some rest => do
      let rest ← skipAssignment? "version".toList (skipSpaces rest)
      let rest ← skipOptional? "encoding".toList rest
      let rest ← skipOptional? "standalone".toList rest
      after? "?>".toList rest

def skipMark : List Char → List Char
  | '\ufeff' :: rest => rest
  | cs => cs

def root? (text : String) : Option Element := do
  let rest ← skipDeclaration? (skipMark text.toList)
  let tokens ← readTokens? rest
  let node ← build? tokens
  if node.isBound [] then node.element? else none

end WireProxy.Xml
