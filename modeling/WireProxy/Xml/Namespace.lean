import WireProxy.Xml.Node

/-!
# Namespaces

A prefix is bound to a namespace by a declaration on the element or around it.  `Node.isBound` says
that all prefixes are bound, that declarations are proper, and that no element has one attribute
twice.
-/

namespace WireProxy.Xml

/-- The bound prefixes with their namespaces, innermost first. -/
abbrev Bindings := List (String × String)

def xmlSpace : String := "http://www.w3.org/XML/1998/namespace"

def declarationSpace : String := "http://www.w3.org/2000/xmlns/"

/-- The prefix that an attribute declares: none inside for the default namespace, which any
attribute with the local name `xmlns` declares. -/
def Attribute.declares? (a : Attribute) : Option (Option String) :=
  if a.name.space = some "xmlns" then some (some a.name.base)
  else if a.name.base = "xmlns" then some none
  else none

/--
The bindings that the declarations of one element make.  `xml` has one namespace and that has no
other prefix, the namespace of declarations has no prefix, and no prefix is declared twice.
-/
def declared? : List Attribute → Option Bindings
  | [] => some []
  | a :: rest => do
      let others ← declared? rest
      match a.declares? with
      | none => return others
      | some none =>
          if a.value = xmlSpace ∨ a.value = declarationSpace then none else return others
      | some (some name) =>
          if a.value = declarationSpace then none
          else if name = "xml" then if a.value = xmlSpace then return others else none
          else if a.value = xmlSpace then none
          else if (others.lookup name).isSome then none
          else return (name, a.value) :: others

/-- The namespace of an attribute that is no declaration; without a prefix it has none.  The prefix
`xml` is bound for attributes only. -/
def Bindings.attributeSpace? (bindings : Bindings) (a : Attribute) : Option (Option String) :=
  match a.name.space with
  | none => some none
  | some "xml" => some (some xmlSpace)
  | some space => (bindings.lookup space).map some

def Bindings.bindsElement (bindings : Bindings) (name : QName) : Bool :=
  match name.space with
  | none => true
  | some space => space != "xmlns" && (bindings.lookup space).isSome

def Bindings.bindsAttributes (bindings : Bindings) (attributes : List Attribute) : Bool :=
  let plain := attributes.filter (·.declares?.isNone)
  match plain.mapM fun a => (bindings.attributeSpace? a).map fun space => (space, a.name.base) with
  | some names => decide names.Nodup
  | none => false

mutual

def Node.isBound (outer : Bindings) : Node → Bool
  | .element name attributes content =>
      match declared? attributes with
      | some inner =>
          let bindings := inner ++ outer
          bindings.bindsElement name && bindings.bindsAttributes attributes &&
            areBound bindings content
      | none => false
  | _ => true

def areBound (outer : Bindings) : List Node → Bool
  | [] => true
  | node :: rest => node.isBound outer && areBound outer rest

end

end WireProxy.Xml
