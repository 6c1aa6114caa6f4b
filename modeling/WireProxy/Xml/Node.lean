/-!
# Document trees

An element has a name, attributes and content.  Names may carry a namespace prefix, which is kept
as it is written.
-/

namespace WireProxy.Xml

structure QName where
  /-- What stands before the colon. -/
  space : Option String := none
  base : String
  deriving DecidableEq, Repr, Inhabited

structure Attribute where
  name : QName
  value : String
  deriving DecidableEq, Repr, Inhabited

inductive Node where
  | element (name : QName) (attributes : List Attribute) (content : List Node)
  | text (content : String)
  | comment (content : String)
  | instruction (target content : String)
  deriving Inhabited

mutual

def Node.decEq : (a b : Node) → Decidable (a = b)
  | .element name attributes content, .element name' attributes' content' =>
      have : Decidable (content = content') := Node.decEqAll content content'
      decidable_of_iff (name = name' ∧ attributes = attributes' ∧ content = content') (by simp)
  | .text content, .text content' | .comment content, .comment content' =>
      decidable_of_iff (content = content') (by simp)
  | .instruction target content, .instruction target' content' =>
      decidable_of_iff (target = target' ∧ content = content') (by simp)
  | .element .., .text _ | .element .., .comment _ | .element .., .instruction .. => isFalse nofun
  | .text _, .element .. | .text _, .comment _ | .text _, .instruction .. => isFalse nofun
  | .comment _, .element .. | .comment _, .text _ | .comment _, .instruction .. => isFalse nofun
  | .instruction .., .element .. | .instruction .., .text _ | .instruction .., .comment _ =>
      isFalse nofun

def Node.decEqAll : (as bs : List Node) → Decidable (as = bs)
  | [], [] => isTrue rfl
  | a :: as, b :: bs =>
      have : Decidable (a = b) := Node.decEq a b
      have : Decidable (as = bs) := Node.decEqAll as bs
      decidable_of_iff (a = b ∧ as = bs) (by simp)
  | [], _ :: _ | _ :: _, [] => isFalse nofun

end

instance : DecidableEq Node := Node.decEq

structure Element where
  name : QName
  attributes : List Attribute
  content : List Node
  deriving DecidableEq, Inhabited

def Node.element? : Node → Option Element
  | element name attributes content => some ⟨name, attributes, content⟩
  | _ => none

namespace Element

/-- The value of the attribute that is written with this name and no prefix. -/
def attribute? (e : Element) (name : String) : Option String :=
  (e.attributes.find? (·.name = ⟨none, name⟩)).map (·.value)

/-- The direct children with this local name, whatever their prefix, in document order. -/
def children (e : Element) (tag : String) : List Element :=
  (e.content.filterMap Node.element?).filter (·.name.base = tag)

end Element

end WireProxy.Xml
