import TopicBroker.Xml.Attribute

/-!
# XML namespaces

The prefixes that start tags declare, and what they stand for. Records make use of one namespace
alone: its attribute `nil` marks a value as absent.
-/

namespace TopicBroker.Xml

/-- The name in front of the first colon, if there is a colon, and the name behind it. -/
def splitName (name : List Char) : Option (List Char) × List Char :=
  match splitAtMark? [':'] name with
  | some (before, behind) => (some before, behind)
  | none => (none, name)

/-- The name without what stands in front of its first colon. -/
def localName (name : List Char) : List Char := (splitName name).2

/-- The namespace of names that the prefix `xml` is kept for. -/
def xmlNamespace : List Char := "http://www.w3.org/XML/1998/namespace".toList

def xmlnsNamespace : List Char := "http://www.w3.org/2000/xmlns/".toList

/-- The namespace of the attributes that say something about a value. -/
def instanceNamespace : List Char := "http://www.w3.org/2001/XMLSchema-instance".toList

/-- A prefix with the namespace that it stands for, and the depth of its declaration. -/
structure Binding where
  depth : Nat
  name : List Char
  meaning : List Char
  deriving DecidableEq, Repr

/-- The declarations that hold, the innermost first, and the number of tags entered and not left. -/
structure Scope where
  depth : Nat
  bindings : List Binding
  deriving DecidableEq, Repr

namespace Scope

def empty : Scope := ⟨0, []⟩

/-- Adds what an attribute declares, if it is a declaration. The reserved prefixes and namespaces
are declared as they are, if at all. -/
def declare? (scope : Scope) (a : Attribute) : Option Scope :=
  match splitName a.name with
  | (none, _) => some scope
  | (some p, name) =>
    if p ≠ "xmlns".toList then some scope
    else if name = "xml".toList then
      if a.value = xmlNamespace then some scope else none
    else if name = "xmlns".toList ∨ a.value = xmlNamespace ∨ a.value = xmlnsNamespace then none
    else some { scope with bindings := ⟨scope.depth, name, a.value⟩ :: scope.bindings }

/-- The scope inside a start tag, unless the tag misuses a reserved name. -/
def enter? (scope : Scope) (tag : Tag) : Option Scope :=
  tag.leadingAttributes.foldlM declare? { scope with depth := scope.depth + 1 }

/-- The scope behind the end tag that belongs to the last start tag entered. -/
def leave (scope : Scope) : Scope :=
  let depth := scope.depth - 1
  ⟨depth, scope.bindings.dropWhile (depth < ·.depth)⟩

/-- What a prefix stands for. The empty one stands for nothing. -/
def meaning? (scope : Scope) (p : List Char) : Option (List Char) :=
  if p.isEmpty then none else (scope.bindings.find? (·.name = p)).map (·.meaning)

def isTrue (value : List Char) : Bool :=
  value = "1".toList || value = "true".toList

/-- The tag marks its element as absent. -/
def marksAbsent (scope : Scope) (tag : Tag) : Bool :=
  tag.distinctAttributes.any fun a =>
    match splitName a.name with
    | (some p, name) =>
      name = "nil".toList && scope.meaning? p == some instanceNamespace && isTrue a.value
    | (none, _) => false

end Scope

end TopicBroker.Xml
