import ViewModifiers.Dictionary
import ViewModifiers.Element.Basic

/-!
# Element trees

An element has a tag, attributes and children.  Elements are found by identity,
the first one in the order of the tree; all but the topmost can be detached
together with what is below them.
-/

namespace ViewModifiers

structure Element where
  id : ElementId
  tag : String
  attributes : Dictionary RawValue
  children : List Element

namespace Element

instance : Inhabited Element := ⟨⟨⟨0⟩, "", ∅, []⟩⟩

def templateAttribute : String := "template"

def handle (e : Element) : ElementHandle :=
  ⟨e.id, e.tag⟩

def attribute? (e : Element) (name : String) : Option RawValue :=
  e.attributes.find? name

def isSelectedBy (e : Element) : Selector → Bool
  | .template name => (e.attribute? templateAttribute).bind RawValue.text? == some name
  | .tag tag => e.tag == tag
  | .all => true

def childrenSelectedBy (e : Element) (s : Selector) : List ElementHandle :=
  (e.children.filter fun c => c.isSelectedBy s).map handle

/-! ## Identities -/

mutual

def ids : Element → List ElementId
  | ⟨id, _, _, children⟩ => id :: idsOfList children

def idsOfList : List Element → List ElementId
  | [] => []
  | c :: rest => c.ids ++ idsOfList rest

end

mutual

def find? (target : ElementId) : Element → Option Element
  | ⟨id, tag, attributes, children⟩ =>
      if id = target then some ⟨id, tag, attributes, children⟩ else findIn? target children

def findIn? (target : ElementId) : List Element → Option Element
  | [] => none
  | c :: rest =>
      match c.find? target with
      | some found => some found
      | none => findIn? target rest

end

mutual

/-- Changes the attributes of the first element of an identity, where there is one. -/
def update? (target : ElementId) (f : Dictionary RawValue → Dictionary RawValue) :
    Element → Option Element
  | ⟨id, tag, attributes, children⟩ =>
      if id = target then some ⟨id, tag, f attributes, children⟩
      else (updateIn? target f children).map fun cs => ⟨id, tag, attributes, cs⟩

def updateIn? (target : ElementId) (f : Dictionary RawValue → Dictionary RawValue) :
    List Element → Option (List Element)
  | [] => none
  | c :: rest =>
      match c.update? target f with
      | some changed => some (changed :: rest)
      | none => (updateIn? target f rest).map (c :: ·)

end

/-! ## Detaching -/

def takeFirst? (target : ElementId) : List Element → Option (Element × List Element)
  | [] => none
  | c :: rest =>
      if c.id = target then some (c, rest)
      else (takeFirst? target rest).map fun r => (r.1, c :: r.2)

mutual

/-- Takes an element from below another one: its own children come first. -/
def detach? (target : ElementId) : Element → Option (Element × Element)
  | ⟨id, tag, attributes, children⟩ =>
      match takeFirst? target children with
      | some (removed, rest) => some (removed, ⟨id, tag, attributes, rest⟩)
      | none =>
          (detachIn? target children).map fun r => (r.1, ⟨id, tag, attributes, r.2⟩)

def detachIn? (target : ElementId) : List Element → Option (Element × List Element)
  | [] => none
  | c :: rest =>
      match c.detach? target with
      | some (removed, changed) => some (removed, changed :: rest)
      | none => (detachIn? target rest).map fun r => (r.1, c :: r.2)

end

end Element
end ViewModifiers
