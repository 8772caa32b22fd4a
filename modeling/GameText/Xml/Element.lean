namespace GameText.Xml

-- A document tree. The text stands before the first child; the tail of an
-- element stands after it, inside its parent. Attributes keep their order.
structure Element where
  tag : String
  attributes : List (String × String)
  text : Option String
  tail : Option String
  children : List Element
  deriving Inhabited

namespace Element

def leaf (tag : String) (attributes : List (String × String)) : Element :=
  ⟨tag,attributes,none,none,[]⟩

def get? (element : Element) (name : String) : Option String :=
  element.attributes.lookup name

def withTail (element : Element) (tail : Option String) : Element := { element with tail := tail }

end Element
end GameText.Xml
