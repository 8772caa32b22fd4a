import GameText.Text.Blank
import GameText.Xml.Element

namespace GameText.Xml
open Text

def textChar (c : Char) : List Char :=
  if c = '&' then "&amp;".toList
  else if c = '<' then "&lt;".toList
  else if c = '>' then "&gt;".toList
  else [c]

def attributeChar (c : Char) : List Char :=
  if c = '&' then "&amp;".toList
  else if c = '<' then "&lt;".toList
  else if c = '>' then "&gt;".toList
  else if c = '\x22' then "&quot;".toList
  else if c = '\r' then "&#13;".toList
  else if c = '\n' then "&#10;".toList
  else if c = '\t' then "&#09;".toList
  else [c]

def writtenText : Option String → List Char
  | none => []
  | some text => text.toList.flatMap textChar

def writtenAttribute (pair : String × String) : List Char :=
  ' ' :: pair.1.toList ++ "=\"".toList ++ pair.2.toList.flatMap attributeChar ++ ['\x22']

def isEmptyText : Option String → Bool
  | none => true
  | some text => text.isEmpty

mutual
def written : Element → List Char
  | ⟨tag,attributes,text,tail,children⟩ =>
    '<' :: tag.toList ++ attributes.flatMap writtenAttribute ++
      (if isEmptyText text && children.isEmpty then " />".toList
       else '>' :: writtenText text ++ writtenAll children ++ "</".toList ++ tag.toList ++ ['>']) ++
      writtenText tail

def writtenAll : List Element → List Char
  | [] => []
  | element :: rest => written element ++ writtenAll rest
end

-- A reader folds a plain carriage return into a line feed; a reference stays.
def protectReturn (c : Char) : List Char := if c = '\r' then "&#13;".toList else [c]

def isBlankText : Option String → Bool
  | none => true
  | some text => (strip text.toList).isEmpty

def indentation (level : Nat) : String := String.ofList ('\n' :: List.replicate (2 * level) ' ')

def reindent (level : Nat) (text : Option String) : Option String :=
  if isBlankText text then some (indentation level) else text

mutual
-- Only blank text is replaced.
def indented (level : Nat) : Element → Element
  | ⟨tag,attributes,text,tail,children⟩ =>
    if children.isEmpty then ⟨tag,attributes,text,tail,children⟩
    else ⟨tag,attributes,reindent (level + 1) text,tail,indentedAll level children⟩

def indentedAll (level : Nat) : List Element → List Element
  | [] => []
  | [last] =>
    [(indented (level + 1) last).withTail (reindent level last.tail)]
  | element :: rest =>
    (indented (level + 1) element).withTail (reindent (level + 1) element.tail) ::
      indentedAll level rest
end

def render (element : Element) (pretty : Bool) : List Char :=
  (written (if pretty then indented 0 element else element)).flatMap protectReturn

end GameText.Xml
