import GameText.Fault
import GameText.Xml.Read
import GameText.Xml.Write

namespace GameText.Xml

-- Documents as files: the tree under a declaration that names the encoding.
def declarationLine (encoding : String) : List Char :=
  "<?xml version='1.0' encoding='".toList ++ encoding.toList ++ "'?>\n".toList

def save (root : Element) (encoding : String) (pretty : Bool) : Except Fault Bytes :=
  match Charset.ofLabel? encoding with
  | none => .error (.unknownEncoding encoding)
  | some charset => .ok (charset.encode (declarationLine encoding ++ render root pretty))

-- The path only names the file in a failure.
def load (path : String) (bytes : Bytes) : Except Fault Element :=
  match read bytes with
  | .ok root => .ok root
  | .error .malformed => .error (.parse ⟨.malformedXml path,none,none⟩)
  | .error (.unknownEncoding name) => .error (.unknownEncoding name)
  | .error (.wideEncoding name) => .error (.value (.wideEncoding name))
  | .error (.notOfTexts name) => .error (.notOfTexts name)
  | .error (.undecodable _) => .error .undecodable

end GameText.Xml
