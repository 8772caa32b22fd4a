namespace GameText.Xml

structure EncodingName where
  main : String
  aliases : List String
  deriving DecidableEq, Repr

-- Below 0x80 every page agrees with ASCII. U+FFFD stands for a byte without a character.
structure CodePage where
  name : EncodingName
  upper : List Char
  deriving Repr

namespace CodePage

def ofRows (main : String) (aliases rows : List String) : CodePage :=
  ⟨⟨main,aliases⟩,rows.flatMap String.toList⟩

def controlRows : List String := [
  "\x80\x81\x82\x83\x84\x85\x86\x87\x88\x89\x8a\x8b\x8c\x8d\x8e\x8f",
  "\x90\x91\x92\x93\x94\x95\x96\x97\x98\x99\x9a\x9b\x9c\x9d\x9e\x9f"]

def ofGraphicRows (main : String) (aliases rows : List String) : CodePage :=
  ofRows main aliases (controlRows ++ rows)

end CodePage
end GameText.Xml
