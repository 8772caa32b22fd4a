namespace GameText.Text

-- White space: the Unicode characters of bidirectional class B, S or WS or of
-- category Zs. This is wider than the ASCII blanks; in particular it holds the
-- four information separators U+001C..U+001F and NEL, but no zero-width space.
def blankRanges : List (Nat × Nat) :=
  [(0x9,0xD),(0x1C,0x20),(0x85,0x85),(0xA0,0xA0),(0x1680,0x1680),(0x2000,0x200A),
   (0x2028,0x2029),(0x202F,0x202F),(0x205F,0x205F),(0x3000,0x3000)]

def isBlank (c : Char) : Bool :=
  blankRanges.any fun range => range.1 ≤ c.toNat && c.toNat ≤ range.2

def trim (drop : Char → Bool) (text : List Char) : List Char :=
  ((text.dropWhile drop).reverse.dropWhile drop).reverse

def strip (text : List Char) : List Char := trim isBlank text

end GameText.Text
