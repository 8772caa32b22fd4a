import GameText.Command
import GameText.Text.Decimal
import GameText.Text.Quoted

namespace GameText
open Text

-- How a width is held: as an integer, or as a real number without a fraction. Both
-- compare as numbers do, but only an integer can count bytes.
inductive WidthForm where
  | whole
  | real
  | negativeZero
  deriving DecidableEq, Repr

def WidthForm.text (width : Int) : WidthForm → String
  | whole => intText width
  | real => intText width ++ ".0"
  | negativeZero => "-0.0"

inductive ParseCause where
  | strayClose
  | unterminated
  | nestedOpen
  | malformedCommand (token : String)
  | unknownCommand (name : String)
  | takesNoArgument (name : String)
  | needsArgument (name : String)
  | notDecimal (argument : String)
  | argumentTooLarge (value : Int) (width : Int)
  | unknownSymbol (token : String)
  | wrongElement (expected found : String)
  | badMessageId (raw : Option String)
  | repeatedMessage (id : Int)
  | unknownComplex (id : Int) (key : String)
  | unknownIcon (id : Int) (name : String)
  | unknownElement (id : Int) (tag : String)
  | takesNoValue (id : Int) (tag : String)
  | invalidValue (id : Int) (tag raw : String)
  | missingValue (id : Int) (tag : String)
  | malformedXml (path : String)
  deriving DecidableEq, Repr

def ParseCause.text : ParseCause → String
  | strayClose => "Unexpected '\x7d' outside of a token"
  | unterminated => "Unterminated token, expected '\x7d'"
  | nestedOpen => "Unexpected '\x7b' inside a token"
  | malformedCommand token => "Malformed command " ++ token
  | unknownCommand name => "Unknown command " ++ quoted name
  | takesNoArgument name => "Command " ++ quoted name ++ " takes no argument"
  | needsArgument name => "Command " ++ quoted name ++ " requires an argument"
  | notDecimal argument => "Argument " ++ quoted argument ++ " is not a decimal number"
  | argumentTooLarge value width =>
    "Argument " ++ intText value ++ " does not fit in " ++ intText width ++ " byte(s)"
  | unknownSymbol token => "Unknown symbol " ++ token
  | wrongElement expected found => "Expected <" ++ expected ++ ">, found <" ++ found ++ ">"
  | badMessageId raw => "Message has a missing or invalid id " ++ quotedOption raw
  | repeatedMessage id => "Message " ++ intText id ++ " appears twice"
  | unknownComplex id key =>
    "Message " ++ intText id ++ ": unknown complex glyph " ++ quoted key
  | unknownIcon id name => "Message " ++ intText id ++ ": unknown icon " ++ quoted name
  | unknownElement id tag => "Message " ++ intText id ++ ": unknown element <" ++ tag ++ ">"
  | takesNoValue id tag => "Message " ++ intText id ++ ": <" ++ tag ++ "> takes no value"
  | invalidValue id tag raw =>
    "Message " ++ intText id ++ ": invalid <" ++ tag ++ "> value " ++ quoted raw
  | missingValue id tag =>
    "Message " ++ intText id ++ ": <" ++ tag ++ "> is missing its value attribute"
  | malformedXml path => "Malformed XML in " ++ path

-- The position counts characters of a script; documents have none. The token
-- is the offending part of the input, where there is one.
structure ParseError where
  cause : ParseCause
  position : Option Nat
  token : Option String
  deriving DecidableEq, Repr

def ParseError.message (e : ParseError) : String :=
  match e.position with
  | none => e.cause.text
  | some position => e.cause.text ++ " (at position " ++ natText position ++ ")"

inductive Subject where
  | nothing
  | text (value : String)
  | number (value : Int)
  | bytes (value : Bytes)
  | command (value : Command)
  deriving DecidableEq, Repr

inductive EncodingCause where
  | noScriptName (command : Command)
  | noDocumentName (command : Command)
  | noOpcode (command : Command)
  | unknownComplex (key : String)
  | wrongArgument (command : Command) (width : Int) (data : Bytes) (form : WidthForm)
  | noGlyph (c : Char)
  | notInXml (c : Char)
  | unnamedIcon (data : Bytes)
  | missingTerminator (form : WidthForm)
  | truncatedArgument (command : Command) (byte : UInt8)
  | truncatedGlyph (code : Bytes)
  | unassignedGlyph (code : Bytes)
  | idOutOfRange (id : Int)
  | notTerminated (id : Int) (data : Bytes)
  | noHeader
  | badMagic (magic : Nat)
  | tableTooLong (count : Nat)
  | offsetOutside (id offset : Nat)
  deriving DecidableEq, Repr

namespace EncodingCause

def text : EncodingCause → String
  | noScriptName command => "Command " ++ command.name ++ " has no script name"
  | noDocumentName command => "Command " ++ command.name ++ " has no document name"
  | noOpcode command => "Command " ++ command.name ++ " has no opcode"
  | unknownComplex key => "Unknown complex glyph " ++ quoted key
  | wrongArgument command width data form =>
    command.name ++ " expects " ++ form.text width ++ " argument byte(s), got " ++
      natText data.length
  | noGlyph c => "Character " ++ quotedLetter c ++ " has no glyph"
  | notInXml c => "Character " ++ quotedLetter c ++ " cannot be written to XML"
  | unnamedIcon data => "Icon " ++ spacedHex data ++ " has no name"
  | missingTerminator _ => "Message is missing its terminator"
  | truncatedArgument command _ => "Truncated " ++ command.name ++ " argument"
  | truncatedGlyph _ => "Truncated glyph code"
  | unassignedGlyph code => "Unassigned glyph code " ++ spacedHex code
  | idOutOfRange id => "Message ID " ++ intText id ++ " does not fit in 32 bits"
  | notTerminated id _ => "Message " ++ intText id ++ " is not terminated"
  | noHeader => "Catalog is too small to hold a header"
  | badMagic magic => "Bad catalog magic " ++ natText magic
  | tableTooLong count => "Catalog table of " ++ natText count ++ " entries runs past the end"
  | offsetOutside id offset =>
    "Message " ++ natText id ++ " offset " ++ natText offset ++ " is outside the data area"

def subject : EncodingCause → Subject
  | noScriptName command | noDocumentName command | noOpcode command => .command command
  | unknownComplex key => .text key
  | wrongArgument _ _ data _ | unnamedIcon data | notTerminated _ data => .bytes data
  | noGlyph c | notInXml c => .text (String.singleton c)
  | missingTerminator _ | noHeader => .nothing
  | truncatedArgument _ byte => .number byte.toNat
  | truncatedGlyph code | unassignedGlyph code => .bytes code
  | idOutOfRange id => .number id
  | badMagic magic => .number magic
  | tableTooLong count => .number count
  | offsetOutside _ offset => .number offset

-- Behind a real width the position is a real number too.
def place (position : Int) : EncodingCause → String
  | missingTerminator form => form.text position
  | _ => intText position

end EncodingCause

-- The position is an entry index while encoding and a byte offset while
-- decoding. Offsets lie before the data only where a row of negative width has
-- sent the reader back.
structure EncodingError where
  cause : EncodingCause
  position : Option Int
  deriving DecidableEq, Repr

def EncodingError.message (e : EncodingError) : String :=
  match e.position with
  | none => e.cause.text
  | some position => e.cause.text ++ " (at " ++ e.cause.place position ++ ")"

inductive TableError where
  | glyphNotSingle (glyph : String)
  | glyphIsPrefix (glyph : String) (code : UInt8)
  | glyphWithoutPrefix (glyph : String) (lead : UInt8)
  | glyphLength (glyph : String)
  | glyphCodeShared (code : Bytes) (first second : Char)
  | characterRepeated (c : Char)
  | rangeOverflow (start : Int)
  | escapedOverflow (lead start : Int)
  | commandRepeated (command : Command)
  | opcodeRepeated (opcode : Int)
  | nameRepeated (name : String)
  | textCommand (command : Command)
  | wrongWidth (command : Command) (width : Int) (form : WidthForm)
  | commandMissing (command : Command)
  | complexRepeated (key : String)
  | complexCodeRepeated (code : Bytes)
  | complexIsOpcode (key : String)
  | iconRepeated (name : String)
  | iconIsComplex (name : String)
  | complexIsCharacter (code : Bytes)
  | complexWithoutPrefix (code : Bytes)
  | complexIsPrefix (code : UInt8)
  | opcodeIsCharacter (opcode : Int)
  | terminatorIsCharacter
  | noSchemaDirectory (path : String)
  | unreadableSchema (path : String)
  | noSchema (category : String)
  | unreadableAsset (path : String)
  | invalidAsset (path : String)
  | unknownCommand (name : String)
  deriving DecidableEq, Repr

def TableError.message : TableError → String
  | glyphNotSingle glyph => "Glyph " ++ quoted glyph ++ " must be a single character"
  | glyphIsPrefix glyph code =>
    "Glyph " ++ quoted glyph ++ " uses escape prefix 0x" ++ hexText code.toNat ++ " as a code"
  | glyphWithoutPrefix glyph lead =>
    "Glyph " ++ quoted glyph ++ " has unknown escape prefix 0x" ++ hexText lead.toNat
  | glyphLength glyph => "Glyph " ++ quoted glyph ++ " must encode to one or two bytes"
  | glyphCodeShared code first second =>
    "Glyph code " ++ spacedHex code ++ " assigned to both " ++ quotedLetter first ++ " and " ++
      quotedLetter second
  | characterRepeated c => "Character " ++ quotedLetter c ++ " is defined twice"
  | rangeOverflow start => "Range starting at 0x" ++ hexText start ++ " overflows a byte"
  | escapedOverflow lead start =>
    "Escaped range 0x" ++ hexText lead ++ " 0x" ++ hexText start ++ " overflows a byte"
  | commandRepeated command => "Command " ++ command.name ++ " is defined twice"
  | opcodeRepeated opcode => "Opcode 0x" ++ hexText opcode ++ " is assigned twice"
  | nameRepeated name => "Command name " ++ quoted name ++ " is used twice"
  | textCommand command => command.name ++ " is a text command and has no opcode"
  | wrongWidth command width form =>
    command.name ++ " has the wrong argument width " ++ form.text width
  | commandMissing command => "Command table has no entry for " ++ command.name
  | complexRepeated key => "Complex glyph " ++ quoted key ++ " is defined twice"
  | complexCodeRepeated code => "Complex glyph code " ++ spacedHex code ++ " is assigned twice"
  | complexIsOpcode key => "Complex glyph " ++ quoted key ++ " collides with an opcode"
  | iconRepeated name => "Icon " ++ quoted name ++ " is defined twice"
  | iconIsComplex name => "Icon " ++ quoted name ++ " shadows a complex glyph"
  | complexIsCharacter code => "Complex glyph code " ++ spacedHex code ++ " is also a character"
  | complexWithoutPrefix code =>
    "Complex glyph code " ++ spacedHex code ++ " has no escape prefix"
  | complexIsPrefix code =>
    "Complex glyph code 0x" ++ hexText code.toNat ++ " is an escape prefix"
  | opcodeIsCharacter opcode => "Opcode 0x" ++ hexText opcode ++ " is also a character code"
  | terminatorIsCharacter => "Terminator byte is also a character code"
  | noSchemaDirectory path => "Schema directory not found: " ++ path
  | unreadableSchema path => "Failed to load schema " ++ path
  | noSchema category => "No schema found for " ++ category
  | unreadableAsset path => "Failed to load " ++ path
  | invalidAsset path => "Validation error in " ++ path
  | unknownCommand name => "Unknown command " ++ quoted name ++ " in command table"

inductive EntryError where
  | textType
  | unknownField (field : String)
  | frozenField (field : String)
  | needsText (command : Command)
  | refusesData (command : Command)
  | needsData (command : Command)
  | refusesText (command : Command)
  | takesNothing (command : Command)
  deriving DecidableEq, Repr

def EntryError.message : EntryError → String
  | textType => "string_type: text"
  | unknownField field => "extra_forbidden: " ++ field
  | frozenField field => "frozen_instance: " ++ field
  | needsText command => command.name ++ " requires text"
  | refusesData command => command.name ++ " does not take data"
  | needsData command => command.name ++ " requires data"
  | refusesText command => command.name ++ " does not take text"
  | takesNothing command => command.name ++ " takes no payload"

inductive ValueError where
  | notAByte (value : Int)
  | notANumeral (text : String)
  | numeralTooLong
  | negativeWidth (width : Int)
  | unknownPolicy (name : String)
  | notAPath (path : String)
  | wideEncoding (name : String)
  deriving DecidableEq, Repr

-- Everything that ends an operation. The first three are the failures of the
-- codec itself: a batch may skip the message they belong to. The others end
-- every operation they occur in. The last three are no outcomes: a reading without
-- end, a text with half of a surrogate pair, and a document that its schema lets
-- through without the form of a sheet. No value of this library stands for them.
inductive Fault where
  | parse (e : ParseError)
  | encoding (e : EncodingError)
  | table (e : TableError)
  | entry (e : EntryError)
  | value (e : ValueError)
  | overflow
  | notAnInteger
  | offsetTooWide
  | missingId (id : Int)
  | unknownEncoding (name : String)
  | notOfTexts (encoding : String)
  | undecodable
  | tooDeep
  | badSchema
  | noSuchFile (path : String)
  | isDirectory (path : String)
  | notADirectory (path : String)
  | unreachable (path : String)
  | lostValue
  | outsideData
  | endless
  | unpaired
  | unformed
  deriving DecidableEq, Repr

namespace Fault

def isCodec : Fault → Bool
  | parse _ | encoding _ | table _ => true
  | _ => false

def message : Fault → String
  | parse e => e.message
  | encoding e => e.message
  | table e => e.message
  | entry e => e.message
  | noSuchFile path => "[Errno 2] No such file or directory: " ++ quoted path
  | _ => ""

end Fault
end GameText
