namespace GameText

inductive Command where
  | printText | printComplex | printIcon | newLine | reset | theme
  | unknown05 | unknown06 | color | unknown08 | textScale | textWidth
  | lineSpacing | unknown0D | unknown0E | unknown0F | clear | position
  | unknown12 | unknown13 | delay | charDelay | unknown16 | delayAndFade
  | unknown18
  deriving DecidableEq, Repr, Inhabited

inductive Payload where
  | nothing | text | data
  deriving DecidableEq, Repr

namespace Command

def payload : Command → Payload
  | printText | printComplex => .text
  | newLine | reset | clear | unknown0D => .nothing
  | _ => .data

def isBare (command : Command) : Bool := command.payload = .nothing ∧ command ≠ newLine

def all : List Command :=
  [printText,printComplex,printIcon,newLine,reset,theme,unknown05,unknown06,color,
   unknown08,textScale,textWidth,lineSpacing,unknown0D,unknown0E,unknown0F,clear,
   position,unknown12,unknown13,delay,charDelay,unknown16,delayAndFade,unknown18]

def name : Command → String
  | printText => "PRINT_TEXT"
  | printComplex => "PRINT_COMPLEX"
  | printIcon => "PRINT_ICON"
  | newLine => "NEW_LINE"
  | reset => "RESET"
  | theme => "THEME"
  | unknown05 => "UNKNOWN_05"
  | unknown06 => "UNKNOWN_06"
  | color => "COLOR"
  | unknown08 => "UNKNOWN_08"
  | textScale => "TEXT_SCALE"
  | textWidth => "TEXT_WIDTH"
  | lineSpacing => "LINE_SPACING"
  | unknown0D => "UNKNOWN_0D"
  | unknown0E => "UNKNOWN_0E"
  | unknown0F => "UNKNOWN_0F"
  | clear => "CLEAR"
  | position => "POSITION"
  | unknown12 => "UNKNOWN_12"
  | unknown13 => "UNKNOWN_13"
  | delay => "DELAY"
  | charDelay => "CHAR_DELAY"
  | unknown16 => "UNKNOWN_16"
  | delayAndFade => "DELAY_AND_FADE"
  | unknown18 => "UNKNOWN_18"

def ofName? (name : String) : Option Command := all.find? fun command => command.name = name

def number (command : Command) : Nat := all.idxOf command + 1

end Command
end GameText
