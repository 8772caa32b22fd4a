import GameText.Tables.Sheet

namespace GameText.Packaged

-- The tables of the international (European) edition: the ones every codec
-- uses where no others are named.
def characters : CharacterSheet where
  id := "international"
  prefixes := [0x19,0x1A,0x1B,0x1C,0x1D,0x1E,0x1F]
  ranges := [
    ⟨0x01," "⟩,
    ⟨0x2E,"ABCDEFGHIJKLMNOPQRSTUVWXYZ"⟩,
    ⟨0x48,"!?%+-=/*.,:;'\"()[]<>#&@_$"⟩,
    ⟨0x80,"ÀÁÂÄÇÈÉÊËÌÍÎÏÑÒÓ"⟩,
    ⟨0x90,"0123456789"⟩,
    ⟨0x9A,"abcdefghijklmnopqrstuvwxyz"⟩,
    ⟨0xB4,"ÔÖÙÚÛÜßàáâäçèéêëìíîïñòóôöùúûü"⟩,
    ⟨0xD2,"¡¿ºª«»Œœ…~"⟩]
  escaped := [
    ⟨0x19,0x40,"€£¥©®™♪★☆♥→←↑↓×÷"⟩,
    ⟨0x1A,0x40,"ÃÕãõÅåÆæØøÿ"⟩]

def commands : CommandSheet where
  id := "international"
  terminator := 0x00
  rows := [
    ⟨"NEW_LINE",0x02,0,none,.whole⟩,
    ⟨"RESET",0x03,0,some "reset",.whole⟩,
    ⟨"THEME",0x04,1,some "theme",.whole⟩,
    ⟨"UNKNOWN_05",0x05,6,some "unk05",.whole⟩,
    ⟨"UNKNOWN_06",0x06,1,some "unk06",.whole⟩,
    ⟨"COLOR",0x07,4,some "color",.whole⟩,
    ⟨"UNKNOWN_08",0x08,3,some "unk08",.whole⟩,
    ⟨"PRINT_ICON",0x09,1,some "icon",.whole⟩,
    ⟨"TEXT_SCALE",0x0A,1,some "scale",.whole⟩,
    ⟨"TEXT_WIDTH",0x0B,1,some "width",.whole⟩,
    ⟨"LINE_SPACING",0x0C,1,some "linespacing",.whole⟩,
    ⟨"UNKNOWN_0D",0x0D,0,some "unk0d",.whole⟩,
    ⟨"UNKNOWN_0E",0x0E,1,some "unk0e",.whole⟩,
    ⟨"UNKNOWN_0F",0x0F,5,some "unk0f",.whole⟩,
    ⟨"CLEAR",0x10,0,some "clear",.whole⟩,
    ⟨"POSITION",0x11,4,some "position",.whole⟩,
    ⟨"UNKNOWN_12",0x12,2,some "unk12",.whole⟩,
    ⟨"UNKNOWN_13",0x13,4,some "unk13",.whole⟩,
    ⟨"DELAY",0x14,2,some "delay",.whole⟩,
    ⟨"CHAR_DELAY",0x15,2,some "chardelay",.whole⟩,
    ⟨"UNKNOWN_16",0x16,1,some "unk16",.whole⟩,
    ⟨"DELAY_AND_FADE",0x17,2,some "delayandfade",.whole⟩,
    ⟨"UNKNOWN_18",0x18,2,some "unk18",.whole⟩]

def symbols : SymbolSheet where
  id := "international"
  complex := [
    ("I",[0x74]),
    ("II",[0x75]),
    ("III",[0x76]),
    ("IV",[0x77]),
    ("V",[0x78]),
    ("VI",[0x79]),
    ("VII",[0x7A]),
    ("VIII",[0x7B]),
    ("IX",[0x7C]),
    ("X",[0x7D]),
    ("XIII",[0x7E]),
    ("square",[0x1B,0x40]),
    ("triangle",[0x1B,0x41]),
    ("circle",[0x1B,0x42]),
    ("cross",[0x1B,0x43])]
  icons := [
    "item-consumable",
    "item-tent",
    "item-key",
    "ability-unequip",
    "weapon-keyblade",
    "weapon-staff",
    "weapon-shield",
    "armor",
    "magic",
    "material",
    "exclamation-mark",
    "accessory",
    "weapon-keyblade-equip",
    "weapon-staff-equip",
    "weapon-shield-equip",
    "armor-equip",
    "magic-equip",
    "material-equip",
    "exclamation-mark-equip",
    "accessory-equip",
    "ability-equip",
    "form",
    "party",
    "gumi-brush",
    "gumi-blueprint",
    "gumi-block",
    "gumi-gear",
    "rank-s",
    "rank-a",
    "rank-b",
    "rank-c",
    "gumi-weapon",
    "button-l1",
    "button-l2",
    "button-r1",
    "button-r2",
    "button-triangle",
    "button-cross",
    "button-square",
    "button-circle",
    "button-start",
    "button-select",
    "dpad"]

def tables : Except Fault TableSet := TableSet.ofSheets characters commands symbols

end GameText.Packaged
