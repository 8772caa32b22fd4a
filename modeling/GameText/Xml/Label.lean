import GameText.Xml.Charset
import GameText.Xml.CodePage.Desktop
import GameText.Xml.CodePage.National
import GameText.Xml.CodePage.Roman
import GameText.Xml.CodePage.Standard
import GameText.Xml.CodePage.Terminal

namespace GameText.Xml

-- Of wide encodings some share their single bytes with a charset and can be read as far as these
-- go. Foreign ones have other bytes for the characters of markup. The last two are no encodings of
-- texts: one is for single names, the other has no text for any bytes.
inductive Coding where
  | charset (charset : Charset)
  | sharing (charset : Charset)
  | wide
  | foreign
  | nameOnly
  | nothing
  deriving DecidableEq, Repr

namespace Label

def normalStep (state : List Char × Bool) (c : Char) : List Char × Bool :=
  if c.isAlphanum || c = '.' then
    (state.1 ++ (if state.2 && !state.1.isEmpty then ['_',c.toLower] else [c.toLower]),false)
  else (state.1,true)

def normal (label : String) : String :=
  String.ofList (label.toList.foldl normalStep ([],false)).1

def withoutPoints (label : String) : String :=
  String.ofList (label.toList.map fun c => if c = '.' then '_' else c)

def isOf (label : String) (name : EncodingName) : Bool :=
  name.aliases.contains label || name.aliases.contains (withoutPoints label) || name.main = label

def basic : List (EncodingName × Coding) := [
  (⟨"utf_8",["u8","utf","utf8","utf8_ucs2","utf8_ucs4","cp65001"]⟩,.charset .utf8),
  (⟨"ascii",["646","ansi_x3.4_1968","ansi_x3_4_1968","ansi_x3.4_1986","cp367","csascii","ibm367",
    "iso646_us","iso_646.irv_1991","iso_ir_6","us","us_ascii"]⟩,.charset .ascii),
  (⟨"latin_1",["8859","cp819","csisolatin1","ibm819","iso8859","iso8859_1","iso_8859_1",
    "iso_8859_1_1987","iso_ir_100","l1","latin","latin1"]⟩,.charset .latin1),
  (⟨"charmap",[]⟩,.charset .latin1),
  (⟨"unicode_escape",[]⟩,.charset .latin1),
  (⟨"raw_unicode_escape",[]⟩,.charset .latin1)]

def pages : List (EncodingName × Coding) :=
  (CodePage.standard ++ CodePage.desktop ++ CodePage.national ++ CodePage.roman ++
    CodePage.terminal).map fun page => (page.name,.charset (.page page.upper))

def escapedNames : List (EncodingName × Char) := [
  (⟨"hz",["hzgb","hz_gb","hz_gb_2312"]⟩,'~')]

def asciiNames : List EncodingName := [
  ⟨"utf_8_sig",[]⟩,
  ⟨"iso2022_jp",["csiso2022jp","iso2022jp","iso_2022_jp"]⟩,
  ⟨"iso2022_jp_1",["iso2022jp_1","iso_2022_jp_1"]⟩,
  ⟨"iso2022_jp_2",["iso2022jp_2","iso_2022_jp_2"]⟩,
  ⟨"iso2022_jp_2004",["iso_2022_jp_2004","iso2022jp_2004"]⟩,
  ⟨"iso2022_jp_3",["iso2022jp_3","iso_2022_jp_3"]⟩,
  ⟨"iso2022_jp_ext",["iso2022jp_ext","iso_2022_jp_ext"]⟩]

def wideNames : List EncodingName := [
  ⟨"big5",["big5_tw","csbig5","x_mac_trad_chinese"]⟩,⟨"big5hkscs",["big5_hkscs","hkscs"]⟩,
  ⟨"cp932",["932","ms932","mskanji","ms_kanji"]⟩,⟨"cp949",["949","ms949","uhc"]⟩,
  ⟨"cp950",["950","ms950"]⟩,⟨"euc_jis_2004",["jisx0213","eucjis2004","euc_jis2004"]⟩,
  ⟨"euc_jisx0213",["eucjisx0213"]⟩,⟨"euc_jp",["eucjp","ujis","u_jis"]⟩,
  ⟨"euc_kr",["euckr","korean","ksc5601","ks_c_5601","ks_c_5601_1987","ksx1001","ks_x_1001",
    "x_mac_korean"]⟩,
  ⟨"gb18030",["gb18030_2000"]⟩,
  ⟨"gb2312",["chinese","csiso58gb231280","euc_cn","euccn","eucgb2312_cn","gb2312_1980",
    "gb2312_80","iso_ir_58","x_mac_simp_chinese"]⟩,
  ⟨"gbk",["936","cp936","ms936"]⟩,⟨"iso2022_kr",["csiso2022kr","iso2022kr","iso_2022_kr"]⟩,
  ⟨"johab",["cp1361","ms1361"]⟩,
  ⟨"shift_jis",["csshiftjis","shiftjis","sjis","s_jis","x_mac_japanese"]⟩,
  ⟨"shift_jis_2004",["shiftjis2004","sjis_2004","s_jis_2004"]⟩,
  ⟨"shift_jisx0213",["shiftjisx0213","sjisx0213","s_jisx0213"]⟩,
  ⟨"utf_16",["u16","utf16"]⟩,⟨"utf_16_be",["unicodebigunmarked","utf_16be"]⟩,
  ⟨"utf_16_le",["unicodelittleunmarked","utf_16le"]⟩,⟨"utf_32",["u32","utf32"]⟩,
  ⟨"utf_32_be",["utf_32be"]⟩,⟨"utf_32_le",["utf_32le"]⟩,
  ⟨"utf_7",["u7","utf7","unicode_1_1_utf_7"]⟩]

def foreignNames : List EncodingName := [
  ⟨"cp037",["037","csibm037","ebcdic_cp_ca","ebcdic_cp_nl","ebcdic_cp_us","ebcdic_cp_wt","ibm037",
    "ibm039"]⟩,
  ⟨"cp1026",["1026","csibm1026","ibm1026"]⟩,⟨"cp1140",["1140","ibm1140"]⟩,
  ⟨"cp273",["273","ibm273","csibm273"]⟩,⟨"cp424",["424","csibm424","ebcdic_cp_he","ibm424"]⟩,
  ⟨"cp500",["500","csibm500","ebcdic_cp_be","ebcdic_cp_ch","ibm500"]⟩,
  ⟨"cp864",["864","csibm864","ibm864"]⟩,⟨"cp875",[]⟩,⟨"mac_arabic",[]⟩,⟨"mac_farsi",[]⟩]

def all : List (EncodingName × Coding) :=
  basic ++ pages ++ asciiNames.map (·,.sharing .ascii) ++
    escapedNames.map (fun known => (known.1,.sharing (.escaped known.2))) ++
    wideNames.map (·,.wide) ++
    foreignNames.map (·,.foreign) ++
    [(⟨"punycode",[]⟩,.nameOnly),(⟨"idna",[]⟩,.nothing),(⟨"undefined",[]⟩,.nothing)]

-- No two encodings share a name, so the first that has this one is the only one.
def coding? (label : String) : Option Coding :=
  (all.find? fun known => isOf (normal label) known.1).map Prod.snd

end Label

def Charset.ofLabel? (label : String) : Option Charset :=
  match Label.coding? label with
  | some (.charset charset) => some charset
  | _ => none

end GameText.Xml
