import GameText.Xml.CodePage

namespace GameText.Xml

-- Pages that begin with accented letters, in one common layout.
def CodePage.roman : List CodePage := [
  .ofRows "mac_croatian" [] [
    "ÄÅÇÉÑÖÜáàâäãåçéè",
    "êëíìîïñóòôöõúùûü",
    "†°¢£§•¶ß®Š™´¨≠ŽØ",
    "∞±≤≥∆µ∂∑∏š∫ªºΩžø",
    "¿¡¬√ƒ≈Ć«Č…\u00a0ÀÃÕŒœ",
    "Đ—“”‘’÷◊\uf8ff©⁄€‹›Æ»",
    "–·‚„‰ÂćÁčÈÍÎÏÌÓÔ",
    "đÒÚÛÙıˆ˜¯πË˚¸Êæˇ"],
  .ofRows "mac_cyrillic" ["maccyrillic"] [
    "АБВГДЕЖЗИЙКЛМНОП",
    "РСТУФХЦЧШЩЪЫЬЭЮЯ",
    "†°Ґ£§•¶І®©™Ђђ≠Ѓѓ",
    "∞±≤≥іµґЈЄєЇїЉљЊњ",
    "јЅ¬√ƒ≈∆«»…\u00a0ЋћЌќѕ",
    "–—“”‘’÷„ЎўЏџ№Ёёя",
    "абвгдежзийклмноп",
    "рстуфхцчшщъыьэю€"],
  .ofRows "mac_greek" ["macgreek"] [
    "Ä¹²É³ÖÜ΅àâä΄¨çéè",
    "êë£™îï•½‰ôö¦€ùûü",
    "†ΓΔΘΛΞΠß®©ΣΪ§≠°·",
    "Α±≤≥¥ΒΕΖΗΙΚΜΦΫΨΩ",
    "άΝ¬ΟΡ≈Τ«»…\u00a0ΥΧΆΈœ",
    "–―“”‘’÷ΉΊΌΎέήίόΏ",
    "ύαβψδεφγηιξκλμνο",
    "πώρστθωςχυζϊϋΐΰ\u00ad"],
  .ofRows "mac_iceland" ["maciceland"] [
    "ÄÅÇÉÑÖÜáàâäãåçéè",
    "êëíìîïñóòôöõúùûü",
    "Ý°¢£§•¶ß®©™´¨≠ÆØ",
    "∞±≤≥¥µ∂∑∏π∫ªºΩæø",
    "¿¡¬√ƒ≈∆«»…\u00a0ÀÃÕŒœ",
    "–—“”‘’÷◊ÿŸ⁄€ÐðÞþ",
    "ý·‚„‰ÂÊÁËÈÍÎÏÌÓÔ",
    "\uf8ffÒÚÛÙıˆ˜¯˘˙˚¸˝˛ˇ"],
  .ofRows "mac_latin2" ["maccentraleurope","mac_centeuro","maclatin2"] [
    "ÄĀāÉĄÖÜáąČäčĆćéŹ",
    "źĎíďĒēĖóėôöõúĚěü",
    "†°Ę£§•¶ß®©™ę¨≠ģĮ",
    "įĪ≤≥īĶ∂∑łĻļĽľĹĺŅ",
    "ņŃ¬√ńŇ∆«»…\u00a0ňŐÕőŌ",
    "–—“”‘’÷◊ōŔŕŘ‹›řŖ",
    "ŗŠ‚„šŚśÁŤťÍŽžŪÓÔ",
    "ūŮÚůŰűŲųÝýķŻŁżĢˇ"],
  .ofRows "mac_roman" ["macintosh","macroman"] [
    "ÄÅÇÉÑÖÜáàâäãåçéè",
    "êëíìîïñóòôöõúùûü",
    "†°¢£§•¶ß®©™´¨≠ÆØ",
    "∞±≤≥¥µ∂∑∏π∫ªºΩæø",
    "¿¡¬√ƒ≈∆«»…\u00a0ÀÃÕŒœ",
    "–—“”‘’÷◊ÿŸ⁄€‹›ﬁﬂ",
    "‡·‚„‰ÂÊÁËÈÍÎÏÌÓÔ",
    "\uf8ffÒÚÛÙıˆ˜¯˘˙˚¸˝˛ˇ"],
  .ofRows "mac_romanian" [] [
    "ÄÅÇÉÑÖÜáàâäãåçéè",
    "êëíìîïñóòôöõúùûü",
    "†°¢£§•¶ß®©™´¨≠ĂȘ",
    "∞±≤≥¥µ∂∑∏π∫ªºΩăș",
    "¿¡¬√ƒ≈∆«»…\u00a0ÀÃÕŒœ",
    "–—“”‘’÷◊ÿŸ⁄€‹›Țț",
    "‡·‚„‰ÂÊÁËÈÍÎÏÌÓÔ",
    "\uf8ffÒÚÛÙıˆ˜¯˘˙˚¸˝˛ˇ"],
  .ofRows "mac_turkish" ["macturkish"] [
    "ÄÅÇÉÑÖÜáàâäãåçéè",
    "êëíìîïñóòôöõúùûü",
    "†°¢£§•¶ß®©™´¨≠ÆØ",
    "∞±≤≥¥µ∂∑∏π∫ªºΩæø",
    "¿¡¬√ƒ≈∆«»…\u00a0ÀÃÕŒœ",
    "–—“”‘’÷◊ÿŸĞğİıŞş",
    "‡·‚„‰ÂÊÁËÈÍÎÏÌÓÔ",
    "\uf8ffÒÚÛÙ\uf8a0ˆ˜¯˘˙˚¸˝˛ˇ"]]

end GameText.Xml
