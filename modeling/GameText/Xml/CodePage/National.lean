import GameText.Xml.CodePage

namespace GameText.Xml

-- Pages of single countries and devices.
def CodePage.national : List CodePage := [
  .ofRows "koi8_r" ["cskoi8r"] [
    "─│┌┐└┘├┤┬┴┼▀▄█▌▐",
    "░▒▓⌠■∙√≈≤≥\u00a0⌡°²·÷",
    "═║╒ё╓╔╕╖╗╘╙╚╛╜╝╞",
    "╟╠╡Ё╢╣╤╥╦╧╨╩╪╫╬©",
    "юабцдефгхийклмно",
    "пярстужвьызшэщчъ",
    "ЮАБЦДЕФГХИЙКЛМНО",
    "ПЯРСТУЖВЬЫЗШЭЩЧЪ"],
  .ofRows "koi8_t" [] [
    "қғ‚Ғ„…†‡\ufffd‰ҳ‹ҲҷҶ\ufffd",
    "Қ‘’“”•–—\ufffd™\ufffd›\ufffd\ufffd\ufffd\ufffd",
    "\ufffdӯӮё¤ӣ¦§\ufffd\ufffd\ufffd«¬\u00ad®\ufffd",
    "°±²Ё\ufffdӢ¶·\ufffd№\ufffd»\ufffd\ufffd\ufffd©",
    "юабцдефгхийклмно",
    "пярстужвьызшэщчъ",
    "ЮАБЦДЕФГХИЙКЛМНО",
    "ПЯРСТУЖВЬЫЗШЭЩЧЪ"],
  .ofRows "koi8_u" [] [
    "─│┌┐└┘├┤┬┴┼▀▄█▌▐",
    "░▒▓⌠■∙√≈≤≥\u00a0⌡°²·÷",
    "═║╒ёє╔ії╗╘╙╚╛ґ╝╞",
    "╟╠╡ЁЄ╣ІЇ╦╧╨╩╪Ґ╬©",
    "юабцдефгхийклмно",
    "пярстужвьызшэщчъ",
    "ЮАБЦДЕФГХИЙКЛМНО",
    "ПЯРСТУЖВЬЫЗШЭЩЧЪ"],
  .ofGraphicRows "tis_620" ["tis620","tis_620_0","tis_620_2529_0","tis_620_2529_1","iso_ir_166"] [
    "\ufffdกขฃคฅฆงจฉชซฌญฎฏ",
    "ฐฑฒณดตถทธนบปผฝพฟ",
    "ภมยรฤลฦวศษสหฬอฮฯ",
    "ะ\u0e31าำ\u0e34\u0e35\u0e36\u0e37\u0e38\u0e39\u0e3a\ufffd\ufffd\ufffd\ufffd฿",
    "เแโใไๅๆ\u0e47\u0e48\u0e49\u0e4a\u0e4b\u0e4c\u0e4d\u0e4e๏",
    "๐๑๒๓๔๕๖๗๘๙๚๛\ufffd\ufffd\ufffd\ufffd"],
  .ofGraphicRows "hp_roman8" ["roman8","r8","cp1051","ibm1051"] [
    "\u00a0ÀÂÈÊËÎÏ´ˋˆ¨˜ÙÛ₤",
    "¯Ýý°ÇçÑñ¡¿¤£¥§ƒ¢",
    "âêôûáéóúàèòùäëöü",
    "ÅîØÆåíøæÄìÖÜÉïßÔ",
    "ÁÃãÐðÍÌÓÒÕõŠšÚŸÿ",
    "Þþ·µ¶¾—¼½ªº«■»±\ufffd"],
  .ofRows "palmos" [] [
    "€\x81‚ƒ„…†‡ˆ‰Š‹Œ♦♣♥",
    "♠‘’“”•–—˜™š\x9bœ\x9d\x9eŸ",
    "\u00a0¡¢£¤¥¦§¨©ª«¬\u00ad®¯",
    "°±²³´µ¶·¸¹º»¼½¾¿",
    "ÀÁÂÃÄÅÆÇÈÉÊËÌÍÎÏ",
    "ÐÑÒÓÔÕÖ×ØÙÚÛÜÝÞß",
    "àáâãäåæçèéêëìíîï",
    "ðñòóôõö÷øùúûüýþÿ"]]

end GameText.Xml
