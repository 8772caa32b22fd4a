import GameText.Xml.CodePage

namespace GameText.Xml

-- The pages of the eight-bit standard after its first part, which is a charset of
-- its own. All begin with the same two rows of controls.
def CodePage.standard : List CodePage := [
  .ofGraphicRows "iso8859_2" ["csisolatin2","iso_8859_2","iso_8859_2_1987","iso_ir_101","l2",
      "latin2"] [
    "\u00a0Ą˘Ł¤ĽŚ§¨ŠŞŤŹ\u00adŽŻ",
    "°ą˛ł´ľśˇ¸šşťź˝žż",
    "ŔÁÂĂÄĹĆÇČÉĘËĚÍÎĎ",
    "ĐŃŇÓÔŐÖ×ŘŮÚŰÜÝŢß",
    "ŕáâăäĺćçčéęëěíîď",
    "đńňóôőö÷řůúűüýţ˙"],
  .ofGraphicRows "iso8859_3" ["csisolatin3","iso_8859_3","iso_8859_3_1988","iso_ir_109","l3",
      "latin3"] [
    "\u00a0Ħ˘£¤\ufffdĤ§¨İŞĞĴ\u00ad\ufffdŻ",
    "°ħ²³´µĥ·¸ışğĵ½\ufffdż",
    "ÀÁÂ\ufffdÄĊĈÇÈÉÊËÌÍÎÏ",
    "\ufffdÑÒÓÔĠÖ×ĜÙÚÛÜŬŜß",
    "àáâ\ufffdäċĉçèéêëìíîï",
    "\ufffdñòóôġö÷ĝùúûüŭŝ˙"],
  .ofGraphicRows "iso8859_4" ["csisolatin4","iso_8859_4","iso_8859_4_1988","iso_ir_110","l4",
      "latin4"] [
    "\u00a0ĄĸŖ¤ĨĻ§¨ŠĒĢŦ\u00adŽ¯",
    "°ą˛ŗ´ĩļˇ¸šēģŧŊžŋ",
    "ĀÁÂÃÄÅÆĮČÉĘËĖÍÎĪ",
    "ĐŅŌĶÔÕÖ×ØŲÚÛÜŨŪß",
    "āáâãäåæįčéęëėíîī",
    "đņōķôõö÷øųúûüũū˙"],
  .ofGraphicRows "iso8859_5" ["csisolatincyrillic","cyrillic","iso_8859_5","iso_8859_5_1988",
      "iso_ir_144"] [
    "\u00a0ЁЂЃЄЅІЇЈЉЊЋЌ\u00adЎЏ",
    "АБВГДЕЖЗИЙКЛМНОП",
    "РСТУФХЦЧШЩЪЫЬЭЮЯ",
    "абвгдежзийклмноп",
    "рстуфхцчшщъыьэюя",
    "№ёђѓєѕіїјљњћќ§ўџ"],
  .ofGraphicRows "iso8859_6" ["arabic","asmo_708","csisolatinarabic","ecma_114","iso_8859_6",
      "iso_8859_6_1987","iso_ir_127"] [
    "\u00a0\ufffd\ufffd\ufffd¤\ufffd\ufffd\ufffd\ufffd\ufffd\ufffd\ufffd،\u00ad\ufffd\ufffd",
    "\ufffd\ufffd\ufffd\ufffd\ufffd\ufffd\ufffd\ufffd\ufffd\ufffd\ufffd\u061b\ufffd\ufffd\ufffd\u061f",
    "\ufffd\u0621\u0622\u0623\u0624\u0625\u0626\u0627\u0628\u0629\u062a\u062b\u062c\u062d\u062e\u062f",
    "\u0630\u0631\u0632\u0633\u0634\u0635\u0636\u0637\u0638\u0639\u063a\ufffd\ufffd\ufffd\ufffd\ufffd",
    "\u0640\u0641\u0642\u0643\u0644\u0645\u0646\u0647\u0648\u0649\u064a\u064b\u064c\u064d\u064e\u064f",
    "\u0650\u0651\u0652\ufffd\ufffd\ufffd\ufffd\ufffd\ufffd\ufffd\ufffd\ufffd\ufffd\ufffd\ufffd\ufffd"],
  .ofGraphicRows "iso8859_7" ["csisolatingreek","ecma_118","elot_928","greek","greek8",
      "iso_8859_7","iso_8859_7_1987","iso_ir_126"] [
    "\u00a0‘’£€₯¦§¨©ͺ«¬\u00ad\ufffd―",
    "°±²³΄΅Ά·ΈΉΊ»Ό½ΎΏ",
    "ΐΑΒΓΔΕΖΗΘΙΚΛΜΝΞΟ",
    "ΠΡ\ufffdΣΤΥΦΧΨΩΪΫάέήί",
    "ΰαβγδεζηθικλμνξο",
    "πρςστυφχψωϊϋόύώ\ufffd"],
  .ofGraphicRows "iso8859_8" ["csisolatinhebrew","hebrew","iso_8859_8","iso_8859_8_1988",
      "iso_ir_138"] [
    "\u00a0\ufffd¢£¤¥¦§¨©×«¬\u00ad®¯",
    "°±²³´µ¶·¸¹÷»¼½¾\ufffd",
    "\ufffd\ufffd\ufffd\ufffd\ufffd\ufffd\ufffd\ufffd\ufffd\ufffd\ufffd\ufffd\ufffd\ufffd\ufffd\ufffd",
    "\ufffd\ufffd\ufffd\ufffd\ufffd\ufffd\ufffd\ufffd\ufffd\ufffd\ufffd\ufffd\ufffd\ufffd\ufffd‗",
    "\u05d0\u05d1\u05d2\u05d3\u05d4\u05d5\u05d6\u05d7\u05d8\u05d9\u05da\u05db\u05dc\u05dd\u05de\u05df",
    "\u05e0\u05e1\u05e2\u05e3\u05e4\u05e5\u05e6\u05e7\u05e8\u05e9\u05ea\ufffd\ufffd\u200e\u200f\ufffd"],
  .ofGraphicRows "iso8859_9" ["csisolatin5","iso_8859_9","iso_8859_9_1989","iso_ir_148","l5",
      "latin5"] [
    "\u00a0¡¢£¤¥¦§¨©ª«¬\u00ad®¯",
    "°±²³´µ¶·¸¹º»¼½¾¿",
    "ÀÁÂÃÄÅÆÇÈÉÊËÌÍÎÏ",
    "ĞÑÒÓÔÕÖ×ØÙÚÛÜİŞß",
    "àáâãäåæçèéêëìíîï",
    "ğñòóôõö÷øùúûüışÿ"],
  .ofGraphicRows "iso8859_10" ["csisolatin6","iso_8859_10","iso_8859_10_1992","iso_ir_157","l6",
      "latin6"] [
    "\u00a0ĄĒĢĪĨĶ§ĻĐŠŦŽ\u00adŪŊ",
    "°ąēģīĩķ·ļđšŧž―ūŋ",
    "ĀÁÂÃÄÅÆĮČÉĘËĖÍÎÏ",
    "ÐŅŌÓÔÕÖŨØŲÚÛÜÝÞß",
    "āáâãäåæįčéęëėíîï",
    "ðņōóôõöũøųúûüýþĸ"],
  .ofGraphicRows "iso8859_11" ["thai","iso_8859_11","iso_8859_11_2001"] [
    "\u00a0กขฃคฅฆงจฉชซฌญฎฏ",
    "ฐฑฒณดตถทธนบปผฝพฟ",
    "ภมยรฤลฦวศษสหฬอฮฯ",
    "ะ\u0e31าำ\u0e34\u0e35\u0e36\u0e37\u0e38\u0e39\u0e3a\ufffd\ufffd\ufffd\ufffd฿",
    "เแโใไๅๆ\u0e47\u0e48\u0e49\u0e4a\u0e4b\u0e4c\u0e4d\u0e4e๏",
    "๐๑๒๓๔๕๖๗๘๙๚๛\ufffd\ufffd\ufffd\ufffd"],
  .ofGraphicRows "iso8859_13" ["iso_8859_13","l7","latin7"] [
    "\u00a0”¢£¤„¦§Ø©Ŗ«¬\u00ad®Æ",
    "°±²³“µ¶·ø¹ŗ»¼½¾æ",
    "ĄĮĀĆÄÅĘĒČÉŹĖĢĶĪĻ",
    "ŠŃŅÓŌÕÖ×ŲŁŚŪÜŻŽß",
    "ąįāćäåęēčéźėģķīļ",
    "šńņóōõö÷ųłśūüżž’"],
  .ofGraphicRows "iso8859_14" ["iso_8859_14","iso_8859_14_1998","iso_celtic","iso_ir_199","l8",
      "latin8"] [
    "\u00a0Ḃḃ£ĊċḊ§Ẁ©ẂḋỲ\u00ad®Ÿ",
    "ḞḟĠġṀṁ¶ṖẁṗẃṠỳẄẅṡ",
    "ÀÁÂÃÄÅÆÇÈÉÊËÌÍÎÏ",
    "ŴÑÒÓÔÕÖṪØÙÚÛÜÝŶß",
    "àáâãäåæçèéêëìíîï",
    "ŵñòóôõöṫøùúûüýŷÿ"],
  .ofGraphicRows "iso8859_15" ["iso_8859_15","l9","latin9"] [
    "\u00a0¡¢£€¥Š§š©ª«¬\u00ad®¯",
    "°±²³Žµ¶·ž¹º»ŒœŸ¿",
    "ÀÁÂÃÄÅÆÇÈÉÊËÌÍÎÏ",
    "ÐÑÒÓÔÕÖ×ØÙÚÛÜÝÞß",
    "àáâãäåæçèéêëìíîï",
    "ðñòóôõö÷øùúûüýþÿ"],
  .ofGraphicRows "iso8859_16" ["iso_8859_16","iso_8859_16_2001","iso_ir_226","l10","latin10"] [
    "\u00a0ĄąŁ€„Š§š©Ș«Ź\u00adźŻ",
    "°±ČłŽ”¶·žčș»ŒœŸż",
    "ÀÁÂĂÄĆÆÇÈÉÊËÌÍÎÏ",
    "ĐŃÒÓÔŐÖŚŰÙÚÛÜĘȚß",
    "àáâăäćæçèéêëìíîï",
    "đńòóôőöśűùúûüęțÿ"]]

end GameText.Xml
