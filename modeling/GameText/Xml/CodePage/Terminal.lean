import GameText.Xml.CodePage

namespace GameText.Xml

-- Pages of text terminals, most of them with characters for drawing boxes.
def CodePage.terminal : List CodePage := [
  .ofRows "cp437" ["437","cspc8codepage437","ibm437"] [
    "ÇüéâäàåçêëèïîìÄÅ",
    "ÉæÆôöòûùÿÖÜ¢£¥₧ƒ",
    "áíóúñÑªº¿⌐¬½¼¡«»",
    "░▒▓│┤╡╢╖╕╣║╗╝╜╛┐",
    "└┴┬├─┼╞╟╚╔╩╦╠═╬╧",
    "╨╤╥╙╘╒╓╫╪┘┌█▄▌▐▀",
    "αßΓπΣσµτΦΘΩδ∞φε∩",
    "≡±≥≤⌠⌡÷≈°∙·√ⁿ²■\u00a0"],
  .ofRows "cp720" [] [
    "\x80\x81éâ\x84à\x86çêëèïî\x8d\x8e\x8f",
    "\x90\u0651\u0652ô¤\u0640ûù\u0621\u0622\u0623\u0624£\u0625\u0626\u0627",
    "\u0628\u0629\u062a\u062b\u062c\u062d\u062e\u062f\u0630\u0631\u0632\u0633\u0634\u0635«»",
    "░▒▓│┤╡╢╖╕╣║╗╝╜╛┐",
    "└┴┬├─┼╞╟╚╔╩╦╠═╬╧",
    "╨╤╥╙╘╒╓╫╪┘┌█▄▌▐▀",
    "\u0636\u0637\u0638\u0639\u063a\u0641µ\u0642\u0643\u0644\u0645\u0646\u0647\u0648\u0649\u064a",
    "≡\u064b\u064c\u064d\u064e\u064f\u0650≈°∙·√ⁿ²■\u00a0"],
  .ofRows "cp737" [] [
    "ΑΒΓΔΕΖΗΘΙΚΛΜΝΞΟΠ",
    "ΡΣΤΥΦΧΨΩαβγδεζηθ",
    "ικλμνξοπρσςτυφχψ",
    "░▒▓│┤╡╢╖╕╣║╗╝╜╛┐",
    "└┴┬├─┼╞╟╚╔╩╦╠═╬╧",
    "╨╤╥╙╘╒╓╫╪┘┌█▄▌▐▀",
    "ωάέήϊίόύϋώΆΈΉΊΌΎ",
    "Ώ±≥≤ΪΫ÷≈°∙·√ⁿ²■\u00a0"],
  .ofRows "cp775" ["775","cspc775baltic","ibm775"] [
    "ĆüéāäģåćłēŖŗīŹÄÅ",
    "ÉæÆōöĢ¢ŚśÖÜø£Ø×¤",
    "ĀĪóŻżź”¦©®¬½¼Ł«»",
    "░▒▓│┤ĄČĘĖ╣║╗╝ĮŠ┐",
    "└┴┬├─┼ŲŪ╚╔╩╦╠═╬Ž",
    "ąčęėįšųūž┘┌█▄▌▐▀",
    "ÓßŌŃõÕµńĶķĻļņĒŅ’",
    "\u00ad±“¾¶§÷„°∙·¹³²■\u00a0"],
  .ofRows "cp850" ["850","cspc850multilingual","ibm850"] [
    "ÇüéâäàåçêëèïîìÄÅ",
    "ÉæÆôöòûùÿÖÜø£Ø×ƒ",
    "áíóúñÑªº¿®¬½¼¡«»",
    "░▒▓│┤ÁÂÀ©╣║╗╝¢¥┐",
    "└┴┬├─┼ãÃ╚╔╩╦╠═╬¤",
    "ðÐÊËÈıÍÎÏ┘┌█▄¦Ì▀",
    "ÓßÔÒõÕµþÞÚÛÙýÝ¯´",
    "\u00ad±‗¾¶§÷¸°¨·¹³²■\u00a0"],
  .ofRows "cp852" ["852","cspcp852","ibm852"] [
    "ÇüéâäůćçłëŐőîŹÄĆ",
    "ÉĹĺôöĽľŚśÖÜŤťŁ×č",
    "áíóúĄąŽžĘę¬źČş«»",
    "░▒▓│┤ÁÂĚŞ╣║╗╝Żż┐",
    "└┴┬├─┼Ăă╚╔╩╦╠═╬¤",
    "đĐĎËďŇÍÎě┘┌█▄ŢŮ▀",
    "ÓßÔŃńňŠšŔÚŕŰýÝţ´",
    "\u00ad˝˛ˇ˘§÷¸°¨˙űŘř■\u00a0"],
  .ofRows "cp855" ["855","csibm855","ibm855"] [
    "ђЂѓЃёЁєЄѕЅіІїЇјЈ",
    "љЉњЊћЋќЌўЎџЏюЮъЪ",
    "аАбБцЦдДеЕфФгГ«»",
    "░▒▓│┤хХиИ╣║╗╝йЙ┐",
    "└┴┬├─┼кК╚╔╩╦╠═╬¤",
    "лЛмМнНоОп┘┌█▄Пя▀",
    "ЯрРсСтТуУжЖвВьЬ№",
    "\u00adыЫзЗшШэЭщЩчЧ§■\u00a0"],
  .ofRows "cp856" [] [
    "\u05d0\u05d1\u05d2\u05d3\u05d4\u05d5\u05d6\u05d7\u05d8\u05d9\u05da\u05db\u05dc\u05dd\u05de\u05df",
    "\u05e0\u05e1\u05e2\u05e3\u05e4\u05e5\u05e6\u05e7\u05e8\u05e9\u05ea\ufffd£\ufffd×\ufffd",
    "\ufffd\ufffd\ufffd\ufffd\ufffd\ufffd\ufffd\ufffd\ufffd®¬½¼\ufffd«»",
    "░▒▓│┤\ufffd\ufffd\ufffd©╣║╗╝¢¥┐",
    "└┴┬├─┼\ufffd\ufffd╚╔╩╦╠═╬¤",
    "\ufffd\ufffd\ufffd\ufffd\ufffd\ufffd\ufffd\ufffd\ufffd┘┌█▄¦\ufffd▀",
    "\ufffd\ufffd\ufffd\ufffd\ufffd\ufffdµ\ufffd\ufffd\ufffd\ufffd\ufffd\ufffd\ufffd¯´",
    "\u00ad±‗¾¶§÷¸°¨·¹³²■\u00a0"],
  .ofRows "cp857" ["857","csibm857","ibm857"] [
    "ÇüéâäàåçêëèïîıÄÅ",
    "ÉæÆôöòûùİÖÜø£ØŞş",
    "áíóúñÑĞğ¿®¬½¼¡«»",
    "░▒▓│┤ÁÂÀ©╣║╗╝¢¥┐",
    "└┴┬├─┼ãÃ╚╔╩╦╠═╬¤",
    "ºªÊËÈ\ufffdÍÎÏ┘┌█▄¦Ì▀",
    "ÓßÔÒõÕµ\ufffd×ÚÛÙìÿ¯´",
    "\u00ad±\ufffd¾¶§÷¸°¨·¹³²■\u00a0"],
  .ofRows "cp858" ["858","csibm858","ibm858"] [
    "ÇüéâäàåçêëèïîìÄÅ",
    "ÉæÆôöòûùÿÖÜø£Ø×ƒ",
    "áíóúñÑªº¿®¬½¼¡«»",
    "░▒▓│┤ÁÂÀ©╣║╗╝¢¥┐",
    "└┴┬├─┼ãÃ╚╔╩╦╠═╬¤",
    "ðÐÊËÈ€ÍÎÏ┘┌█▄¦Ì▀",
    "ÓßÔÒõÕµþÞÚÛÙýÝ¯´",
    "\u00ad±‗¾¶§÷¸°¨·¹³²■\u00a0"],
  .ofRows "cp860" ["860","csibm860","ibm860"] [
    "ÇüéâãàÁçêÊèÍÔìÃÂ",
    "ÉÀÈôõòÚùÌÕÜ¢£Ù₧Ó",
    "áíóúñÑªº¿Ò¬½¼¡«»",
    "░▒▓│┤╡╢╖╕╣║╗╝╜╛┐",
    "└┴┬├─┼╞╟╚╔╩╦╠═╬╧",
    "╨╤╥╙╘╒╓╫╪┘┌█▄▌▐▀",
    "αßΓπΣσµτΦΘΩδ∞φε∩",
    "≡±≥≤⌠⌡÷≈°∙·√ⁿ²■\u00a0"],
  .ofRows "cp861" ["861","cp_is","csibm861","ibm861"] [
    "ÇüéâäàåçêëèÐðÞÄÅ",
    "ÉæÆôöþûÝýÖÜø£Ø₧ƒ",
    "áíóúÁÍÓÚ¿⌐¬½¼¡«»",
    "░▒▓│┤╡╢╖╕╣║╗╝╜╛┐",
    "└┴┬├─┼╞╟╚╔╩╦╠═╬╧",
    "╨╤╥╙╘╒╓╫╪┘┌█▄▌▐▀",
    "αßΓπΣσµτΦΘΩδ∞φε∩",
    "≡±≥≤⌠⌡÷≈°∙·√ⁿ²■\u00a0"],
  .ofRows "cp862" ["862","cspc862latinhebrew","ibm862"] [
    "\u05d0\u05d1\u05d2\u05d3\u05d4\u05d5\u05d6\u05d7\u05d8\u05d9\u05da\u05db\u05dc\u05dd\u05de\u05df",
    "\u05e0\u05e1\u05e2\u05e3\u05e4\u05e5\u05e6\u05e7\u05e8\u05e9\u05ea¢£¥₧ƒ",
    "áíóúñÑªº¿⌐¬½¼¡«»",
    "░▒▓│┤╡╢╖╕╣║╗╝╜╛┐",
    "└┴┬├─┼╞╟╚╔╩╦╠═╬╧",
    "╨╤╥╙╘╒╓╫╪┘┌█▄▌▐▀",
    "αßΓπΣσµτΦΘΩδ∞φε∩",
    "≡±≥≤⌠⌡÷≈°∙·√ⁿ²■\u00a0"],
  .ofRows "cp863" ["863","csibm863","ibm863"] [
    "ÇüéâÂà¶çêëèïî‗À§",
    "ÉÈÊôËÏûù¤ÔÜ¢£ÙÛƒ",
    "¦´óú¨¸³¯Î⌐¬½¼¾«»",
    "░▒▓│┤╡╢╖╕╣║╗╝╜╛┐",
    "└┴┬├─┼╞╟╚╔╩╦╠═╬╧",
    "╨╤╥╙╘╒╓╫╪┘┌█▄▌▐▀",
    "αßΓπΣσµτΦΘΩδ∞φε∩",
    "≡±≥≤⌠⌡÷≈°∙·√ⁿ²■\u00a0"],
  .ofRows "cp865" ["865","csibm865","ibm865"] [
    "ÇüéâäàåçêëèïîìÄÅ",
    "ÉæÆôöòûùÿÖÜø£Ø₧ƒ",
    "áíóúñÑªº¿⌐¬½¼¡«¤",
    "░▒▓│┤╡╢╖╕╣║╗╝╜╛┐",
    "└┴┬├─┼╞╟╚╔╩╦╠═╬╧",
    "╨╤╥╙╘╒╓╫╪┘┌█▄▌▐▀",
    "αßΓπΣσµτΦΘΩδ∞φε∩",
    "≡±≥≤⌠⌡÷≈°∙·√ⁿ²■\u00a0"],
  .ofRows "cp866" ["866","csibm866","ibm866"] [
    "АБВГДЕЖЗИЙКЛМНОП",
    "РСТУФХЦЧШЩЪЫЬЭЮЯ",
    "абвгдежзийклмноп",
    "░▒▓│┤╡╢╖╕╣║╗╝╜╛┐",
    "└┴┬├─┼╞╟╚╔╩╦╠═╬╧",
    "╨╤╥╙╘╒╓╫╪┘┌█▄▌▐▀",
    "рстуфхцчшщъыьэюя",
    "ЁёЄєЇїЎў°∙·√№¤■\u00a0"],
  .ofRows "cp869" ["869","cp_gr","csibm869","ibm869"] [
    "\ufffd\ufffd\ufffd\ufffd\ufffd\ufffdΆ\ufffd·¬¦‘’Έ―Ή",
    "ΊΪΌ\ufffd\ufffdΎΫ©Ώ²³ά£έήί",
    "ϊΐόύΑΒΓΔΕΖΗ½ΘΙ«»",
    "░▒▓│┤ΚΛΜΝ╣║╗╝ΞΟ┐",
    "└┴┬├─┼ΠΡ╚╔╩╦╠═╬Σ",
    "ΤΥΦΧΨΩαβγ┘┌█▄δε▀",
    "ζηθικλμνξοπρσςτ΄",
    "\u00ad±υφχ§ψ΅°¨ωϋΰώ■\u00a0"],
  .ofGraphicRows "cp1006" [] [
    "\u00a0۰۱۲۳۴۵۶۷۸۹،\u061b\u00ad\u061f\ufe81",
    "\ufe8d\ufe8e\ufe8e\ufe8f\ufe91\ufb56\ufb58\ufe93\ufe95\ufe97\ufb66\ufb68\ufe99\ufe9b\ufe9d\ufe9f",
    "\ufb7a\ufb7c\ufea1\ufea3\ufea5\ufea7\ufea9\ufb84\ufeab\ufead\ufb8c\ufeaf\ufb8a\ufeb1\ufeb3\ufeb5",
    "\ufeb7\ufeb9\ufebb\ufebd\ufebf\ufec1\ufec5\ufec9\ufeca\ufecb\ufecc\ufecd\ufece\ufecf\ufed0\ufed1",
    "\ufed3\ufed5\ufed7\ufed9\ufedb\ufb92\ufb94\ufedd\ufedf\ufee0\ufee1\ufee3\ufb9e\ufee5\ufee7\ufe85",
    "\ufeed\ufba6\ufba8\ufba9\ufbaa\ufe80\ufe89\ufe8a\ufe8b\ufef1\ufef2\ufef3\ufbb0\ufbae\ufe7c\ufe7d"],
  .ofRows "cp1125" ["1125","ibm1125","cp866u","ruscii"] [
    "АБВГДЕЖЗИЙКЛМНОП",
    "РСТУФХЦЧШЩЪЫЬЭЮЯ",
    "абвгдежзийклмноп",
    "░▒▓│┤╡╢╖╕╣║╗╝╜╛┐",
    "└┴┬├─┼╞╟╚╔╩╦╠═╬╧",
    "╨╤╥╙╘╒╓╫╪┘┌█▄▌▐▀",
    "рстуфхцчшщъыьэюя",
    "ЁёҐґЄєІіЇї·√№¤■\u00a0"]]

end GameText.Xml
