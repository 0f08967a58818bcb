import LedgerScript.Text.Canonical

/-!
# Compatibility decompositions

Characters of Unicode 15.0 that are variants of others: ligatures, letters of other shapes, fractions.  Some are
variants of one character; the remaining ones stand for a sequence.
-/

namespace LedgerScript.Text

/-- Variants of single characters, each row with the characters that they are variants of. -/
def variants : List (Nat × List Char) :=
  List.map (fun (first, originals) => (first, originals.toList))
    [(0xA0, " "), (0xAA, "a"), (0xB2, "23"), (0xB5, "μ"), (0xB9, "1o"), (0x17F, "s"), (0x2B0, "hɦjrɹɻʁwy"),
     (0x2E0, "ɣlsxʕ"), (0x3D0, "βθΥ"), (0x3D5, "φπ"), (0x3F0, "κρς"), (0x3F4, "Θε"), (0x3F9, "Σ"), (0xF0C, "་"),
     (0x10FC, "ნ"), (0x1D2C, "AÆB"), (0x1D30, "DEƎGHIJKLMN"), (0x1D3C, "OȢPRTUWaɐɑᴂbdeəɛɜg"),
     (0x1D4F, "kmŋoɔᴖᴗptuᴝɯvᴥβγδφχiruvβγρφχ"), (0x1D78, "н"), (0x1D9B, "ɒcɕðɜfɟɡɥɨɩɪᵻʝɭᶅʟɱɰɲɳɴɵɸʂʃƫʉʊᴜʋʌzʐʑʒθ"),
     (0x2002, "         "), (0x2011, "‐"), (0x2024, "."), (0x202F, " "), (0x205F, " "), (0x2070, "0i"),
     (0x2074, "456789+−=()n0123456789+−=()"), (0x2090, "aeoxəhklmnpst"), (0x2102, "C"), (0x2107, "Ɛ"),
     (0x210A, "gHHHhħIILl"), (0x2115, "N"), (0x2119, "PQRRR"), (0x2124, "Z"), (0x2128, "Z"), (0x212C, "BC"),
     (0x212F, "eEF"), (0x2133, "Moאבגדi"), (0x213C, "πγΓΠ∑"), (0x2145, "Ddeij"), (0x2160, "I"), (0x2164, "V"),
     (0x2169, "X"), (0x216C, "LCDMi"), (0x2174, "v"), (0x2179, "x"), (0x217C, "lcdm"), (0x2460, "123456789"),
     (0x24B6, "ABCDEFGHIJKLMNOPQRSTUVWXYZabcdefghijklmnopqrstuvwxyz0"), (0x2C7C, "jV"), (0x2D6F, "ⵡ"), (0x2E9F, "母"),
     (0x2EF3, "龟"),
     (0x2F00, "一丨丶丿乙亅二亠人儿入八冂冖冫几凵刀力勹匕匚匸十卜卩厂厶又口囗土士夂夊夕大女子宀寸小尢尸屮山"),
     (0x2F2E, "巛工己巾干幺广廴廾弋弓彐彡彳心戈戶手支攴文斗斤方无日曰月木欠止歹殳毋比毛氏气水火爪父爻爿片牙"),
     (0x2F5C, "牛犬玄玉瓜瓦甘生用田疋疒癶白皮皿目矛矢石示禸禾穴立竹米糸缶网羊羽老而耒耳聿肉臣自至臼舌舛舟艮"),
     (0x2F8A, "色艸虍虫血行衣襾見角言谷豆豕豸貝赤走足身車辛辰辵邑酉釆里金長門阜隶隹雨靑非面革韋韭音頁風飛食"),
     (0x2FB8, "首香馬骨高髟鬥鬯鬲鬼魚鳥鹵鹿麥麻黃黍黑黹黽鼎鼓鼠鼻齊齒龍龜龠"), (0x3000, " "), (0x3036, "〒"),
     (0x3038, "十卄卅"),
     (0x3131, "ᄀᄁᆪᄂᆬᆭᄃᄄᄅᆰᆱᆲᆳᆴᆵᄚᄆᄇᄈᄡᄉᄊᄋᄌᄍᄎᄏᄐᄑ하ᅢᅣᅤᅥᅦᅧᅨᅩᅪᅫᅬᅭᅮᅯᅰᅱᅲᅳᅴᅵᅠᄔᄕᇇᇈᇌᇎᇓᇗᇙᄜᇝᇟᄝᄞ"),
     (0x3173, "ᄠᄢᄣᄧᄩᄫᄬᄭᄮᄯᄲᄶᅀᅇᅌᇱᇲᅗᅘᅙᆄᆅᆈᆑᆒᆔᆞᆡ"), (0x3192, "一二三四上中下甲乙丙丁天地人"),
     (0x3244, "問幼文箏"), (0x3260, "ᄀᄂᄃᄅᄆᄇᄉᄋᄌᄎᄏᄐᄑᄒ"),
     (0x3280, "一二三四五六七八九十月火水木金土日株有社名特財祝労秘男女適優印注項休写正上中下左右医宗学監企"),
     (0x32AE, "資協夜"),
     (0x32D0, "アイウエオカキクケコサシスセソタチツテトナニヌネノハヒフヘホマミムメモヤユヨラリルレロワヰヱ"),
     (0x32FE, "ヲ"), (0xA69C, "ъь"), (0xA770, "ꝯ"), (0xA7F2, "CFQ"), (0xA7F8, "Ħœ"), (0xAB5C, "ꜧꬷɫꭒ"), (0xAB69, "ʍ"),
     (0xFB20, "עאדהכלםרת+"),
     (0xFB50, "ٱٱٻٻٻٻپپپپڀڀڀڀٺٺٺٺٿٿٿٿٹٹٹٹڤڤڤڤڦڦڦڦڄڄڄڄڃڃڃڃچچچچڇڇڇڇڍڍڌڌڎڎڈڈژژڑڑککککگگگگڳڳڳڳڱڱڱڱںںڻڻڻڻۀۀہہہہھھ"),
     (0xFBAC, "ھھےےۓۓ"), (0xFBD3, "ڭڭڭڭۇۇۆۆۈۈٷۋۋۅۅۉۉېېېېىى"), (0xFBFC, "یییی"), (0xFE10, ",、。:;!?〖〗…"),
     (0xFE30, "‥—–__()\x7b\x7d〔〕【】《》〈〉「」『』"), (0xFE47, "[]‾‾‾‾___,、."),
     (0xFE54, ";:?!—()\x7b\x7d〔〕#&*+-<>="), (0xFE68, "\x5c$%@"),
     (0xFE80, "ءآآأأؤؤإإئئئئااببببةةتتتتثثثثججججححححخخخخددذذررززسسسسششششصصصصضضضضططططظظظظععععغغغغففففققققككك"),
     (0xFEDC, "كللللممممننننههههووىىيييي"),
     (0xFF01, "!\x22#$%&\x27()*+,-./0123456789:;<=>?@ABCDEFGHIJKLMNOPQRSTUVWXYZ[\x5c]^_\x60abcdefghijklmnop"),
     (0xFF51, "qrstuvwxyz\x7b|\x7d~⦅⦆。「」、・ヲァィゥェォャュョッーアイウエオカキクケコサシスセソタチツテ"),
     (0xFF84, "トナニヌネノハヒフヘホマミムメモヤユヨラリルレロワン\u3099\u309aㅤㄱㄲㄳㄴㄵㄶㄷㄸㄹㄺㄻㄼㄽ"),
     (0xFFAE, "ㄾㄿㅀㅁㅂㅃㅄㅅㅆㅇㅈㅉㅊㅋㅌㅍㅎ"), (0xFFC2, "ㅏㅐㅑㅒㅓㅔ"), (0xFFCA, "ㅕㅖㅗㅘㅙㅚ"),
     (0xFFD2, "ㅛㅜㅝㅞㅟㅠ"), (0xFFDA, "ㅡㅢㅣ"), (0xFFE0, "¢£¬¯¦¥₩"), (0xFFE8, "│←↑→↓■○"), (0x10781, "ːˑæʙɓ"),
     (0x10787, "ʣꭦʥʤɖɗᶑɘɞʩɤɢɠʛħʜɧʄʪʫɬ𝼄ꞎɮ𝼅ʎ𝼆øɶɷqɺ𝼈ɽɾʀʨʦꭧʧʈⱱ"), (0x107B2, "ʏʡʢʘǀǁǂ𝼊𝼞"),
     (0x1D400, "ABCDEFGHIJKLMNOPQRSTUVWXYZabcdefghijklmnopqrstuvwxyzABCDEFGHIJKLMNOPQRSTUVWXYZabcdefg"),
     (0x1D456, "ijklmnopqrstuvwxyzABCDEFGHIJKLMNOPQRSTUVWXYZabcdefghijklmnopqrstuvwxyzA"), (0x1D49E, "CD"),
     (0x1D4A2, "G"), (0x1D4A5, "JK"), (0x1D4A9, "NOPQ"), (0x1D4AE, "STUVWXYZabcd"), (0x1D4BB, "f"),
     (0x1D4BD, "hijklmn"), (0x1D4C5, "pqrstuvwxyzABCDEFGHIJKLMNOPQRSTUVWXYZabcdefghijklmnopqrstuvwxyzAB"),
     (0x1D507, "DEFG"), (0x1D50D, "JKLMNOPQ"), (0x1D516, "STUVWXY"), (0x1D51E, "abcdefghijklmnopqrstuvwxyzAB"),
     (0x1D53B, "DEFG"), (0x1D540, "IJKLM"), (0x1D546, "O"), (0x1D54A, "STUVWXY"),
     (0x1D552, "abcdefghijklmnopqrstuvwxyzABCDEFGHIJKLMNOPQRSTUVWXYZabcdefghijklmnopqrstuvwxyzABCDEFGHIJKLMN"),
     (0x1D5AE, "OPQRSTUVWXYZabcdefghijklmnopqrstuvwxyzABCDEFGHIJKLMNOPQRSTUVWXYZabcdefghijklmnopqrstuvwxyzAB"),
     (0x1D60A, "CDEFGHIJKLMNOPQRSTUVWXYZabcdefghijklmnopqrstuvwxyzABCDEFGHIJKLMNOPQRSTUVWXYZabcdefghijklmnop"),
     (0x1D666, "qrstuvwxyzABCDEFGHIJKLMNOPQRSTUVWXYZabcdefghijklmnopqrstuvwxyzıȷ"),
     (0x1D6A8, "ΑΒΓΔΕΖΗΘΙΚΛΜΝΞΟΠΡϴΣΤΥΦΧΨΩ∇αβγδεζηθικλμνξοπρςστυφχψω∂ϵϑϰϕϱϖΑΒΓΔΕΖΗΘΙΚΛΜΝΞΟΠΡϴΣΤΥΦΧΨΩ∇αβγδεζηθ"),
     (0x1D704, "ικλμνξοπρςστυφχψω∂ϵϑϰϕϱϖΑΒΓΔΕΖΗΘΙΚΛΜΝΞΟΠΡϴΣΤΥΦΧΨΩ∇αβγδεζηθικλμνξοπρςστυφχψω∂ϵϑϰϕϱϖΑΒΓΔΕΖΗΘΙΚ"),
     (0x1D760, "ΛΜΝΞΟΠΡϴΣΤΥΦΧΨΩ∇αβγδεζηθικλμνξοπρςστυφχψω∂ϵϑϰϕϱϖΑΒΓΔΕΖΗΘΙΚΛΜΝΞΟΠΡϴΣΤΥΦΧΨΩ∇αβγδεζηθικλμνξοπρς"),
     (0x1D7BC, "στυφχψω∂ϵϑϰϕϱϖϜϝ"), (0x1D7CE, "01234567890123456789012345678901234567890123456789"),
     (0x1E030, "абвгдежзиклмопрстуфхцчшыэюꚉәіјөүӏабвгдежзиклопсуфхцчшъыґіѕџҫꙑұ"), (0x1EE00, "ابجد"),
     (0x1EE05, "وزحطيكلمنسعفصقرشتثخذضظغٮںڡٯ"), (0x1EE21, "بج"), (0x1EE24, "ه"), (0x1EE27, "ح"),
     (0x1EE29, "يكلمنسعفصق"), (0x1EE34, "شتثخ"), (0x1EE39, "ض"), (0x1EE3B, "غ"), (0x1EE42, "ج"), (0x1EE47, "ح"),
     (0x1EE49, "ي"), (0x1EE4B, "ل"), (0x1EE4D, "نسع"), (0x1EE51, "صق"), (0x1EE54, "ش"), (0x1EE57, "خ"),
     (0x1EE59, "ض"), (0x1EE5B, "غ"), (0x1EE5D, "ں"), (0x1EE5F, "ٯ"), (0x1EE61, "بج"), (0x1EE64, "ه"),
     (0x1EE67, "حطيك"), (0x1EE6C, "منسعفصق"), (0x1EE74, "شتثخ"), (0x1EE79, "ضظغٮ"), (0x1EE7E, "ڡ"),
     (0x1EE80, "ابجدهوزحطي"), (0x1EE8B, "لمنسعفصقرشتثخذضظغ"), (0x1EEA1, "بجد"), (0x1EEA5, "وزحطي"),
     (0x1EEAB, "لمنسعفصقرشتثخذضظغ"), (0x1F12B, "CR"), (0x1F130, "ABCDEFGHIJKLMNOPQRSTUVWXYZ"), (0x1F202, "サ"),
     (0x1F210, "手字双デ二多解天交映無料前後再新初終生販声吹演投捕一三遊左中右指走打禁空合満有月申割営配"),
     (0x1F250, "得可"), (0x1FBF0, "0123456789")]

/-- Characters that are compatible with a sequence, each row with the sequences between bars. -/
def sequences : List (Nat × List String) :=
  List.map (fun (first, texts) => (first, texts.splitOn "|"))
    [(0xA8, " \u0308"), (0xAF, " \u0304"), (0xB4, " \u0301"), (0xB8, " \u0327"), (0xBC, "1⁄4|1⁄2|3⁄4"),
     (0x132, "IJ|ij"), (0x13F, "L·|l·"), (0x149, "ʼn"), (0x1C4, "DŽ|Dž|dž|LJ|Lj|lj|NJ|Nj|nj"), (0x1F1, "DZ|Dz|dz"),
     (0x2D8, " \u0306| \u0307| \u030a| \u0328| \u0303| \u030b"), (0x37A, " \u0345"), (0x384, " \u0301"),
     (0x587, "եւ"), (0x675, "اٴ|وٴ|ۇٴ|يٴ"), (0xE33, "\u0e4dา"), (0xEB3, "\u0ecdາ"), (0xEDC, "ຫນ|ຫມ"),
     (0xF77, "\u0fb2\u0f81"), (0xF79, "\u0fb3\u0f81"), (0x1E9A, "aʾ"), (0x1FBD, " \u0313"),
     (0x1FBF, " \u0313| \u0342"), (0x1FFE, " \u0314"), (0x2017, " \u0333"), (0x2025, "..|..."), (0x2033, "′′|′′′"),
     (0x2036, "‵‵|‵‵‵"), (0x203C, "!!"), (0x203E, " \u0305"), (0x2047, "??|?!|!?"), (0x2057, "′′′′"),
     (0x20A8, "Rs"), (0x2100, "a/c|a/s"), (0x2103, "°C"), (0x2105, "c/o|c/u"), (0x2109, "°F"), (0x2116, "No"),
     (0x2120, "SM|TEL|TM"), (0x213B, "FAX"),
     (0x2150, "1⁄7|1⁄9|1⁄10|1⁄3|2⁄3|1⁄5|2⁄5|3⁄5|4⁄5|1⁄6|5⁄6|1⁄8|3⁄8|5⁄8|7⁄8|1⁄"), (0x2161, "II|III|IV"),
     (0x2165, "VI|VII|VIII|IX"), (0x216A, "XI|XII"), (0x2171, "ii|iii|iv"), (0x2175, "vi|vii|viii|ix"),
     (0x217A, "xi|xii"), (0x2189, "0⁄3"), (0x222C, "∫∫|∫∫∫"), (0x222F, "∮∮|∮∮∮"),
     (0x2469, "10|11|12|13|14|15|16|17|18|19|20|(1)|(2)|(3)"),
     (0x2477, "(4)|(5)|(6)|(7)|(8)|(9)|(10)|(11)|(12)|(13)|(14)|(15)"),
     (0x2483, "(16)|(17)|(18)|(19)|(20)|1.|2.|3.|4.|5.|6.|7.|8."),
     (0x2490, "9.|10.|11.|12.|13.|14.|15.|16.|17.|18.|19.|20.|(a)"),
     (0x249D, "(b)|(c)|(d)|(e)|(f)|(g)|(h)|(i)|(j)|(k)|(l)|(m)|(n)"),
     (0x24AA, "(o)|(p)|(q)|(r)|(s)|(t)|(u)|(v)|(w)|(x)|(y)|(z)"), (0x2A0C, "∫∫∫∫"), (0x2A74, "::=|==|==="),
     (0x309B, " \u3099| \u309a"), (0x309F, "より"), (0x30FF, "コト"),
     (0x3200, "(ᄀ)|(ᄂ)|(ᄃ)|(ᄅ)|(ᄆ)|(ᄇ)|(ᄉ)|(ᄋ)|(ᄌ)|(ᄎ)|(ᄏ)|(ᄐ)|(ᄑ)|(ᄒ)|(가)|(나)|(다)|(라)|(마)|(바)|(사)"),
     (0x3215, "(아)|(자)|(차)|(카)|(타)|(파)|(하)|(주)|(오전)|(오후)"),
     (0x3220, "(一)|(二)|(三)|(四)|(五)|(六)|(七)|(八)|(九)|(十)|(月)|(火)|(水)|(木)|(金)|(土)|(日)|(株)|(有)|(社)|(名)|(特)"),
     (0x3236, "(財)|(祝)|(労)|(代)|(呼)|(学)|(監)|(企)|(資)|(協)|(祭)|(休)|(自)|(至)"),
     (0x3250, "PTE|21|22|23|24|25|26|27|28|29|30|31|32|33|34|35"),
     (0x326E, "가|나|다|라|마|바|사|아|자|차|카|타|파|하|참고|주의|우"),
     (0x32B1, "36|37|38|39|40|41|42|43|44|45|46|47|48|49|50|1月|2月|3月|4月|5月|6月|7月|8月|9月|10月|11月|12月"),
     (0x32CC, "Hg|erg|eV|LTD"), (0x32FF, "令和|アパート|アルファ|アンペア|アール|イニング|インチ|ウォン|エスクード|エーカー|オンス|オーム|カイリ|カラット|カロリー|ガロン"),
     (0x330F, "ガンマ|ギガ|ギニー|キュリー|ギルダー|キロ|キログラム|キロメートル|キロワット|グラム|グラムトン|クルゼイロ|クローネ|ケース|コルナ"),
     (0x331E, "コーポ|サイクル|サンチーム|シリング|センチ|セント|ダース|デシ|ドル|トン|ナノ|ノット|ハイツ|パーセント|パーツ|バーレル"),
     (0x332E, "ピアストル|ピクル|ピコ|ビル|ファラッド|フィート|ブッシェル|フラン|ヘクタール|ペソ|ペニヒ|ヘルツ|ペンス|ページ|ベータ|ポイント"),
     (0x333E, "ボルト|ホン|ポンド|ホール|ホーン|マイクロ|マイル|マッハ|マルク|マンション|ミクロン|ミリ|ミリバール|メガ|メガトン|メートル|ヤード"),
     (0x334F, "ヤール|ユアン|リットル|リラ|ルピー|ルーブル|レム|レントゲン|ワット|0点|1点|2点|3点|4点|5点|6点|7点|8点|9点|10点"),
     (0x3363, "11点|12点|13点|14点|15点|16点|17点|18点|19点|20点|21点|22点|23点|24点|hPa|da|AU|bar|oV|pc|dm|dm²|dm³|IU"),
     (0x337B, "平成|昭和|大正|明治|株式会社|pA|nA|μA|mA|kA|KB|MB|GB|cal|kcal|pF|nF|μF|μg|mg|kg|Hz|kHz|MHz|GHz|THz|μℓ"),
     (0x3396, "mℓ|dℓ|kℓ|fm|nm|μm|mm|cm|km|mm²|cm²|m²|km²|mm³"),
     (0x33A4, "cm³|m³|km³|m∕s|m∕s²|Pa|kPa|MPa|GPa|rad|rad∕s|rad∕s²"),
     (0x33B0, "ps|ns|μs|ms|pV|nV|μV|mV|kV|MV|pW|nW|μW|mW|kW|MW|kΩ|MΩ|a.m.|Bq|cc|cd|C∕kg|Co.|dB|Gy|ha|HP|in"),
     (0x33CD, "KK|KM|kt|lm|ln|log|lx|mb|mil|mol|PH|p.m.|PPM|PR|sr|Sv|Wb|V∕m|A∕m|1日|2日|3日|4日|5日|6日|7日|8日"),
     (0x33E8, "9日|10日|11日|12日|13日|14日|15日|16日|17日|18日|19日|20日|21日|22日|23日|24日|25日|26日|27日|28日|29日|30日"),
     (0x33FE, "31日|gal"), (0xFB00, "ff|fi|fl|ffi|ffl|ſt|st"), (0xFB13, "մն|մե|մի|վն|մխ"), (0xFB4F, "אל"),
     (0xFBEA, "ئا|ئا|ئە|ئە|ئو|ئو|ئۇ|ئۇ|ئۆ|ئۆ|ئۈ|ئۈ|ئې|ئې|ئې|ئى|ئى|ئى"),
     (0xFC00, "ئج|ئح|ئم|ئى|ئي|بج|بح|بخ|بم|بى|بي|تج|تح|تخ|تم|تى|تي|ثج|ثم|ثى|ثي|جح|جم|حج|حم|خج|خح|خم|سج|سح"),
     (0xFC1E, "سخ|سم|صح|صم|ضج|ضح|ضخ|ضم|طح|طم|ظم|عج|عم|غج|غم|فج|فح|فخ|فم|فى|في|قح|قم|قى|قي|كا|كج|كح|كخ|كل"),
     (0xFC3C, "كم|كى|كي|لج|لح|لخ|لم|لى|لي|مج|مح|مخ|مم|مى|مي|نج|نح|نخ|نم|نى|ني|هج|هم|هى|هي|يج|يح|يخ|يم|يى"),
     (0xFC5A, "يي|ذ\u0670|ر\u0670|ى\u0670| \u064c\u0651| \u064d\u0651| \u064e\u0651"),
     (0xFC61, " \u064f\u0651| \u0650\u0651| \u0651\u0670|ئر|ئز|ئم|ئن|ئى|ئي"),
     (0xFC6A, "بر|بز|بم|بن|بى|بي|تر|تز|تم|تن|تى|تي|ثر|ثز|ثم|ثن|ثى|ثي|فى|في|قى|قي|كا|كل|كم|كى|كي|لم|لى|لي"),
     (0xFC88, "ما|مم|نر|نز|نم|نن|نى|ني|ى\u0670|ير|يز|يم|ين|يى|يي|ئج|ئح|ئخ|ئم|ئه|بج|بح|بخ|بم|به|تج|تح|تخ|تم"),
     (0xFCA5, "ته|ثم|جح|جم|حج|حم|خج|خم|سج|سح|سخ|سم|صح|صخ|صم|ضج|ضح|ضخ|ضم|طح|ظم|عج|عم|غج|غم|فج|فح|فخ|فم|قح"),
     (0xFCC3, "قم|كج|كح|كخ|كل|كم|لج|لح|لخ|لم|له|مج|مح|مخ|مم|نج|نح|نخ|نم|نه|هج|هم|ه\u0670|يج|يح|يخ|يم|يه|ئم"),
     (0xFCE0, "ئه|بم|به|تم|ته|ثم|ثه|سم|سه|شم|شه|كل|كم|لم|نم"),
     (0xFCEF, "نه|يم|يه|ـ\u064e\u0651|ـ\u064f\u0651|ـ\u0650\u0651|طى|طي|عى"),
     (0xFCF8, "عي|غى|غي|سى|سي|شى|شي|حى|حي|جى|جي|خى|خي|صى|صي|ضى|ضي|شج|شح|شخ|شم|شر|سر|صر|ضر|طى|طي|عى|عي|غى"),
     (0xFD16, "غي|سى|سي|شى|شي|حى|حي|جى|جي|خى|خي|صى|صي|ضى|ضي|شج|شح|شخ|شم|شر|سر|صر|ضر|شج|شح|شخ|شم|سه|شه|طم"),
     (0xFD34, "سج|سح|سخ|شج|شح|شخ|طم|ظم|ا\u064b|ا\u064b"),
     (0xFD50, "تجم|تحج|تحج|تحم|تخم|تمج|تمح|تمخ|جمح|جمح|حمي|حمى|سحج"),
     (0xFD5D, "سجح|سجى|سمح|سمح|سمج|سمم|سمم|صحح|صحح|صمم|شحم|شحم|شجي"),
     (0xFD6A, "شمخ|شمخ|شمم|شمم|ضحى|ضخم|ضخم|طمح|طمح|طمم|طمي|عجم|عمم"),
     (0xFD77, "عمم|عمى|غمم|غمي|غمى|فخم|فخم|قمح|قمم|لحم|لحي|لحى|لجج"),
     (0xFD84, "لجج|لخم|لخم|لمح|لمح|محج|محم|محي|مجح|مجم|مخج|مخم"),
     (0xFD92, "مجخ|همج|همم|نحم|نحى|نجم|نجم|نجى|نمي|نمى|يمم|يمم|بخي"),
     (0xFD9F, "تجي|تجى|تخي|تخى|تمي|تمى|جمي|جحى|جمى|سخى|صحي|شحي|ضحي"),
     (0xFDAC, "لجي|لمي|يحي|يجي|يمي|ممي|قمي|نحي|قمح|لحم|عمي|كمي|نجح"),
     (0xFDB9, "مخي|لجم|كمم|لجم|نجح|جحي|حجي|مجي|فمي|بحي|كمم|عجم|صمم|سخي|نجي"),
     (0xFDF0, "صلے|قلے|الله|اكبر|محمد|صلعم|رسول|عليه|وسلم|صلى|صلى الله عليه وسلم|جل جلاله|ریال"),
     (0xFE70, " \u064b|ـ\u064b| \u064c"), (0xFE74, " \u064d"),
     (0xFE76, " \u064e|ـ\u064e| \u064f|ـ\u064f| \u0650|ـ\u0650| \u0651|ـ\u0651| \u0652|ـ\u0652"),
     (0xFEF5, "لآ|لآ|لأ|لأ|لإ|لإ|لا|لا"), (0x1F100, "0.|0,|1,|2,|3,|4,|5,|6,|7,|8,|9,"),
     (0x1F110, "(A)|(B)|(C)|(D)|(E)|(F)|(G)|(H)|(I)|(J)|(K)|(L)|(M)"),
     (0x1F11D, "(N)|(O)|(P)|(Q)|(R)|(S)|(T)|(U)|(V)|(W)|(X)|(Y)|(Z)|〔S〕"), (0x1F12D, "CD|WZ"),
     (0x1F14A, "HV|MV|SD|SS|PPV|WC"), (0x1F16A, "MC|MD|MR"), (0x1F190, "DJ"), (0x1F200, "ほか|ココ"),
     (0x1F240, "〔本〕|〔三〕|〔二〕|〔安〕|〔点〕|〔打〕|〔盗〕|〔勝〕|〔敗〕")]

/-- What a character is a variant of. -/
def compatible? (code : Nat) : Option (List Nat) :=
  if code < 0xA0 then none
  else
    match entryIn? variants code with
    | some c => some [c.toNat]
    | none => (entryIn? sequences code).map fun text => text.toList.map Char.toNat

end LedgerScript.Text
