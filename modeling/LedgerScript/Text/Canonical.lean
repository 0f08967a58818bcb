/-!
# Canonical decompositions

Many characters of Unicode 15.0 are equivalent to a sequence of others.  A composite stands for two characters, a
double for a single other one.  Some composites are never put together again; they are listed apart.  Combining
marks have a class that orders them after the character they belong to.

The Hangul syllables are composites too, but by arithmetic and not by a table.

A table is written with the characters themselves.  Its rows are short: a row that would be long goes on in the next.
-/

namespace LedgerScript.Text

/-- Marks, the characters that take them, and the composites of both in the same order; each pair is put together
again. -/
def composites : List (Nat × List (Nat × Nat)) :=
  List.map (fun (mark, letters, made) => (mark, (letters.toList.zip made.toList).map fun (a, c) => (a.toNat, c.toNat)))
    [(0x300, "AEIOUaeiouÜüNnЕИеиĒēŌōWwÂâĂăÊêÔôƠơƯưYyἀἁἈἉἐἑἘ", "ÀÈÌÒÙàèìòùǛǜǸǹЀЍѐѝḔḕṐṑẀẁẦầẰằỀềỒồỜờỪừỲỳἂἃἊἋἒἓἚ"),
     (0x300, "ἙἠἡἨἩἰἱἸἹὀὁὈὉὐὑὙὠὡὨὩαεηιουωΑΕΗ᾿ϊΙ῾ϋΥ¨ΟΩ", "ἛἢἣἪἫἲἳἺἻὂὃὊὋὒὓὛὢὣὪὫὰὲὴὶὸὺὼᾺῈῊ῍ῒῚ῝ῢῪ῭ῸῺ"),
     (0x301, "AEIOUYaeiouyCcLlNnRrSsZzÜüGgÅåÆæØø¨ΑΕΗΙΟΥΩϊαε", "ÁÉÍÓÚÝáéíóúýĆćĹĺŃńŔŕŚśŹźǗǘǴǵǺǻǼǽǾǿ΅ΆΈΉΊΌΎΏΐάέ"),
     (0x301, "ηιϋουωϒГКгкÇçĒēÏïKkMmÕõŌōPpŨũWwÂâĂăÊêÔôƠơƯưἀἁ", "ήίΰόύώϓЃЌѓќḈḉḖḗḮḯḰḱḾḿṌṍṒṓṔṕṸṹẂẃẤấẮắẾếỐốỚớỨứἄἅ"),
     (0x301, "ἈἉἐἑἘἙἠἡἨἩἰἱἸἹὀὁὈὉὐὑὙὠὡὨὩ᾿῾", "ἌἍἔἕἜἝἤἥἬἭἴἵἼἽὄὅὌὍὔὕὝὤὥὬὭ῎῞"),
     (0x302, "AEIOUaeiouCcGgHhJjSsWwYyZzẠạẸẹỌọ", "ÂÊÎÔÛâêîôûĈĉĜĝĤĥĴĵŜŝŴŵŶŷẐẑẬậỆệỘộ"),
     (0x303, "ANOanoIiUuVvÂâĂăEeÊêÔôƠơƯưYy", "ÃÑÕãñõĨĩŨũṼṽẪẫẴẵẼẽỄễỖỗỠỡỮữỸỹ"),
     (0x304, "AaEeIiOoUuÜüÄäȦȧÆæǪǫÖöÕõȮȯYyИиУуGgḶḷṚṛαΑιΙυΥ", "ĀāĒēĪīŌōŪūǕǖǞǟǠǡǢǣǬǭȪȫȬȭȰȱȲȳӢӣӮӯḠḡḸḹṜṝᾱᾹῑῙῡῩ"),
     (0x306, "AaEeGgIiOoUuУИиуЖжАаЕеȨȩẠạαΑιΙυΥ", "ĂăĔĕĞğĬĭŎŏŬŭЎЙйўӁӂӐӑӖӗḜḝẶặᾰᾸῐῘῠῨ"),
     (0x307, "CcEeGgIZzAaOoBbDdFfHhMmNnPpRrSsŚśŠšṢṣTtWwXxYy", "ĊċĖėĠġİŻżȦȧȮȯḂḃḊḋḞḟḢḣṀṁṄṅṖṗṘṙṠṡṤṥṦṧṨṩṪṫẆẇẊẋẎẏ"),
     (0x307, "ſ", "ẛ"),
     (0x308, "AEIOUaeiouyYΙΥιυϒЕІеіАаӘәЖжЗзИиОоӨөЭэУуЧчЫыHh", "ÄËÏÖÜäëïöüÿŸΪΫϊϋϔЁЇёїӒӓӚӛӜӝӞӟӤӥӦӧӪӫӬӭӰӱӴӵӸӹḦḧ"),
     (0x308, "ÕõŪūWwXxt", "ṎṏṺṻẄẅẌẍẗ"), (0x309, "AaÂâĂăEeÊêIiOoÔôƠơUuƯưYy", "ẢảẨẩẲẳẺẻỂểỈỉỎỏỔổỞởỦủỬửỶỷ"),
     (0x30A, "AaUuwy", "ÅåŮůẘẙ"), (0x30B, "OoUuУу", "ŐőŰűӲӳ"),
     (0x30C, "CcDdEeLlNnRrSsTtZzAaIiOoUuÜüGgKkƷʒjHh", "ČčĎďĚěĽľŇňŘřŠšŤťŽžǍǎǏǐǑǒǓǔǙǚǦǧǨǩǮǯǰȞȟ"),
     (0x30F, "AaEeIiOoRrUuѴѵ", "ȀȁȄȅȈȉȌȍȐȑȔȕѶѷ"), (0x311, "AaEeIiOoRrUu", "ȂȃȆȇȊȋȎȏȒȓȖȗ"),
     (0x313, "αΑεΕηΗιΙοΟυωΩρ", "ἀἈἐἘἠἨἰἸὀὈὐὠὨῤ"), (0x314, "αΑεΕηΗιΙοΟυΥωΩρΡ", "ἁἉἑἙἡἩἱἹὁὉὑὙὡὩῥῬ"),
     (0x31B, "OoUu", "ƠơƯư"),
     (0x323, "BbDdHhKkLlMmNnRrSsTtVvWwZzAaEeIiOoƠơUuƯưYy", "ḄḅḌḍḤḥḲḳḶḷṂṃṆṇṚṛṢṣṬṭṾṿẈẉẒẓẠạẸẹỊịỌọỢợỤụỰựỴỵ"),
     (0x324, "Uu", "Ṳṳ"), (0x325, "Aa", "Ḁḁ"), (0x326, "SsTt", "ȘșȚț"),
     (0x327, "CcGgKkLlNnRrSsTtEeDdHh", "ÇçĢģĶķĻļŅņŖŗŞşŢţȨȩḐḑḨḩ"), (0x328, "AaEeIiUuOo", "ĄąĘęĮįŲųǪǫ"),
     (0x32D, "DdEeLlNnTtUu", "ḒḓḘḙḼḽṊṋṰṱṶṷ"), (0x32E, "Hh", "Ḫḫ"), (0x330, "EeIiUu", "ḚḛḬḭṴṵ"),
     (0x331, "BbDdKkLlNnRrTtZzh", "ḆḇḎḏḴḵḺḻṈṉṞṟṮṯẔẕẖ"),
     (0x338, "←→↔⇐⇔⇒∃∈∋∣∥∼≃≅≈=≡≍<>≤≥≲≳≶≷≺≻⊂⊃⊆⊇⊢⊨⊩⊫≼≽⊑⊒⊲⊳⊴⊵", "↚↛↮⇍⇎⇏∄∉∌∤∦≁≄≇≉≠≢≭≮≯≰≱≴≵≸≹⊀⊁⊄⊅⊈⊉⊬⊭⊮⊯⋠⋡⋢⋣⋪⋫⋬⋭"),
     (0x342, "ἀἁἈἉἠἡἨἩἰἱἸἹὐὑὙὠὡὨὩα¨η᾿ιϊ῾υϋω", "ἆἇἎἏἦἧἮἯἶἷἾἿὖὗὟὦὧὮὯᾶ῁ῆ῏ῖῗ῟ῦῧῶ"),
     (0x345, "ἀἁἂἃἄἅἆἇἈἉἊἋἌἍἎἏἠἡἢἣἤἥἦἧἨἩἪἫἬἭἮἯὠὡὢὣὤὥὦὧὨὩὪὫὬ", "ᾀᾁᾂᾃᾄᾅᾆᾇᾈᾉᾊᾋᾌᾍᾎᾏᾐᾑᾒᾓᾔᾕᾖᾗᾘᾙᾚᾛᾜᾝᾞᾟᾠᾡᾢᾣᾤᾥᾦᾧᾨᾩᾪᾫᾬ"),
     (0x345, "ὭὮὯὰαάᾶΑὴηήῆΗὼωώῶΩ", "ᾭᾮᾯᾲᾳᾴᾷᾼῂῃῄῇῌῲῳῴῷῼ"), (0x653, "ا", "آ"), (0x654, "اويەہے", "أؤئۀۂۓ"),
     (0x655, "ا", "إ"), (0x93C, "नरळ", "ऩऱऴ"), (0x9BE, "ে", "ো"), (0x9D7, "ে", "ৌ"), (0xB3E, "େ", "ୋ"),
     (0xB56, "େ", "ୈ"), (0xB57, "େ", "ୌ"), (0xBBE, "ெே", "ொோ"), (0xBD7, "ஒெ", "ஔௌ"), (0xC56, "\u0c46", "\u0c48"),
     (0xCC2, "\u0cc6", "ೊ"), (0xCD5, "\u0cbf\u0cc6ೊ", "ೀೇೋ"), (0xCD6, "\u0cc6", "ೈ"), (0xD3E, "െേ", "ൊോ"),
     (0xD57, "െ", "ൌ"), (0xDCA, "ෙො", "ේෝ"), (0xDCF, "ෙ", "ො"), (0xDDF, "ෙ", "ෞ"), (0x102E, "ဥ", "ဦ"),
     (0x1B35, "ᬅᬇᬉᬋᬍᬑ\u1b3a\u1b3cᬾᬿ\u1b42", "ᬆᬈᬊᬌᬎᬒᬻᬽᭀᭁᭃ"),
     (0x3099, "かきくけこさしすせそたちつてとはひふへほうゝ", "がぎぐげござじずぜぞだぢづでどばびぶべぼゔゞ"),
     (0x3099, "カキクケコサシスセソタチツテトハヒフヘホウワ", "ガギグゲゴザジズゼゾダヂヅデドバビブベボヴヷ"),
     (0x3099, "ヰヱヲヽ", "ヸヹヺヾ"), (0x309A, "はひふへほハヒフヘホ", "ぱぴぷぺぽパピプペポ"),
     (0x110BA, "𑂙𑂛𑂥", "𑂚𑂜𑂫"), (0x11127, "𑄱𑄲", "𑄮𑄯"), (0x1133E, "𑍇", "𑍋"), (0x11357, "𑍇", "𑍌"), (0x114B0, "𑒹", "𑒼"),
     (0x114BA, "𑒹", "𑒻"), (0x114BD, "𑒹", "𑒾"), (0x115AF, "𑖸𑖹", "𑖺𑖻"), (0x11930, "𑤵", "𑤸")]

/-- The two characters of a composite. -/
def partsOf? (code : Nat) : Option (Nat × Nat) :=
  composites.findSome? fun (mark, pairs) => (pairs.find? (·.2 == code)).map fun pair => (pair.1, mark)

def compositeOf? (letter mark : Nat) : Option Nat :=
  composites.findSome? fun (m, pairs) => if m == mark then (pairs.find? (·.1 == letter)).map (·.2) else none

/-- Composites that stay apart once they are taken apart. -/
def brokenComposites : List (Nat × Nat × Nat) :=
  List.flatMap (fun (mark, letters, made) => (made.toList.zip letters.toList).map fun (c, a) => (c.toNat, a.toNat, mark))
    [(0x301, "\u0308", "\u0344"), (0x93C, "कखगजडढफय", "क़ख़ग़ज़ड़ढ़फ़य़"), (0x9BC, "ডঢয", "ড়ঢ়য়"),
     (0xA3C, "ਲਸਖਗਜਫ", "ਲ਼ਸ਼ਖ਼ਗ਼ਜ਼ਫ਼"), (0xB3C, "ଡଢ", "ଡ଼ଢ଼"),
     (0xFB7, "གཌདབཛ\u0f92\u0f9c\u0fa1\u0fa6\u0fab", "གྷཌྷདྷབྷཛྷ\u0f93\u0f9d\u0fa2\u0fa7\u0fac"),
     (0xFB5, "ཀ\u0f90", "ཀྵ\u0fb9"), (0xF72, "\u0f71", "\u0f73"), (0xF74, "\u0f71", "\u0f75"),
     (0xF80, "\u0fb2\u0fb3\u0f71", "\u0f76\u0f78\u0f81"), (0x338, "⫝", "⫝̸"), (0x5B4, "י", "יִ"),
     (0x5B7, "ײא", "ײַאַ"), (0x5C1, "ששּ", "שׁשּׁ"), (0x5C2, "ששּ", "שׂשּׂ"), (0x5B8, "א", "אָ"),
     (0x5BC, "אבגדהוזטיךכלמנסףפצקרשת", "אּבּגּדּהּוּזּטּיּךּכּלּמּנּסּףּפּצּקּרּשּתּ"), (0x5B9, "ו", "וֹ"), (0x5BF, "בכפ", "בֿכֿפֿ"),
     (0x1D165, "𝅗𝅘𝆹𝆺", "𝅗𝅥𝅘𝅥𝆹𝅥𝆺𝅥"), (0x1D16E, "𝅘𝅥𝆹𝅥𝆺𝅥", "𝅘𝅥𝅮𝆹𝅥𝅮𝆺𝅥𝅮"), (0x1D16F, "𝅘𝅥𝆹𝅥𝆺𝅥", "𝅘𝅥𝅯𝆹𝅥𝅯𝆺𝅥𝅯"), (0x1D170, "𝅘𝅥", "𝅘𝅥𝅰"),
     (0x1D171, "𝅘𝅥", "𝅘𝅥𝅱"), (0x1D172, "𝅘𝅥", "𝅘𝅥𝅲")]

/-- What a table of rows has for a code point: a row is for the code points from its first on. -/
def entryIn? {α : Type} (rows : List (Nat × List α)) (code : Nat) : Option α :=
  rows.findSome? fun (first, entries) => if first ≤ code then entries[code - first]? else none

def doubles : List (Nat × List Char) :=
  List.map (fun (first, originals) => (first, originals.toList))
    [(0x340, "\u0300\u0301"), (0x343, "\u0313"), (0x374, "ʹ"), (0x37E, ";"), (0x387, "·"), (0x1F71, "ά"),
     (0x1F73, "έ"), (0x1F75, "ή"), (0x1F77, "ί"), (0x1F79, "ό"), (0x1F7B, "ύ"), (0x1F7D, "ώ"), (0x1FBB, "Ά"),
     (0x1FBE, "ι"), (0x1FC9, "Έ"), (0x1FCB, "Ή"), (0x1FD3, "ΐ"), (0x1FDB, "Ί"), (0x1FE3, "ΰ"), (0x1FEB, "Ύ"),
     (0x1FEE, "΅\x60"), (0x1FF9, "Ό"), (0x1FFB, "Ώ"), (0x1FFD, "´"), (0x2000, "\u2002\u2003"), (0x2126, "Ω"),
     (0x212A, "KÅ"), (0x2329, "〈〉"),
     (0xF900, "豈更車賈滑串句龜龜契金喇奈懶癩羅蘿螺裸邏樂洛烙珞落酪駱亂卵欄爛蘭鸞嵐濫藍襤拉臘蠟廊朗浪狼郎來"),
     (0xF92E, "冷勞擄櫓爐盧老蘆虜路露魯鷺碌祿綠菉錄鹿論壟弄籠聾牢磊賂雷壘屢樓淚漏累縷陋勒肋凜凌稜綾菱陵讀拏"),
     (0xF95C, "樂諾丹寧怒率異北磻便復不泌數索參塞省葉說殺辰沈拾若掠略亮兩凉梁糧良諒量勵呂女廬旅濾礪閭驪麗黎"),
     (0xF98A, "力曆歷轢年憐戀撚漣煉璉秊練聯輦蓮連鍊列劣咽烈裂說廉念捻殮簾獵令囹寧嶺怜玲瑩羚聆鈴零靈領例禮醴"),
     (0xF9B8, "隸惡了僚寮尿料樂燎療蓼遼龍暈阮劉杻柳流溜琉留硫紐類六戮陸倫崙淪輪律慄栗率隆利吏履易李梨泥理痢"),
     (0xF9E6, "罹裏裡里離匿溺吝燐璘藺隣鱗麟林淋臨立笠粒狀炙識什茶刺切度拓糖宅洞暴輻行降見廓兀嗀"), (0xFA10, "塚"),
     (0xFA12, "晴"), (0xFA15, "凞猪益礼神祥福靖精羽"), (0xFA20, "蘒"), (0xFA22, "諸"), (0xFA25, "逸都"),
     (0xFA2A, "飯飼館鶴郞隷侮僧免勉勤卑喝嘆器塀墨層屮悔慨憎懲敏既暑梅海渚漢煮爫琢碑社祉祈祐祖祝禍禎穀突節練"),
     (0xFA58, "縉繁署者臭艹艹著褐視謁謹賓贈辶逸難響頻恵𤋮舘"),
     (0xFA70, "並况全侀充冀勇勺喝啕喙嗢塚墳奄奔婢嬨廒廙彩徭惘慎愈憎慠懲戴揄搜摒敖晴朗望杖歹殺流滛滋漢瀞煮瞧"),
     (0xFA9E, "爵犯猪瑱甆画瘝瘟益盛直睊着磌窱節类絛練缾者荒華蝹襁覆視調諸請謁諾諭謹變贈輸遲醙鉶陼難靖韛響頋"),
     (0xFACC, "頻鬒龜𢡊𢡄𣏕㮝䀘䀹𥉉𥳐𧻓齃龎"),
     (0x2F800, "丽丸乁𠄢你侮侻倂偺備僧像㒞𠘺免兔兤具𠔜㒹內再𠕋冗冤仌冬况𩇟凵刃㓟刻剆割剷㔕勇勉勤勺包匆北卉卑"),
     (0x2F82E, "博即卽卿卿卿𠨬灰及叟𠭣叫叱吆咞吸呈周咢哶唐啓啣善善喙喫喳嗂圖嘆圗噑噴切壮城埴堍型堲報墬𡓤売壷"),
     (0x2F85C, "夆多夢奢𡚨𡛪姬娛娧姘婦㛮㛼嬈嬾嬾𡧈寃寘寧寳𡬘寿将当尢㞁屠屮峀岍𡷤嵃𡷦嵮嵫嵼巡巢㠯巽帨帽幩㡢𢆃"),
     (0x2F88A, "㡼庰庳庶廊𪎒廾𢌱𢌱舁弢弢㣇𣊸𦇚形彫㣣徚忍志忹悁㤺㤜悔𢛔惇慈慌慎慌慺憎憲憤憯懞懲懶成戛扝抱拔捐"),
     (0x2F8B8, "𢬌挽拼捨掃揤𢯱搢揅掩㨮摩摾撝摷㩬敏敬𣀊旣書晉㬙暑㬈㫤冒冕最暜肭䏙朗望朡杞杓𣏃㭉柺枅桒梅𣑭梎栟"),
     (0x2F8E6, "椔㮝楂榣槪檨𣚣櫛㰘次𣢧歔㱎歲殟殺殻𣪍𡴋𣫺汎𣲼沿泍汧洖派海流浩浸涅𣴞洴港湮㴳滋滇𣻑淹潮𣽞𣾎濆瀹"),
     (0x2F914, "瀞瀛㶖灊災灷炭𠔥煅𤉣熜𤎫爨爵牐𤘈犀犕𤜵𤠔獺王㺬玥㺸㺸瑇瑜瑱璅瓊㼛甤𤰶甾𤲒異𢆟瘐𤾡𤾸𥁄㿼䀈直𥃳"),
     (0x2F942, "𥃲𥄙𥄳眞真真睊䀹瞋䁆䂖𥐝硎碌磌䃣𥘦祖𥚚𥛅福秫䄯穀穊穏𥥼𥪧𥪧竮䈂𥮫篆築䈧𥲀糒䊠糨糣紀𥾆絣䌁緇縂"),
     (0x2F970, "繅䌴𦈨𦉇䍙𦋙罺𦌾羕翺者𦓚𦔣聠𦖨聰𣍟䏕育脃䐋脾媵𦞧𦞵𣎓𣎜舁舄辞䑫芑芋芝劳花芳芽苦𦬼若茝荣莭茣莽"),
     (0x2F99E, "菧著荓菊菌菜𦰶𦵫𦳕䔫蓱蓳蔖𧏊蕤𦼬䕝䕡𦾱𧃒䕫虐虜虧虩蚩蚈蜎蛢蝹蜨蝫螆䗗蟡蠁䗹衠衣𧙧裗裞䘵裺㒻𧢮"),
     (0x2F9CC, "𧥦䚾䛇誠諭變豕𧲨貫賁贛起𧼯𠠄跋趼跰𠣞軔輸𨗒𨗭邔郱鄑𨜮鄛鈸鋗鋘鉼鏹鐕𨯺開䦕閷𨵷䧦雃嶲霣𩅅𩈚䩮䩶"),
     (0x2F9FA, "韠𩐊䪲𩒖頋頋頩𩖶飢䬳餩馧駂駾䯎𩬰鬒鱀鳽䳎䳭鵧𪃎䳸𪄅𪈎𪊑麻䵖黹黾鼅鼏鼖鼻𪘀")]

def doubleOf? (code : Nat) : Option Nat :=
  (entryIn? doubles code).map Char.toNat

/-- Classes of combining marks.  A row has a first mark, and from there on classes and how many characters of each follow each
other; a class of 0 is for characters that are no marks. -/
def markClasses : List (Nat × List (Nat × Nat)) :=
  [(0x300, [(230, 21), (232, 1), (220, 4), (232, 1), (216, 1), (220, 5), (202, 2), (220, 4), (202, 2)]),
   (0x329, [(220, 11), (1, 5), (220, 4), (230, 8), (240, 1), (230, 1), (220, 3), (230, 3), (220, 2)]),
   (0x350, [(230, 3), (220, 4), (230, 1), (232, 1), (220, 2), (230, 1), (233, 1), (234, 2), (233, 1)]),
   (0x360, [(234, 2), (233, 1), (230, 13)]), (0x483, [(230, 5)]),
   (0x591, [(220, 1), (230, 4), (220, 1), (230, 3), (222, 1), (220, 1), (230, 6), (220, 6), (230, 2)]),
   (0x5AA, [(220, 1), (230, 2), (222, 1), (228, 1), (230, 1), (10, 1), (11, 1), (12, 1), (13, 1), (14, 1)]),
   (0x5B5, [(15, 1), (16, 1), (17, 1), (18, 1), (19, 2), (20, 1), (21, 1), (22, 1), (0, 1), (23, 1)]),
   (0x5C1, [(24, 1), (25, 1), (0, 1), (230, 1), (220, 1), (0, 1), (18, 1), (0, 72), (230, 8), (30, 1)]),
   (0x619, [(31, 1), (32, 1), (0, 48), (27, 1), (28, 1), (29, 1), (30, 1), (31, 1), (32, 1), (33, 1)]),
   (0x652, [(34, 1), (230, 2), (220, 2), (230, 5), (220, 1), (230, 2), (220, 1), (0, 16), (35, 1)]),
   (0x6D6, [(230, 7), (0, 2), (230, 4), (220, 1), (230, 1), (0, 2), (230, 2), (0, 1), (220, 1), (230, 2)]),
   (0x6ED, [(220, 1), (0, 35), (36, 1), (0, 30), (230, 1), (220, 1), (230, 2), (220, 1), (230, 2), (220, 3)]),
   (0x73A, [(230, 1), (220, 2), (230, 1), (220, 1), (230, 3), (220, 1), (230, 1), (220, 1), (230, 1)]),
   (0x746, [(220, 1), (230, 1), (220, 1), (230, 2)]),
   (0x7EB, [(230, 7), (220, 1), (230, 1), (0, 9), (220, 1), (0, 24), (230, 4), (0, 1), (230, 9)]),
   (0x825, [(230, 3), (0, 1), (230, 5), (0, 43), (220, 3), (0, 60), (230, 1), (220, 3), (230, 4)]),
   (0x8CA, [(230, 5), (220, 5), (230, 14), (0, 1), (220, 1), (230, 2), (220, 1), (230, 2), (220, 1)]),
   (0x8EA, [(230, 3), (220, 3), (27, 1), (28, 1), (29, 1), (230, 3), (220, 1), (230, 2), (220, 2), (230, 5)]),
   (0x93C, [(7, 1), (0, 16), (9, 1), (0, 3), (230, 1), (220, 1), (230, 2)]),
   (0x9BC, [(7, 1), (0, 16), (9, 1), (0, 48), (230, 1), (0, 61), (7, 1), (0, 16), (9, 1)]),
   (0xABC, [(7, 1), (0, 16), (9, 1)]), (0xB3C, [(7, 1), (0, 16), (9, 1)]), (0xBCD, [(9, 1)]),
   (0xC3C, [(7, 1), (0, 16), (9, 1), (0, 7), (84, 1), (91, 1)]), (0xCBC, [(7, 1), (0, 16), (9, 1)]),
   (0xD3B, [(9, 2), (0, 16), (9, 1)]), (0xDCA, [(9, 1)]), (0xE38, [(103, 2), (9, 1), (0, 13), (107, 4)]),
   (0xEB8, [(118, 2), (9, 1), (0, 13), (122, 4), (0, 76), (220, 2), (0, 27), (220, 1), (0, 1), (220, 1)]),
   (0xF39, [(216, 1), (0, 55), (129, 1), (130, 1), (0, 1), (132, 1), (0, 5), (130, 4), (0, 2), (130, 1)]),
   (0xF82, [(230, 2), (9, 1), (0, 1), (230, 2), (0, 62), (220, 1)]),
   (0x1037, [(7, 1), (0, 1), (9, 2), (0, 82), (220, 1)]), (0x135D, [(230, 3)]), (0x1714, [(9, 2), (0, 30), (9, 1)]),
   (0x17D2, [(9, 1), (0, 10), (230, 1)]), (0x18A9, [(228, 1)]), (0x1939, [(222, 1), (230, 1), (220, 1)]),
   (0x1A17, [(230, 1), (220, 1), (0, 71), (9, 1), (0, 20), (230, 8), (0, 2), (220, 1), (0, 48), (230, 5)]),
   (0x1AB5, [(220, 6), (230, 2), (220, 1), (0, 1), (220, 2), (230, 2), (220, 2), (230, 5), (220, 1), (230, 4)]),
   (0x1B34, [(7, 1), (0, 15), (9, 1), (0, 38), (230, 1), (220, 1), (230, 7), (0, 54), (9, 2), (0, 58), (7, 1)]),
   (0x1BF2, [(9, 2), (0, 67), (7, 1)]),
   (0x1CD0, [(230, 3), (0, 1), (1, 1), (220, 5), (230, 2), (220, 4), (230, 1), (0, 1), (1, 7)]),
   (0x1CED, [(220, 1), (0, 6), (230, 1), (0, 3), (230, 2)]),
   (0x1DC0, [(230, 2), (220, 1), (230, 7), (220, 1), (230, 2), (234, 1), (214, 1), (220, 1), (202, 1)]),
   (0x1DD1, [(230, 37), (232, 1), (228, 2), (220, 1), (218, 1), (230, 1), (233, 1), (220, 1), (230, 1)]),
   (0x1DFF, [(220, 1)]),
   (0x20D0, [(230, 2), (1, 2), (230, 4), (1, 3), (230, 2), (0, 4), (230, 1), (0, 3), (1, 2), (230, 1)]),
   (0x20E8, [(220, 1), (230, 1), (1, 2), (220, 4), (230, 1)]), (0x2CEF, [(230, 3)]),
   (0x2D7F, [(9, 1), (0, 96), (230, 32)]), (0x302A, [(218, 1), (228, 1), (232, 1), (222, 1), (224, 2)]),
   (0x3099, [(8, 2)]), (0xA66F, [(230, 1), (0, 4), (230, 10), (0, 32), (230, 2), (0, 80), (230, 2)]),
   (0xA806, [(9, 1), (0, 37), (9, 1)]),
   (0xA8C4, [(9, 1), (0, 27), (230, 18), (0, 57), (220, 3), (0, 37), (9, 1), (0, 95), (7, 1), (0, 12), (9, 1)]),
   (0xAAB0, [(230, 1), (0, 1), (230, 2), (220, 1), (0, 2), (230, 2), (0, 5), (230, 2), (0, 1), (230, 1)]),
   (0xAAF6, [(9, 1)]), (0xABED, [(9, 1)]), (0xFB1E, [(26, 1)]), (0xFE20, [(230, 7), (220, 7), (230, 2)]),
   (0x101FD, [(220, 1)]), (0x102E0, [(220, 1)]), (0x10376, [(230, 5)]),
   (0x10A0D, [(220, 1), (0, 1), (230, 1), (0, 40), (230, 1), (1, 1), (220, 1), (0, 4), (9, 1)]),
   (0x10AE5, [(230, 1), (220, 1)]), (0x10D24, [(230, 4)]),
   (0x10EAB, [(230, 2), (0, 80), (220, 3), (0, 70), (220, 2), (230, 3), (220, 1), (230, 1), (220, 4)]),
   (0x10F82, [(230, 1), (220, 1), (230, 1), (220, 1)]),
   (0x11046, [(9, 1), (0, 41), (9, 1), (0, 14), (9, 1), (0, 57), (9, 1), (7, 1), (0, 69), (230, 3)]),
   (0x11133, [(9, 2), (0, 62), (7, 1), (0, 76), (9, 1), (0, 9), (7, 1)]), (0x11235, [(9, 1), (7, 1)]),
   (0x112E9, [(7, 1), (9, 1), (0, 80), (7, 2), (0, 16), (9, 1), (0, 24), (230, 7), (0, 3), (230, 5)]),
   (0x11442, [(9, 1), (0, 3), (7, 1), (0, 23), (230, 1), (0, 99), (9, 1), (7, 1)]), (0x115BF, [(9, 1), (7, 1)]),
   (0x1163F, [(9, 1)]), (0x116B6, [(9, 1), (7, 1)]), (0x1172B, [(9, 1)]), (0x11839, [(9, 1), (7, 1)]),
   (0x1193D, [(9, 2), (0, 4), (7, 1)]), (0x119E0, [(9, 1), (0, 83), (9, 1), (0, 18), (9, 1), (0, 81), (9, 1)]),
   (0x11C3F, [(9, 1)]), (0x11D42, [(7, 1), (0, 1), (9, 2), (0, 81), (9, 1)]), (0x11F41, [(9, 2)]),
   (0x16AF0, [(1, 5), (0, 59), (230, 7)]), (0x16FF0, [(6, 2)]), (0x1BC9E, [(1, 1)]),
   (0x1D165, [(216, 2), (1, 3), (0, 3), (226, 1), (216, 5), (0, 8), (220, 8), (0, 2), (230, 5), (220, 2)]),
   (0x1D1AA, [(230, 4)]), (0x1D242, [(230, 3)]),
   (0x1E000, [(230, 7), (0, 1), (230, 17), (0, 2), (230, 7), (0, 1), (230, 2), (0, 1), (230, 5)]),
   (0x1E08F, [(230, 1)]), (0x1E130, [(230, 7)]), (0x1E2AE, [(230, 1), (0, 61), (230, 4)]),
   (0x1E4EC, [(232, 2), (220, 1), (230, 1)]), (0x1E8D0, [(220, 7)]), (0x1E944, [(230, 6), (7, 1)])]

/-- The class at a place of a row. -/
def classAt? : List (Nat × Nat) → Nat → Option Nat
  | [], _ => none
  | (cls, count) :: rest, place => if place < count then some cls else classAt? rest (place - count)

/-- The class of a combining mark; 0 for all other characters. -/
def markClass (code : Nat) : Nat :=
  (markClasses.findSome? fun (first, row) => if first ≤ code then classAt? row (code - first) else none).getD 0

end LedgerScript.Text
