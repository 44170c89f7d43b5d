import Ambigram.Unicode.Ranges
/-!
# Text boundaries

The classes that tell where grapheme clusters, words and sentences may be divided, in Unicode 15.0.  The first
class of each is the rest, which no name selects.
-/
namespace Ambigram
namespace Unicode

namespace GraphemeBreak

def names : List String := [
  "XX Other", "CN Control", "CR CR", "EX Extend", "L L", "LF LF", "LV LV", "LVT LVT", "PP Prepend",
  "RI Regional_Indicator", "SM SpacingMark", "T T", "V V", "ZWJ ZWJ"]

def data : List String := [
  "A1152112I1cN0X1D011qI0d43hN073hB0b931013102310231013bK068A0B31011bA0L3G013cT07318106320231043X0181013U0R",
  "3cJ0B3bM0939013O043109310331053b7033bG0286083b60O318W31AbI0131A13103A834A132A1073A023T0132AbK01310132A43",
  "202A202A139013A023Q01320231AbK013103A23402320333013U0233013B0231AbK013103A5310231A102A13K023M06310132AbK",
  "01310231A43202A202A137033A023U013bN0131A132A303A103A139013b40133A13bJ01310334A103310437023B023T0132AbK01",
  "3101A132A132A10132A102A237023B023F01AC0232AbJ02310132A43103A103A13188013A023T0132AbY01340132A331013107A1",
  "3I02AbP013101A73C083cQ013101A93B073c1023R01310131013402AbD0E31A53102350B310b039013cU0431A6310232A23N02A2",
  "34033G043D013101A236013F013cQ0cO4c0CcGBjP033baA0331AS0231AT023U023bS0231A738A132AB39013b90331113d9023Y01",
  "3dA0334A233A402A136A33g30232A13bL01A131A731013101320836AA32013bC0V3bD0431AbB0731A135A132Ab2093C0231AU01A",
  "432A231A33bK0131A233A131A332AbC08A832A23e803310D31A7340136013201A23fI0bS3oJ011131D21O071bD0G1cO0X3dhA033",
  "dX013cO0W3pE063cX023bgfW04310A3W023c8023hK01330134013N02A231A4013cB02AbE0GA23Q0I3D013b2083P0B32AC0T43033",
  "1AbB0132A432A233Ab0013bV0632A232A23C01380131AbA013bF0131033202350231013b501A232A501A13gK02A132A132A101A1",
  "3I016R716R716R716R716R716R716R716R716R716R716R716R716R716R716R716R716R716R716R716R716R716R716R716R716R71",
  "6R716R716R716R716R716R716R716R716R716R716R716R716R716R716R716R716R716R716R716R716R716R716R716R716R716R71",
  "6R716R716R716R716R716R716R716R716R716R716R716R716R716R716R716R716R716R716R716R716R716R716R716R716R716R71",
  "6R716R716R716R716R716R716R716R716R716R716R716R716R716R716R716R716R716R716R716R716R716R716R716R716R716R71",
  "6R716R716R716R716R716R716R716R716R716R716R716R716R716R716R716R716R716R716R716R716R716R716R716R716R716R71",
  "6R716R716R716R716R716R716R716R716R716R716R716R716R716R716R716R716R716R716R716R716R716R716R716R716R716R71",
  "6R716R716R716R716R716R716R716R716R716R716R716R716R716R716R716R716R716R716R716R716R716R716R716R716R716R71",
  "6R716R716R716R716R716R716R716R716R716R716R716R716R716R716R716R716R716R716R716R716R716R716R716R716R716R71",
  "6R716R716R716R716R716R716R716R716R716R716R716R716R716R716R716R716R716R716R716R716R716R716R716R716R716R71",
  "6R716R716R716R716R716R716R716R716R716R716R716R716R716R716R716R716R716R716R716R716R716R716R716R716R716R71",
  "6R716R716R716R716R716R716R716R716R716R716R716R716R716R716R716R716R716R716R716R716R716R716R716R716R716R71",
  "6R716R716R716R716R716R716R716R716R716R716R716R716R716R716R716R716R716R716R716R716R716R716R716R716R716R71",
  "6R716R716R716R716R716R716R716R716R716R716R716R716R716R716R716R716R716R716R716R716R716R716R716R716R716R71",
  "6R716R716R716R716R716R716R716R716R716R716R716R716R716R716R716R716R716R716R716R716R716R716R716R716R716R71",
  "6R716R716R716R716R716R716R716R716R716R716R716R716R716R716R716R716R716R716R716R716R716R716R716R716R716R71",
  "6R716R716R716R716R716R716R716R716R716R7C0NC40bDBjpU013uH0G3G0G3fR011eE023c80C1o9013gA013e5053buE03310235",
  "043b40334013eL023pX043kR023c8033bY0B3bD043dE01A131AbH0F3b50132023A0331Ab903A432A2320184013A018bE033b0053",
  "1A83G02Ab8013C0231AbC03A932A10285043101A13cK03A332A131A2360132013eD0133A83L0232AbJ02310131A134A202A203A9",
  "013A02A20733053fC03A832A331A13N013c90132A631A132A131A231A23gJ0132A43204A231A23R023cA03A832A131A23cY0131A",
  "132A631A13cT03320431A53h403A931A23gT0135A102A20231A13181A181A13dX03A4320234A13301AS0A3b40631A18438013906",
  "32A33b4068D31A23l901A7310631A13cA0M3101A731A231A23dE0633013102310731813bU05A1023102A131A13jN0232A9023181",
  "AbC02A53302A131A13fsT0G11360F3oyA053bN073bd401310bJA7043c9013B02Auz70231041faK0bA320N3p20131A33301A53818",
  "32073U043e4033ccZ0bJ340bE38013E013M05310F3blS07310H3207310231053cS013eG073kF013bP043o4043bbK073d1073cj70",
  "Q9o3053bglmO0W1cO3dK1gO3dw01hxrK0"]

/-- The code points of the class at a place in `names`. -/
def ranges (place : Nat) : List (Nat × Nat) := Run.select (· = place) (Run.decode data)

end GraphemeBreak

namespace WordBreak

def names : List String := [
  "XX Other", "CR CR", "DQ Double_Quote", "EX ExtendNumLet", "Extend Extend", "FO Format",
  "HL Hebrew_Letter", "KA Katakana", "LE ALetter", "LF LF", "MB MidNumLet", "ML MidLetter", "MN MidNum",
  "NL Newline", "NU Numeric", "RI Regional_Indicator", "SQ Single_Quote", "WSegSpace WSegSpace", "ZWJ ZWJ"]

def data : List String := [
  "A0192D11I01H1012401G401C101A10AE1B1C50Q8401310Q8A01Db001820157018101B201850N810V810nC860Y8d4458102820481",
  "C1860181B38101810K810cB810dV81074eM810b28204810181Bb581C1860b94101410241024101480R64046181BB065602C20B41",
  "01530b78L4AE101E1C102814cR81018741510642824104428AE382018F0151814U8R420cH8B418E0AEX89428201C1018201420M8",
  "44189418341854I0P83440B850O8106810256084b68O415X4bI83418I41874A82420AE10G8341088202820M81078101830482014",
  "187420242034188014402810382420AE28A018101420341068402820M81078102810281028201410544024203430147048101870",
  "AE243814B0341098103810M810781028105820141884103410342018F0282420AE90186410341088202820M81078102810582014",
  "1874202420347034402810382420AE1018G014181068303810483028101810283028303830C840543034104420186014E0AEG054",
  "88103810N810G8201418741034104470241038201820282420AEG018341088103810N810A8105820141874103410447024602810",
  "282420AE102814C04498103810b58241874103410441850381470382420AEA068103410I830O8109810182078301440641014108",
  "460AE2024bP0142074C08410AEcF0142094B07410AEb2018N02460AEB0141014101440248810b0840K4102458B410b049014cS0K",
  "410AEC0444034103420743044D0C41014AE4420b281018501820b7810j98104820781018104820b58104820X8104820781018104",
  "820F810bL8104820bV82034W0G8G0cE8206830r8820H81HQ850c3830B870I84490J834B0I824C0D810381024bS0W4901420AEX03",
  "41514AE60cH8705824Y8141850bY8A0V810C440C4A0AEdK0AEb20N854bL0A410T42014AE60AEM0V4bD054bB8H48830AEH094C034",
  "U8D428AEb88E4C0b08K480AE3038AEb08209870b782038G03410L44814681428341850fC8bS4hQ8206820b282068208810181018",
  "101810V820bH810781018303810783048206840D850381078307H103H10141I25802AA01A201B2D5513F023301CF013A01H5510A",
  "51018D018G0D8bF0X4H018401820A810183058601810181018104810B8204850584018H0b58wL0bG8byE0gD860483428C0b28101",
  "8501820bK87018F014N89078107810781078107810781078107810W4bB018mW01H4018b006410575028cK0242730cJ7104750b78",
  "10cM8H0W8bC0G7fS0bB710cG7bdsO0bgD8bV0bA820hH830G8AE28K0bB84410A410V824c8824M0fF8502810181058O0G814381448",
  "14N8544014J0bG8C024bE8I4A0AE60I4683018102814AES88420N8D4C0T83044bB8E4E018AEB014A0AE60b58E4903814882420AE",
  "X034bE0141034202450241014U0B854203824A068206820689078107810bM860d7884102420AE60lyC8C0N840bD8jp0078C05850",
  "1614A610D6105610161026102610A6cQ8X0k38I0bS820bI8b40C840G41C201B1CB0G43023O0331C101A101C1BQ05810dR8201570",
  "1A401C101A10AE1B1C50Q8401310Q8B0bK724V83068206820682038S03540C810Q810J8102810F820E8Y0dF8bX0bH8dS014dM0T8",
  "30bD8F014V0W8D0U850b285450U820b0840881058b60eE820AE60b0840b0840b4880bG8C0B810F81078102810B810F810781028",
  "bV0iN890M8A088O06810b681098bX068201810b881028301820N8A0N890V8bT0J81028A0M8A0Q8bY0bK86028bS01834102450444",
  "8103810T820344014W0T830T8Z08810S824P0bI8A0M8A0J8D0I8d20c18bJ0bF8D0bF8D0b084480AEj20b6810243028c3034T8A01",
  "880M8B4V0I844b60L8R0N89034bH8F4V0AE142824189044b98B420154014A01520P870AE6034b08E410AE4018241880Z81420189",
  "034bC8E44840441024AE181018Z0I810P8C460142814bQ0781018104810F810A870bB8C450AE60441088202820M8107810281058",
  "10241874202420342018601450582420743054dV0bH8I44850AE401438U0bC8K428101880AEeM0bB8742094N04824Y0bC8H43018",
  "B0AEb20b78D41870AEcB0F440AEfI0b88F4cT0bS8AEL08820182088102810O8641024204418141824C0AEbY08820b38742074181",
  "01814R018A4b4874184480148018B4bA8G43018I0c18hB09810b1884108418F0AEO0U820M410E4c1078102810b28643014102410",
  "74181480AE6068102810W854102410541870AEiM0J84490241814D810Y8743054D0AEcE018c70zM8cU0d38H0fG8cv80cP8F0bdS8",
  "G51468F4ehE0q78jfT0pT870V810AE60c7810AE60U82054B0bC8749048C0AE90L850J8t40bS8dK0c38401418bJ47044D8bS02810",
  "1814B024rn2047107710271017hZ037bE017E047cxC0cZ850D8309870A830241045faK0bA420N4p2054306485842074U044e4034",
  "mB0cD810bZ8102820182028204810C81018107810bT810482088107810S8104810581018307810jG820P810P810V810P810V810P",
  "810V810P810V810P8108820bEEo80bJ440bE48014E014M05410F4beO0V86068fX07410H420741024105450bQ8X014d40b9830747",
  "820AE4018iX0U814H0b8844AEn20S844AEuM0781048102810F810fH8B074b50bW8741840AEbh204810R810281018201810A81048",
  "10181018601840181018101810381028101820181018101810181018102810182048107810481048101810A810H85038105810H8",
  "rG0Q860Q860Q8cK0QFo3054ceG0AEbgjhZ015U0cO4dK0gO4ibnK0"]

/-- The code points of the class at a place in `names`. -/
def ranges (place : Nat) : List (Nat × Nat) := Run.select (· = place) (Run.decode data)

end WordBreak

namespace SentenceBreak

def names : List String := [
  "XX Other", "AT ATerm", "CL Close", "CR CR", "EX Extend", "FO Format", "LE OLetter", "LF LF", "LO Lower",
  "NU Numeric", "SC SContinue", "SE Sep", "SP Sp", "ST STerm", "UP Upper"]

def data : List String := [
  "901C172C13I01C1D124032202A1110A91A401D10QE12101230Q8121012701BQ01C9018121015701840181240NE107EO810881E18",
  "1E181E181E181E181E181E181E181E181E181E181E181E181E181E181E181E181E181E181E181E181E181E181E181E181E181E18",
  "1E281E181E181E181E181E181E181E181E281E181E181E181E181E181E181E181E181E181E181E181E181E181E181E181E181E18",
  "1E181E181E181E181E181E182E181E181E382E181E182E183E284E182E183E382E182E181E181E182E181E281E182E183E181E18",
  "2E28161E38462E182E182E181E181E181E181E181E181E181E181E281E181E181E181E181E181E181E181E181E282E181E183E18",
  "1E181E181E181E181E181E181E181E181E181E181E181E181E181E181E181E181E181E181E181E181E181E181E181E181E181E18",
  "1E181E181E782E182E281E184E181E181E181E181EbX816b08762840C6E05870161016H0d441E181E1816101E182048101E601E1",
  "03E101E102E18HE109EZ81E283E381E181E181E181E181E181E181E181E181E181E181E181E581E18101E182E28bFEbC81E181E1",
  "81E181E181E181E181E181E181E181E181E181E181E181E181E181E181E1810741E181E181E181E181E181E181E181E181E181E1",
  "81E181E181E181E181E181E181E181E181E181E181E181E181E181E181E181E181E182E181E181E181E181E181E181E281E181E1",
  "81E181E181E181E181E181E181E181E181E181E181E181E181E181E181E181E181E181E181E181E181E181E181E181E181E181E1",
  "81E181E181E181E181E181E181E181E181E181E181E181E181E181E181E181E181E181E181E181E1810b2E2016301A20b581D70",
  "b94101410241024101480R64056C065602A20B410153Db76L4A91029102614cR61D16741510642624104426A93620163DC015161",
  "4U6R420cH6B416E0A9X69426201A1D16201420M644169416341654901D101D302D10P63440B650O6106610256084b66O415X4bI6",
  "3416I41674A6242DA910G6341086202620M61076101630462014167420242034168014402610362420A926A01610142034106640",
  "2620M61076102610261026201410544024203430147046101670A9243614B0341096103610M61076102610562014168410341034",
  "2016F0262420A990166410341086202620M610761026105620141674202420347034402610362420A91016G01416106630361046",
  "3026101610263026303630C640543034104420166014E0A9G05486103610N610G6201416741034104470241036201620262420A9",
  "G016341086103610N610A6105620141674103410447024602610262420A9102614C04496103610b5624167410341044165036147",
  "0362420A9A066103410I630O6109610162076301440641014108460A92024D0bC614267450768410A9b30261016105610O610161",
  "0A61426941620561016107410A92046W016N02460A9B0141014101442248610b0640K4102456B410b049014bL0b76K416A92D406",
  "6444634163426743644D6C41614A94420b2E101E501E20b761018j86104620761016104620b56104620X6104620761016104620F",
  "610bL6104620bV62034201D402DN0G6G0cEE206830r86101DH61CQ62230c3630B670I64490J6342D90I624C0D610361024C0bG6W",
  "4301640161420A9O01A1D401A1D10341514A960cH6705624Y6141650bY6A0V610C440C4802DA9U62056B0b8640Q660A9b20N6544",
  "0bH6A410T42014A960A9D0164D40V4bD054bB6H48630A92D202DB094902D1034U6D426A9b86E4C0b06K4302D30A93036A9b062D9",
  "870b762036G03410L44614661426341650fC8bS41E181E181E181E181E181E181E181E181E181E181E181E181E181E181E181E18",
  "1E181E181E181E181E181E181E181E181E181E181E181E181E181E181E181E181E181E181E181E181E181E181E181E181E181E18",
  "1E181E181E181E181E181E181E181E181E181E181E181E181E181E181E181E181E181E181E181E181E181E181E181E181E181E18",
  "1E181E181E181E181E181E181E981E181E181E181E181E181E181E181E181E181E181E181E181E181E181E181E181E181E181E18",
  "1E181E181E181E181E181E181E181E181E181E181E181E181E181E181E181E181E181E181E181E181E181E181E181E181E181E18",
  "1E181E181E181E988E68206E20888E888E68206E2088101E101E101E101E888EE820888E888E888E5810285E1018303810285E30",
  "4820284E40885E503810285E30BC152425302A30824011302B551C9022102D70223DL01C5510A51018B02218D02210D8bF0X4H01",
  "E401E20183E283E18101E305E601E101E101E104E10184E18461820282E501E484018H0GEG8361E1846kN042T022kZ0QEQ8rD062",
  "70E2c7022V0A2l70M2bR042W022oA0bCEbC81E183E281E181E181E184E181E281E883E181E181E181E181E181E181E181E181E18",
  "1E181E181E181E181E181E181E181E181E181E181E181E181E181E181E181E181E181E181E181E181E181E181E181E181E181E18",
  "1E181E181E181E181E181E181E181E181E181E181E181E181E181E181E28601E181E18341E18C0b281018501820bK67016F014N6",
  "9076107610761076107610761076107610W4E2E02220A2401D16C01D5012G02D82lN01C1A1D2036A220821032109664105620564",
  "0cE62024203610cI6104650b7610cM6H0W6bC0G6o80hb46bS0xrH6bV0bA6101DhH6102DG6A926K01E181E181E181E181E181E181",
  "E181E181E181E181E181E181E181E181E181E181E181E181E181E181E181E181E18164410A410161E181E181E181E181E181E181",
  "E181E181E181E181E181E181E181E3824c8624101D301DV096201E181E181E181E181E181E181E381E181E181E181E181E181E18",
  "1E181E181E181E181E181E181E181E181E181E181E181E181E181E181E181E181E181E181E181E181E181E181E181E181EA81E18",
  "1E182E181E181E181E181E1816201E181E18161E181E381E181E181E181E181E181E181E181E181E181E185E185E181E181E181E",
  "181E181E181E181E184E181E18501E18101810181E181E18O0381E181638761436144614N6544014J0bG6202D8024bE6I4802DA9",
  "60I4663016102614A9S684101DN6D4C0T63044bB6E4702D5016A9605614A6A95610b56E4903614862420A9303DN6301634bE6141",
  "63426245624161416O03620B6542D3624A066206620669076107610b7810E860c88Z6841D2420A960lyC6C0N640bD6jaS0k6620",
  "cY6b2078C058501614A610D6105610161026102610d06X0k3622G0bS620bI6b40C640G42A101A302270G4102A20G22022702A112",
  "01A2D1A62401AC05610dR62015101D6022202A1110A91A401D10QE12101230Q812101210221D221A10bK624V6306620662066203",
  "6S03540C610Q610J6102610F620E6Y0dF6bX0bH6dS014dM0T630bD6F014V0W6D0U650b265450U620b0640861056b60b4Eb48c662",
  "0A960b0E40b0840b4680bG6C0BE10FE107E102E10B810F810781028bV0iN690M6A086O018263810b681098bX066201610b861026",
  "301620N6A0N690V6bT0J61026A0M6A0Q6bY0bK66026bS016341024504446103610T620344014M02D80T630T6Z08610S624P0bI6A",
  "0M6A0J6D0I6d20c16bJ0bFED0bF8D0b064480A9j20b6610243026c3034T6A01680M6B4405DM0I6444Db20L6R0N69034bH6F42DT0",
  "A9142624169044b96B420154D14A01520P670A96034b06E410A9103D16241680Z61420169034bC6E4462D20441D24A9161016102",
  "DW0I610P6C42D102D10142614bQ0761016104610F610A61D60bB6C450A960441086202620M610761026105610241674202420342",
  "016601450562420743054dV0bH6I4462D30A9401436U0bC6K426101680A9eM0bB6742094102D50FD4624Y0bC6H42D1016B0A9b20",
  "b76D41670A9bI0R620F440A9203D1076f50b86F4cT0WEW8A9L08620162086102610O66410242044161416241D101D90A9bY08620",
  "b3674207416101614R016A4b46741644302D30148016B4bA6G4102D16I0c16hB09610b16841084162DD0A9O0U620M410E4c10761",
  "02610b2664301410241074161480A96066102610W654102410541670A9iM0J6442D70241614D610Y67430542DB0A9cE016c70zM6",
  "cU0d36H0fG6cv80cP6F0bdS6G51466F4ehE0q76jfT0pT670V610A9402Dc7610A960U620541DA0bC6742D70461DB0A990L650J6t4",
  "0WEW8O01DcV0c36401416bJ47044D6bS026101614B024E0goG680biE6b6096jo70461076102610i36F016T0362016E04680l06",
  "cm40cZ650D6309670A630241D45faK0bA420N4p2054306485842074U044e4034mB0QEQ8QE7810I8QEQ81E102E201E202E204E108",
  "E481018107810B8QEQ82E104E208E107E10Q82E104E105E101E307E10Q8QEQ8QEQ8QEQ8QEQ8QEQ8QES820PE10P81068PE10P8106",
  "8PE10P81068PE10P81068PE10P810681E1820bE9o80bJ440bE48014E014301DI05410F4beO0A816K86068fX07410H42074102410",
  "5450bQ8X014d40b9630747620A94016iX0U614H0b8644A9n20S644A9uM0761046102610F610fH6B074b50YEY8741640A9bh20461",
  "0R610261016201610A61046101610166016401610161016103610261016201610161016101610161026101620461076104610461",
  "01610A610H65036105610H6rG0QE60QE60QEbj0032bmV0A9bcM0btqO6W0elE660g6620ge26E0hzL6di70p26bpU0fh7650emG6",
  "bdgl5015U0cO4dK0gO4ibnK0"]

/-- The code points of the class at a place in `names`. -/
def ranges (place : Nat) : List (Nat × Nat) := Run.select (· = place) (Run.decode data)

end SentenceBreak

end Unicode
end Ambigram
