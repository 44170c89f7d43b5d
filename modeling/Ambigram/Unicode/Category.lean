import Ambigram.Unicode.Ranges
/-!
# General categories

The category of every code point in Unicode 15.0, as runs over the whole code space: a length and the place of the
category in `names`.
-/
namespace Ambigram
namespace Unicode
namespace Category

/-- The categories, each with all of its names. -/
def names : List String := [
  "Cc Control Cntrl", "Cf Format", "Cn Unassigned", "Co Private_Use", "Cs Surrogate",
  "Ll Lowercase_Letter", "Lm Modifier_Letter", "Lo Other_Letter", "Lt Titlecase_Letter",
  "Lu Uppercase_Letter", "Mc Spacing_Mark", "Me Enclosing_Mark", "Mn Nonspacing_Mark",
  "Nd Decimal_Number Digit", "Nl Letter_Number", "No Other_Number", "Pc Connector_Punctuation",
  "Pd Dash_Punctuation", "Pe Close_Punctuation", "Pf Final_Punctuation", "Pi Initial_Punctuation",
  "Po Other_Punctuation", "Ps Open_Punctuation", "Sc Currency_Symbol", "Sk Modifier_Symbol",
  "Sm Math_Symbol", "So Other_Symbol", "Zl Line_Separator", "Zp Paragraph_Separator", "Zs Space_Separator"]

def data : List String := [
  "W01T3L1N3L1M1I1L1P1L1H2LAD2L3P2LQ91M1L1I1O1G1OQ51M1P1I1PX01T1L4N1Q1L1O1Q171K1P111Q1O1Q1P2F1O152L1O1F171J",
  "3F1LN91P79O51P851915191519151915191519151915191519151915191519151915191519151915191519151915191519151915",
  "19151915191519151915192519151915191519151915191519151925191519151915191519151915191519151915191519151915",
  "19151915191519151915191519151915191519151915291519151935291519152915392549152915393529152915191519152915",
  "19251915291539151915292517193547191815191815191815191519151915191519151915191519251915191519151915191519",
  "15191519151925191815191539151915191519151915191519151915191519151915191519151915191519151915191519151915",
  "1915191519151915191519151915191519151975291529251915491519151915191519bX517R5I64OC6EO567O161O16HOd4C1915",
  "1915161O19152216351L19422O191L391219122915H91299Z5192539351915191519151915191519151915191519151915191519",
  "5519151P19152925bF9bC5191519151915191519151915191519151915191519151915191519151915191519151Q5C2B19151915",
  "19151915191519151915191519151915191519151915191519151915191519151915191519151915191519151915191519152915",
  "19151915191519151915192519151915191519151915191519151915191519151915191519151915191519151915191519151915",
  "19151915191519151915191519151915191519151915191519151915191519151915191519151915191519151915191519151915",
  "1915191512b2922166Lb551L1H222Q1N12b9C1H1C1L2C1L2C1L1C82R742472LB2613P2L1N2L2QBC1L113LW716A7LCAD4L271CcR7",
  "1L177C111Q6C262C1Q4C27AD372Q17EL1211171CU7RC22cH7BC17E2ADX79C261Q3L16221C2NM74C169C163C165C22FL12P73C221",
  "L12B752O71O671221628Cb5716OC11WC1AbI71C1A1C173A8C4A1C2A177CA72C2LAD1L16F71C2A1287222722M7127712173247221",
  "C173A4C222A222A1C17821A422712372C22AD272N6F1Q1N171L1C222C1A1267422722M71277122712271227221C123A2C422C223",
  "C321C7247121772AD2C371C1LA22C1A1297123712M7127712271257221C173A5C122C1A122A1C2217F2272C22AD1L1N72176C121",
  "C2A1287222722M7127712271257221C171A1C1A4C222A222A1C722C1A422712372C22AD1Q176FA21C17126732371247322712171",
  "2273227323732C7422A1C2A323A123A1C2217621AE2AD3F6Q1N1Q521C3A1C87123712N712G7221C173C4A123C124C722C1237221",
  "722272C22AD721L7F1Q171C2A1L87123712N712A71257221C171A1C5A121C2A122A2C722A622712272C22AD12271AC22C2A97123",
  "712b572C173A4C123A123A1C171Q42371A7F372C22AD9F1Q67121C2A12I732O7129712172277321C423A3C121C128A62AD222A1L",
  "C2bC71C277C421N67168C1LAD2Lb12271217125712O7121712A71C279C1722571216127C12AD2247W2173QFL1Q1L3Q2C6QADAF1Q",
  "1C1Q1C1Q1C1M1I1M1I2A8712b0742EC1A5C1L2C57BC12b0C128Q1C6Q122Q5L4Q2Lb12b772A4C1A6C1A2C2A2C17AD6L672A2C473C",
  "173A277A374CD71C2A2C6A1C171AAD3A1C2Qb291219521922b751L1635j57124722771217124722b57124722X712472277121712",
  "4722F712bL7124722bV7223C9LKF32G7AQ62cE92265221Hr871Q1LH71TQ71M1I32c373L3E8772I73C1A92J72C1A2L92I72CC2D71",
  "237122CC2bG72C1A7C8A1C2ABC3L163L1N171C22AD62AF626L1H4L3C111CAD62Z716bH772572CY71C1752bY7A2V7123C4A2C3A42",
  "2A1C6A3C421Q322LADU72257B2b8742Q762AD1F32YQN72C2A1C222LbH71A1C1A7C121C1A1C2A8C6AAC221CAD62AD627L166L22EC",
  "1BGCbD24C1AbB71C1A5C1A1C5A1C2A8732AD7LAQ9C9Q2L122C1AU71A4C2A2C1A3C27ADb871C1A2C3A1C1A3C2A824Lb078A8C2A2C",
  "325LAD3237ADU7662L9572b7922398L823C1LDC1A7C471C671C271A2C1752b85bR6D516Y5b16bSC1915191519151915191519151",
  "91519151915191519151915191519151915191519151915191519151915191519151915191519151915191519151915191519151",
  "91519151915191519151915191519151915191519151915191519151915191519151915191519151915191519151915191519151",
  "91519151915191519151915191519151915191519151915191519151915191519951915191519151915191519151915191519151",
  "91519151915191519151915191519151915191519151915191519151915191519151915191519151915191519151915191519151",
  "9151915191519151915191519151915191519151915191519151995896522692285898589652269228512191219121912198589E",
  "52285888588858855122549181O153O35122549183O45222549123O85593O2235122549182O12BT516H2L1K1J1M2K1J1M1K8L1R1",
  "S511T9L1K1J4L2G3L1P1M1IBL1P1L1GAL1T5112A11F16226F3P1M1I16AF3P1M1I12D632XNF2DC4B1C3BCCF22Q194Q192Q1539253",
  "9151Q192Q1P596Q191Q191Q191Q491Q15491547152Q25295P19451Q1P2Q151QGFZE19154E1F2Q425P5Q2P4Q1P2Q1P2Q1P7Q1PVQ2",
  "P2Q1P1Q1PVQhGP8Q1M1I1M1IKQ2P7Q1M1Ic9Q1PUQPPb4Q6PbXQP2BQL2bOFc6QMFf3Q1P9Q1PbIQ8Pd3Q1PgWQ1M1I1M1I1M1I1M1I1",
  "M1I1M1I1M1IUFb8Q5P1M1IVP1M1I1M1I1M1I1M1I1M1IGPh4QdNP1M1I1M1I1M1I1M1I1M1I1M1I1M1I1M1I1M1I1M1I1M1IbRP1M1I1",
  "M1IWP1M1Ih6PbCQLP2Q6Pb3Q22WQ12cXQbC9bC519153925191519151915491519251965263915191519151915191519151915191",
  "51915191519151915191519151915191519151915191519151915191519151915191519151915191519151915191519151915191",
  "519151915191519151915191519151915191519151915191519151915191519256Q191519153C1915524L1F2Lb251215521522bK",
  "772161LE21CN79277127712771277127712771277127712WC2L1K1J1K1J3L1K1J1L1K1J9L1H2L1H1L1K1J2L1K1J1M1I1M1I1M1I1",
  "M1I5L16AL2H4L1H1L1MDL2Q3L1M1I1M1I1M1I1M1I1HY2QQ12cHQC2fYQQ2CQ421T3L1Q16171E1M1I1M1I1M1I1M1I1M1I2Q1M1I1M1",
  "I1M1I1M1I1H1M2I1Q9E4C2A1H562Q3E16171L2Q12cE7222C2O26171HcI71L361752b7712cM7122Q4FAQW7b0QC2G7VQ12AFUQ8F1Q",
  "FFWQAFb3QFFiWQhb47bSQwlP716bfR732bJQ92b47662LhG7163LG7AD27K219151915191519151915191519151915191519151915",
  "191519151915191519151915191519151915191519151915171C3B1LAC1L16191519151915191519151915191519151915191519",
  "15191519151915262CbY7AE2C6L82NO962O191519151915191519151915193519151915191519151915191519151915191519151",
  "91519151915191519151915191519151915191519151915191519151915191519151915191519151915168519151915291519151",
  "91519151915162O19151915171915193519151915191519151915191519151915191519155915591519151915191519151915191",
  "51915491519155219151215121519151915O2361915172615771C371C471CN72A2C1A4Q1C326F2Q1N1Q62bG74L822AbE7GA2C822",
  "LAD62IC673L171L271CADS78C2LN7BC2AB21LT7323C1AbB71C2A4C2A2C3ADL1216AD422L571C1697AD5712b576C2A2C2A2C92371",
  "C871C1A22AD224LG716673Q171A1C1AbE71C173C272C572C171C17O227162LB71A2C2A2L17261A1CA267226722679277127712b7",
  "51O4695162O42c85Z72A1C2A1C2A1L1A1C22AD62lyC7C2N742bD742ceW4gvS3k6722cY7b2275C25552171CA71PD7125712171227",
  "122712d07HOG2k371I1MGQbS722bI7721QW2C71N3QGC7L1M1I1L62GC1L2H2G1M1I1M1I1M1I1M1I1M1I1M1I1M1I1M1I2L1M1I4L3G",
  "3L124L1H1M1I1M1I1M1I3L1P1H3P121L1N2L425712dR72211123L1N3L1M1I1L1P1L1H2LAD2L3P2LQ91M1L1I1O1G1OQ51M1P1I1P1",
  "M1I1L1M1I2LA716b9726V73267226722672237322N1P1O1Q2N121Q4P2QA2312Q22C712Q712J7122712F722E7Y2dF7523L42b9F32",
  "9QbHE4FHQ2F3Q12DQ321QbB2b9Q1CdM2T732bD7F21CRF42W74F92K71E871E52b275C52U7121Lb0742871L5Eb62b49b45c6722AD6",
  "2b0942b0542b4782bG7B21LB912F91279122912B512F512751225bV2iN792M7A287O26612b661296bX267221712b871227321722",
  "N7121L8FN72Q7FV7829FbC2J71227525FM76F321LQ7521LbS2bK7422F27GF22bAF173C122C524C47123712T7223C421C9F729L72",
  "T72F1LT73FW2871QS72C425F7L92bI7327LM7228FJ7528FI7724LC27Fc82c17bJ2bF9D2bF5726Fb074C82ADi62VF12b67122C1H2",
  "227c323CT7AF1782M7BC4F5LM2I74C4Lb22L77FK2N7921A1C1AbH7FC7L42KFAD1C272C17923C1Ab973A4C2A2C2L114L1CA21122P",
  "772AD623Cb075C1A8C12AD4L172A1782Z71C2L17922C1AbC73A9C2A474L4C1L1A1CAD171L173L12KFB2I712P73A3C2A1C1A2C6L1",
  "C271CbQ2771217124712F712A71L62bB71C3A8C52AD622C2A1287222722M7127712271257122C172A1C4A222A223A2217621A525",
  "72A227C325CdV2bH73A8C2A3C1A1C475LAD2L121L1C37U2bC73A6C1A1C4A2C1A2C271L1782ADeM2bB73A4C224A2C1A2CNL472CY2",
  "bC73A8C2A1C1A2C3L17B2AD62DLJ2b771C1A1C2A6C1A1C171L62ADbI2R7223C2A4C1A5C42AD2F3L1Q77f52b873A9C1A2C1LcS2W9",
  "W5AD9FC28722172287122712O76A122A222C1A1C171A171A1C3L92ADbY28722b373A4C222C4A1C171L171AR217ACb476C1A174C8",
  "L1C82176C2A3CbA7DC1A2C3L175LD2c1772ALgU29712b171A7C126C1A1C175LA2ADJF322LU722MC121A7C1A2C1A2Cc1277122712",
  "b276C321C122C127C171C82AD6267122712W75A122C122A1C1A1C1772ADiM2J72C2A2L722C171AD712Y72A5C322A1C1A1CDLADcE",
  "217F2LF8Q4NHQD21LzM7cU2d3E125LB2fG7cv82cP72LD2bdS7G11C67FCehE2q77jfT2pT772V712AD422Lc7712AD62U7225C1LA2",
  "bC77C5L4Q461L1QA2AD127F12L752J7t42W9W5NF4LcT2c37421C17bJA724CD6bS2261L161CB22AE2goG782biE7b6297jo7246127",
  "6122612i37F217T2372217E24782l07cm42cZ752D7329772A7221Q2C1L41faK2bAC22NC92d8QbO2gUQA2b3Q22bOQ2A3C3Q6A818C",
  "2Q7CUQ4CbPQL2bUQ3C1QdE2KFC2KFC2cFQ92PFdR2Q9Q5Q97512I5Q9Q51912292219222922491289451215127512B5Q9Q52912492",
  "289127912Q529124912591219327912Q5Q9Q5Q9Q5Q9Q5Q9Q5Q9Q5Q9S522P91PP51P65P91PP51P65P91PP51P65P91PP51P65P91PP",
  "51P65191522bEDo8QbJC4QbEC8Q1CEQ1C2Q5LF25C12FCbeO2A517K56265fX27C12HC227C122C125C52bQ6X21Cd42b97327C7622A",
  "D42171QiW2U71CH2b874CAD521NmW2R7164CADuM2771247122712F712fH7229F7Cb52Y9Y57C1642AD422LvT2bNF1Q3F1N4Fc42b9",
  "F1QFFfE24712R712271217221712A712471217121762174217121712171237122712172217121712171217121712271217224712",
  "7712471247121712A712H75237125712H7bG22PhI2b8Q42cSQC2FQ22FQ12FQ12b1QA2DFeHQbK2TQD2b8Q429Q722QE26QeA2gZQ5O",
  "u8Q42HQ32DQ32dBQ42cNQ62CQ421QF2CQ42bKQ82AQ62b4Q82UQ222Qc62jGQC2EQ22DQ329Q72bAQ127Q82EQ429Q729Q72e3Q12bJQ",
  "b12ADbcM2btqO7W2elE762g6722ge27E2hzL7di72p27bpU2fh7752emG7bdgl5211U2cO1dK2gOCcrmO2csaE322csaE322"]

def runs : List Run := Run.decode data

/-- The code points whose category stands at one of these places in `names`. -/
def ranges (places : List Nat) : List (Nat × Nat) := Run.select (places.contains ·) runs

/-- The places of the categories with one of these abbreviations. -/
def places (short : List String) : List Nat :=
  (List.range names.length).filter fun i =>
    match names[i]? with
    | some n => short.any fun s => (s ++ " ").toList.isPrefixOf n.toList
    | none => false

end Category
end Unicode
end Ambigram
