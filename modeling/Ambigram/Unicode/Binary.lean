import Ambigram.Unicode.Ranges
/-!
# Yes-or-no properties

The code points that have a property in Unicode 15.0, as gaps and lengths.
-/
namespace Ambigram
namespace Unicode
namespace Binary

def asciiHexDigitData : List String := [
  "bC975Q5"]

def alphabeticData : List String := [
  "bTP6PbB0A0405M1U1mP4BE47010cE0b641123106012101J1cA1dU8eL1b1206b4b3D101111108Q43TA5bJ16EcT174742A220GbBD",
  "cSOW91405N2IJO7A5N15Hb5AB366c31F124EDI17212L16103337212110804114C1A04215412L16111111444121407310H5B21812",
  "1L16111438121130F3L34217212L161114372121914114D0G115321331101131323B4432123060b4C121M1F37121281122023S31",
  "7121M1914371212816113D2CC121b4271212105374M5121H3N181026851017I1DbL5660bF110141N101I12241060E3W0bR71Z4I4",
  "F1ZbVbI1024GbRA32b110502b61j8132610132b4132W132610132E1bK132bUb1FGcD253r72G1P5c23A7JBKCJCC1211CbF2IE040",
  "bVcG7b65bXAU1B48NT24Bb74PbIR4bQ2JbE0N1B2bDbF1E17bFb523Ab71AEbIM2AZ287b622b531511305fBb3DBhP252b125271010",
  "101U2bG1610321633254C5216d80D0GCcT040291034601010131A235440Hb4wLbFbyEgC6331Cb110502bJ70GM961616161616161",
  "61VbB0n12P874244cD621cH135b61cLHVbCFo8hb3bSxrGbVb92hG3FA1KbA573d4b382cU2bR511014OJ1WObFCbV10b853012AW5YD",
  "S3bE1BF0GFA41bI9DIM3bW1010O22F23B5252596161b61D6dELlyBCM4bCjaSk52cXb26C45B1C141011111cZXk2IbR2bHb4Bd841",
  "dQb0P6PBcG35252522ZB1P1I111E2DYdEbXbGhFS3bCbBVDT5b65T2Z4714b6eDIZ4Z4b38bFCA1E16111A1E1611bViM9LA7O51b518",
  "bX5201b711302MAM9UbTI11ALAPbYbJ61bS31157121Sb6S3SZ71RRbHALAIDHd2c0bJbEDbEDb3jKb51131c6SA08Lb6HbAKRM9bXb7",
  "4AbK90DONbEH38Y309bR1391A010ZH1X2063bQ610131E197bKN317212L161114372121306056eCbT1213K2UbT2110f4bH26P5YbQ",
  "1030bNbH20bZQ2DL6f5bKcVbRV72027111T112123cL72b9251011RbE29HbZ50Ic0hB81b81610bDT2L1Dc16111b73011121021O51",
  "11b0111310j3M9G1b432d30c7zLcUd2HfFcv8cOFbdRH5ehTq6jfTpS7UHc6HTIbBG3VK5It4bRdKc24bK7GbS110C1EgoF8biDb68",
  "jo7316111i2F0T220E38kZcm4cY5C387940gk9cC1bY112021231B10161bS1327161R131410361jF2O1O1U1O1U1O1U1O1U1O17bz8",
  "U65fX61G2611145bPX0d4b8A6G0iXTIb7nGRv0613111E1fGbNbV3030bhG31Q111020191310106040101012111020101010101110",
  "2316131310191G52141GrGP6P6PdyUbtqNWelD6g52ge1EhzKdi7p1bpUfh65emF"]

def bidiControlData : List String := [
  "brG0hcH1Q4bJ3"]

def bidiMirroredData : List String := [
  "b41I010S010T010b90F0dz23caD1cqC1A1bI1E1eX0fC33530313313101048501H539110172U2350912I5194214N2F83K171be5D",
  "c2023111253523Dl7L251D807530441124401221A521CI13201020135162O1B14311214b6271b350103452403410h40oB33111E1",
  "29b77lV927cekL551eI1I010S010T0101111cgy70bL0bL0bL0bL0"]

def caseIgnorableData : List String := [
  "b3060B0Z010bZ040104021nZfB41409110gZ6fR050bDb810111110b80B5AA10Z0AKG0cT71913X010UQcJAbMA4020ONb72b807167",
  "b5bLbJ010474036A1D0F0bM04380K1Q021bL041412230U130B1bL0441140K1M510bM020138071B1U0bP0C0bE030bJ012521371B1",
  "T0bM0206051K1S1bL14380K1T0c007210cI026B8cQ0289016c11R01010bJD14115A1Z90cU3151121P142G3D02160F0cM0qW2baA2",
  "T1U1U1bS116802A3050b94bF0bT1Y0dA2419062g3120bM0161010276920b308UbD3bC0141050b48C1W32112bK0113012bM721bS5",
  "cA21C16406031bEbQD0YcSmD012B2D2D2D1C481A02024bD41910D0GCbFWde31d52dH0F0cOVbB0n10b033450cL5cL2bejY0biQ5hI",
  "0cQ31910S3c81EXc60N2cV231803040P150e71QHD0b27PAbA2bC02321H0L1bU52121C080Z0B0bF012215110R0E15110cS492dD02",
  "040vr40e3GpXF30CFY020eP07060B0Z010bB0b91bV0L2o90gA0e54bcL51b518q621153b4240eL1pX3kR1c82bYAbD3dF0bIEb5021",
  "A2bD3212040A0bE2b0417bQ0C1bG8A320cN220116020eD037L1bL130b1634fF72210N0cC5104111gM36111R1cD72011cY0102510",
  "cT22314h7811h411040e032140W9b4523809522bAC11lA61510cAL261111dE530111610c013010jN1B1bG45010fsTG6EoyA4bN69",
  "3bcR0bRGbS111rnF31611dlQ113faKb92Mp429F26U3e42ccZbI4bD80E0M41EblS61G2611145bPX0eGDk80bP3o34bbK6d17cxZ4",
  "bglmP0UcNdKgN"]

def casedData : List String := [
  "bTP6PbB0A0405M1U1fE134fR1Z71U4cO0b632123106012101J1cA1dU8eL1b19b4daVb110502b613sOcD25ciI87b622bSfBbShP25",
  "2b125271010101U2bG1610321633254C5216d80D0GCcT040291034601010131540235440HV31wPbFbyEgC6331Cb11050bhcYb9IT",
  "dOcT331bM511014O412wTb61D6c7vrK6C4bcPP6Pbh1c7cOZ4Zd8A1E16111A1E1611mJ0221b518bhXbEDbEdf1bRxj4bRbbtScC1bY",
  "112021231B10161bS1327161R131410361jF2O1O1U1O1U1O1U1O1U1O17bz891J65h9bPciYbVceCP6P6P"]

def changesWhenCasefoldedData : List String := [
  "bTPcI0AM17W010101010101010101010101010101010101010101010101010101020101010101010101110101010101010101010",
  "10101010101010101010101011101010111011122311123111101011102011121011307111111010101010101010201010101010",
  "10101021101210101010101010101010101010101010101010101010101010101010107111201310101010gU0b60103080601210",
  "111G18M0C231101010101010101010101010112110112bEbC0101010101010101010101010101010109010101010101010101010",
  "10101010101010101010101010101010111010101010102010101010101010101010101010101010101010101010101010101010",
  "101010101010101010101010101010101010102b1bC0daWb11050wI5ciI87b622iW0101010101010101010101010101010101010",
  "10101010101010101010101010101010101010101010101010101010101010101010101010101010101010101010101010101010",
  "10101010512010101010101010101010101010101010101010101010101010101010101010101010101010101010101010101010",
  "10109785A78785B010101087GbB22255225B3C45225i903160b9FJ0wQPbz4bBbC012201010131020821010101010101010101010",
  "1010101010101010101010101010101010101010101010101010101010101010101010101010801040bheL010101010101010101",
  "010101010101010101010101010J010101010101010101010101010dR01010101010103010101010101010101010101010101010",
  "1010101010101010101010101010A010111010101040102010301010101010101010101414101010101010101310605010S0yQc7",
  "vrK6C4bcPPbhXb3dSZeCA1E1611bx6bEdgTVxk0Vbho0X"]

def changesWhenCasemappedData : List String := [
  "bTP6PbM0AM1U1bR1cB1C1D2D21104cK1H6Q111011311011142011207020113550A1eM0b632132106012101J1bA3W141dO8eL1b1A",
  "b2daWb110502b622sOcD25ciI87b622f5030G0d5eB201d9252b125271010101U2bG1610321633254C5216i903160R0HV31wPbF",
  "byEd411117cT7331Cb11050bhcYb9IRdQD2bP9E32241O1Q5143R1xW0Sc7vrK6C4bcPP6Pbh1c7cOZ4Zd8A1E16111A1E1611bw3bED",
  "bEdf1bRxj4bRbhn4bV"]

def changesWhenLowercasedData : List String := [
  "bTPcTM16X01010101010101010101010101010101010101010101010101010102010101010101010201010101010101010101010",
  "10101010101010101010101110103110111223111231111010111020111210113071111110101010101010102010101010101010",
  "1021101210101010101010101010101010101010101010101010101010101010107111201310101010i10103080601210111G18Z",
  "08010101010101010101010105020112bEbC01010101010101010101010101010101090101010101010101010101010101010101",
  "01010101010101010101110101010101020101010101010101010101010101010101010101010101010101010101010101010101",
  "01010101010101010101010102b1dc9b11050u2cDcj6b622iW010101010101010101010101010101010101010101010101010101",
  "01010101010101010101010101010101010101010101010101010101010101010101010101010101010101010101010901010101",
  "010101010101010101010101010101010101010101010101010101010101010101010101010101010101010109785A78785B0101",
  "01087O7878784B4B3C4B4i903160b9FJ0wQPbz4bBbC0122010101310208210101010101010101010101010101010101010101010",
  "101010101010101010101010101010101010101010101010101010801040bheL0101010101010101010101010101010101010101",
  "01010J010101010101010101010101010dR010101010101030101010101010101010101010101010101010101010101010101010",
  "101010A010111010101040102010301010101010101010101414101010101010101310605010S0xvVPbhXb3dSZeCA1E1611bx6bE",
  "dgTVxk0Vbho0X"]

def changesWhenTitlecasedData : List String := [
  "cPPbM0b5N17101010101010101010101010101010101010101010101010101010102010101010101011101010101010101010101",
  "01010101010101010101010102010122010203050203130201010204020301020301040111110101010101010101110101010101",
  "01010121010301010101010101010101010101010101010101030101010101010101080211040101010151110113110111420112",
  "07020113550A1eM0b70103032I0RY1132101010101010101010101014102020bGbB1010101010101010101010101010101010901",
  "01010101010101010101010101010101010101010101010101020101010101011101010101010101010101010101010101010101",
  "010101010101010101010101010101010101010101010101010101010bDb2dyO5ciI8gO030G0d601010101010101010101010101",
  "01010101010101010101010101010101010101010101010101010101010101010101010101010101010101010101010101010101",
  "01010101010101010165010101010101010101010101010101010101010101010101010101010101010101010101010101010101",
  "0101010101885A78785A7878D2787878411603211832187A211jI0XF40xFPbzQbB10311010106020A01010101010101010101010",
  "1010101010101010101010101010101010101010101010101010101010101010101010101010801040Cb11050bhcZ01010101010",
  "1010101010101010101010101010101010J010101010101010101010101010dR0101010101010301010101010101010101010101",
  "01010101010101010101010101010101010A010201010101040401120101010101010101010B0101010101010104010605010S0",
  "xW0Sc7vrK6C4bdLPbi5b3dSZeBA1E1611bxVbEdfXVxk0Vbho2X"]

def changesWhenUppercasedData : List String := [
  "cPPbM0b5N17101010101010101010101010101010101010101010101010101010102010101010101011101010101010101010101",
  "01010101010101010101010102010122010203050203130201010204020301020301051111110101010101010111010101010101",
  "01011111030101010101010101010101010101010101010103010101010101010108021104010101015111011311011142011207",
  "020113550A1eM0b70103032I0RY1132101010101010101010101014102020bGbB101010101010101010101010101010101090101",
  "01010101010101010101010101010101010101010101010102010101010101110101010101010101010101010101010101010101",
  "0101010101010101010101010101010101010101010101010101010bDb2dc8b622v45ciI8gO030G0d60101010101010101010101",
  "01010101010101010101010101010101010101010101010101010101010101010101010101010101010101010101010101010101",
  "01010101010101010101016501010101010101010101010101010101010101010101010101010101010101010101010101010101",
  "01010101010101885A78785A7878D2bG114010321140332187A21140jD0XF40xFPbzQbB10311010106020A010101010101010101",
  "010101010101010101010101010101010101010101010101010101010101010101010101010101010801040Cb11050bhcZ010101",
  "010101010101010101010101010101010101010J010101010101010101010101010dR01010101010103010101010101010101010",
  "1010101010101010101010101010101010101010A010201010101040401120101010101010101010B01010101010101040106050",
  "10S0xW0Sc7vrK6C4bdLPbi5b3dSZeBA1E1611bxVbEdfXVxk0Vbho2X"]

def dashData : List String := [
  "b90bm40bF0dxD0bcL0cf55bP0b30F0kU0dhG020V140S0mE0J0d30cefS1b10A0eP0eh30"]

def defaultIgnorableCodePointData : List String := [
  "eT0sP0tW0dc21bsZ1cD4ceR4Q4bDFeqK0cdyZFgN0eG0c78bzpJ3frZ7bguy5ejR"]

def deprecatedData : List String := [
  "j50bkP0cm3010cg11ckD5tD1bliq60"]

def diacriticData : List String := [
  "cM010bZ0604021nZeE1755H14091h14fT0bJG1Q101110dQ741dQ14132bVQcJAbMAY1dI7b59GRbP0G033S0c20G0d20G0d20G0bB2",
  "bO0G070dB0d20G0d20G0d11G0dG0dG510cZ0D4c31R0101041bU211bQ0d4011b4144P610A1tL2baC1eZA90jN2iP720bCE2AcW0F0",
  "b28bI1dU1bS5cAO406022bEbQcHBb1AmD012B2D2D2D1do02iT0o25cX3cN0bgd60C110S1cA1EXcU2d11fM0RHbL3b00cN0C0b00e52",
  "bT3bF0cS492dK1vr40vDFhI010bB0b91bV0v80bgV51b518wI1pV5n12bYAbD3fC0b50c01dC1bQ0c4092cW1eY1c90G0O634fP030dF",
  "1gZ1dI0dA1d70hH1h6140eC0cB0I0c90lP0h6011c90gfBEoyA4bN6beWGc81rn231611imHb92Mp42358726U3dz6bPfE6kF0bP3bpS",
  "6d1212"]

def emojiData : List String := [
  "Z06059d3040iqD0C0g00M0cI5F1k71C0eM0PA42fJ0gF1A090bM314902021204020112030318250105BB1201110I021I510113150",
  "2141B15120511011K155132040202510201010603060A1F02040104210B1bC290E0E0kC1mV2J1bF040biI0C0qP010ervE0fM0eG1",
  "C1E029c3P11N0K028L1eUX2d321122cA221hA1bQB51N7127C0232041D120819052C28220104060306cDbCbX57224930113029gBB",
  "40hVbA191f4d4C387b9168D4878"]

def emojiComponentData : List String := [
  "Z06059isB0fX0cimR0corYPo34boG3bgjz0cN"]

def emojiModifierData : List String := [
  "fgtF4"]

def emojiModifierBaseData : List String := [
  "kl10g30G3evyF0bO22022d912ALI3042127010O0fL140L041eU234cB0G290B0pZ02087609922bK0bP11110H21CgD2b68"]

def emojiPresentationData : List String := [
  "jpM1fP33020oH1L1bEBb70J0D081H1518050L0711040207041S0Z0104210bP2O0E0xV1bF040etv20fM0fA029c3P10O0K02412L1",
  "eUWC81bX1LCb644CG303bY101f62bQD31NI0Q1D0cEcCbCbX60322243B178gBB40hVbA191f4d4C387b9168D4878"]

def extendedPictographicData : List String := [
  "eP040iqD0C0g00M0cI5F1k71C0cN0bY0PA42fJ0gF1A090bM3151B1d5Ad92A1010603060A1F02040104210B4b9290E0E0kC1mV2J1",
  "bF040biI0C0qP010ervAh3D2V0bO5C1E029IbKREA0K028139m15iT8hDbCdJd8BcDb6C3bK7A5b47Uc9CbA191m8h4bcD"]

def extenderData : List String := [
  "f30oW1yE0m90xU0uW0dJ0cnV0bK0qZ0l20bW0fiX0b74cV1cL2bejY0bqE0baQ0M0dT0d00L1xcR0cfC1dgA0r42bi70wbL1bgS110",
  "bfa01cf22"]

def graphemeBaseData : List String := [
  "WcMXC1qHd472546101J1g77eL1b12bD22bA01020209Q45H9B01b9LF1cS8061204V201TTcGB0Eb6963N4090307E1O501A5UHb5bL",
  "bI10138312792S1117212L1610333011612110D1124N5015412L1611111142O310792210C018121L16111433801130F14B708117",
  "212L16111430206121F1124HB015321331101131323B5011321230LK6217121M1F3033J2202149791A121M19143111112111H111",
  "4912EA121b4201152121142194P211H3N18102691667922CbB11B78Cb1110141N1019119024109923WN2Q10101D1ZI05024bD715",
  "1Cb1b84060212O233F4C11251E1b310502kG132610132b4132W132610132E1bK132bU5S3P6cD252sK3cG7H309I229HEC12FbF207",
  "711B839696A596cG742X105bXAU43224115703b524Bb74P6A3bK213bJ10901185D9696DcEbB7014193Q9A3V41203bJ102210318",
  "bB815E3bN7b62AB0D0731512205fBbShP252b125271010101U2bG1E1D251I22181A5N7bCG12Q1C3WbRdV4sEPALbyB2V1jJ315b81",
  "0502bJ71FM9616161616161616XcLYP1cGCfXQB4b56F1cD4cS5b61cL1cBCbA1bfhO3bI9jNKbA40AV2c7258fM511014OF12131O24",
  "496bJ8bVABOC1b18OB1BT6bB11412F1A461O1b46121B21710292V1bE1031242010OG27B5252596161bN4d81113396lyBCM4bCjaS",
  "k52cXb26C4501N141011111dGGmC2bH70WFG9MY1I13441dQ4eC2U352525223616D12B1P1I111E2DYdE524b83cF1C30bBb8dNS3bC",
  "GQ4Z9T5b1AT1b04Db6eD296Z4Z4b38bFBB1E16111A1E1611bViM9LA7O51b518bX5201b711302M1bZ88bCI115W3Q50bSbJ4J2bAF3",
  "121SA8787bRWb06B9bH3S2Q5P73C6c8c0bJbEDbE7b5C9i6U1b53021c6b38LB8MH43b2RKM901bHF64T1120CbC412113EO799Z509H",
  "8Y12BbF99411F1JBH1R31102511bR610131E1A6bA12D98117212L161114301013212220C6eCbJ81301K1012UbB11601110202389",
  "eMbA1163202Qb0bE811023B96CJb61011601169bIQ51409Mf5bA9020cScAC72027111N141140131299bY72b58313R0Ab36147906",
  "13b9D028Dc079gU81b1E015AS3VP07020c36111b1L09965111b041101079iMI239E1Z81101McE0FbDDzMcUd214BfFcv8cQDbdRH5",
  "ehTq6jfTpS7U194c8196T70AbB7EA9161K5It4cIcTc25bJBCbS3C1EgoF8biDb68jo7316111i2F0T220E38kZcm4cY5C38792020",
  "fcWd7bOgTAb22bN1033L17T4bOLbT30dEJCJCcE9OdRcC1bY112021231B10161bS1327161R131410361jF2i32pLbJ3bE71D16bfOU",
  "65h9bPe2b8A62941iWTIb74950mWR49uM613111E1fG28bCbV704941vTbVc4bOfE31Q111020191310106040101012111020101010",
  "1011102316131310191G52141GbG1hIb74cRCE2E1E1b0AeTbKSDb74871E5eAbbB4G3C3dA4cM6B40FB4bJ896b38T21c6jFCD2C387",
  "b9168D48787e21bIb19bcMbtqNWelD6g52ge1EhzKdi7p1bpUfh65emF"]

def graphemeExtendData : List String := [
  "vCd3hN6hBb810111110c0AbCKG0cT6252113Z0UQcJAbM890O3181214b72bO7b6N1VbJ010474036A1T0bM010238090A1Q021bL041",
  "412230U130B1bL0441140K1M510bM011138072A1U0bN010C090b4030bJ012521371B1T0bM02020305171B1S1bL110238090A1T0",
  "c0040221080c9026C7cQ028B6c11R01010bJD14115A1Z90cU3151121P142G3D02160F0tJ2baA2T1U1U1bS116802A90b9210d91Y0",
  "dA2419062g3120bM0161010276920bCUbD3bC61050b48C1W32112bK0113012bM721e821C16406031fIbRoK0fFWdhA2dX0cOVpE5",
  "cX1bgfW319W1c81hK03040P150e71QHD0b27PAbA2bC02321b30bV52121C080bB0bF012215110b6180gM02040vr40uHFGFk61qT0",
  "gA0e54buE21153b4240eL1pX3kR1c82bYAbD3dF0bIEb5021A2bD32170bP2b0417bQ0C1bG8A320cN220116020eD037L1bL11010M0",
  "E634fF72210N0c902510201111gJ0236111R1cD72011cY0102510cT22314h7811gT0A11040e032140W9b4523809522bAC11lA615",
  "10cAL261111dE530111610c013010jN1B1bG45010ft906EoyA4bN6bd40bR3c90uzK1faPb92Mp2012448726U3e42ccZbI4bD80E0M",
  "41EblS61G261114cS0eG6kF0bP3o43bbK6d16bgolPcNdKgN"]

def graphemeLinkData : List String := [
  "co50dJ0dJ0dJ0dJ0dJ0dJ0dJ0d11G0dG0d30dJ0fL0f01bwP1U0eD0s50gB0cT1bY1euR0bhnA0b10e70dY0d00iL0gU0zuP0bqU0b50",
  "E0bL0dD1dV0d80f00cQ0gS0dJ0h00dJ0dA0d80hH0h71eH0cB0I0c90lP0h81c90lT1"]

def hexDigitData : List String := [
  "bC975Q5crqX975Q5"]

def hyphenData : List String := [
  "b90dJ0biK0fbF0cf51dvP0uJ0ceeN0eP0cF0"]

def idsBinaryOperatorData : List String := [
  "ncW127"]

def idsTrinaryOperatorData : List String := [
  "ncY1"]

def idContinueData : List String := [
  "bC97P401PbB0A010205M1U1mP4BE47010Hd811231064101J1cA1dU142eL1b1206b48b8101111108Q43TA5c14cT17291I20GbM2cS",
  "EbH40202b9IR4A5N159c11dK291I17212L1610332821238041142BA0102215412L16111111201441223073107FB218121L161114",
  "29121220F329961217212L1611142821227241142910G115321331101131323B4432132060E9GC121M1F2812137112202329G317",
  "121M19142812137161132912CC121bE1214537429A5121H3N181026304510176921DbL5E19b3110141N101M2410161923W0N169B",
  "01010491Z4J1H1Z90bLc16c52b110502b61j8132610132b4132W132610132E1bK132bU2298EFGcD253r72G1P5c23A7L9LBJCC121",
  "1CcB304129X21A6cG7b65bXAU1B4BAb324Bb74P6Ab1R4bQ1S2A69D08D1FbDc439H8Cd7CbJ893bC287b622G21b25oT252b1252710",
  "10101U2bG1610321633254C5216bU1J0S0D0GCbFC403BH0402910256010101F235440Hb4cwFgC68Cb110502bJ70FN96161616161",
  "616161VoD2PE14244cD261cH135b61cLHVbCFo8hb3bSxrGbVb92hG3RKbB491d6b182cU2bR511014ObH40JbFCbXA96N301bC2ZCS3",
  "bSEA6U1bI9D296M3c0O22F24A5252596161b61D6dE11296lyBCM4bCjaSk52cXb26C45B1C141011111cZXk2IbR2bHb4B4FGF31O2W",
  "41dQJ97P401PBcG35252522ZB1P1I111E2DYdEbXbGdS0dMS3bCF0VVDT5b65T2Z4714b6eD296Z4Z4b38bFCA1E16111A1E1611bViM",
  "9LA7O51b518bX5201b711302MAM9UbTI11ALAPbYbJ61bS31157121S2240WS3SZ71TPbHALAIDHd2c0bJbEDbEDb389j2b51131c3VA",
  "08WVLb6KRM9bYVF9bN70DO796bG19438Z209bW431C10ZH1b063bQ610131E197bM596317212L1611141921222060562634dVc2594",
  "3UbX1089eMbH28N5YbS30B9b2bK79bIQ2E4966f5bMcTc1L72027111T1128C9bY72b92711RbQ808c130Ic0hB81b818F9OT2L1Dc16",
  "111b73011188965111b0111579iMM9G1b434D9cE0c7zLcUd2HfFcv8cOFbdRGLehEq6jfTpS7U196c6196T24BbI93C99K5It4bRdK",
  "c24bK7GbS111B1EgoF8biDb68jo7316111i2F0T220E38kZcm4cY5C387931faPb92Mp24358726U3e42mBcC1bY112021231B10161",
  "bS1327161R131410361jF2O1O1U1O1U1O1U1O1U1O172bDo8bI4bD80E0M41EbeOU65fX61G2611145bPX0d4b83D2940iXUHbLn2b5",
  "uM613111E1fGB6b5c349bh231Q1110201913101060401010121110201010101011102316131310191G52141GdpW9bcMbtqNWelD6",
  "g52ge1EhzKdi7p1bpUfh65emFbdgs8gN"]

def idStartData : List String := [
  "bTP6PbB0A0405M1U1mP4BE47010dL41123106012101J1cA1dU8eL1b1206b4bZQ43b9b6Z11cQ10F171A220G01TTcGB0OW91405L40",
  "9030NO7A5N15Hb5bMbH30I079FF47212L16103330G0D112E1A085412L16111111V310J2G8121L16111430I0F1N0B7212L1611143",
  "0U112F0H015321331101131323BM0bG7121M1F30Q22021U047121M191430V111F1H8121b420G05282O55H3N181026bMbB11C6bM1",
  "10141N101911902410L3W0bR71ZR4d7b6K0G5433031724CC0Hb110502b61j8132610132b4132W132610132E1bK132bUb1FGcD253",
  "r72G1P5c23A7HDIEHEC12FbFZ040bVcG7b4105bXAUbDT24Bb74PbIM9bGcA0cLbAH7bITD1Ab7QZb52AZ287b622b531511305fBbS",
  "hP252b125271010101U2bG1610321633254C5216d80D0GCcT0402910256010101F235440Hb4cwFgC6331Cb110502bJ70GM961616",
  "1616161616pA2P874244cD441cH135b61cLHVbCFo8hb3bSxrGbVb92hG3FA1KbAGU2c7b382cU2bR511014OF12131MTbFEbDbQ5301",
  "1BRAMPS7bAS0G419A41b4N217KM303bD1031242010O22A72C5252596161b61D6d6TlyBCM4bCjaSk52cXb26C450191C141011111",
  "cZXk2IbR2bHb4Bd841dQb0P6PBcG35252522ZB1P1I111E2DYdEbXbGhFS3bCbBVDT5b1AT2Z4714b6eDIZ4Z4b38bFCA1E16111A1E1",
  "611bViM9LA7O51b518bX5201b711302MAM9UbTI11ALAPbYbJ61bS0F3121Sb6S3SZ71RRbHALAIDHd2c0bJbEDbEDZjOb561c6SA08L",
  "b6HbAKRMCbGbL120Db8WOQZT0208Y30CbBE3L010ZH1OJ1bR610131E197bAb27212L16111430I0C4eEbGI3K2UbBK110f4bAb53b0",
  "bBK0bNb6D0bZQb16f5b7d8bRV72027111NF010cM72b2G010S0Ab370L0Bb9J0Ic0hB81b0H0bDTd46111b1L0P5111VE0j3IF01C1X",
  "dG0c7zLcUd2HfFcv8cOFbdRH5ehTq6jfTpS7UHc6HTIbBG3VK5It4bRdKc250bUCbS110SgoF8biDb68jo7316111i2F0T220E38kZ",
  "cm4cY5C3879gkEcC1bY112021231B10161bS1327161R131410361jF2O1O1U1O1U1O1U1O1U1O17bz8U65h9bPe2b8A6G0iXTIb7nGR",
  "v0613111E1fGbNbV70bhG31Q1110201913101060401010121110201010101011102316131310191G52141GesSbtqNWelD6g52ge1",
  "EhzKdi7p1bpUfh65emF"]

def ideographicData : List String := [
  "ndI1P8E2baThb3bSwl3yiWk52cXbgaA0RgoF8biDb68jyVkZvbObtqNWelD6g52ge1EhzKdi7p1bpUfh65emF"]

def joinControlData : List String := [
  "itW1"]

def logicalOrderExceptionData : List String := [
  "dxC4dF4czS220bnqY12011"]

def lowercaseData : List String := [
  "cPPbB0A040b0N1710101010101010101010101010101010101010101010101010101011101010101010101110101010101010101",
  "01010101010101010101010101010201012201020314020322020101020111020301021226020201010101010101011101010101",
  "0101010112010301010101010101010101010101010101010101010101010101010101016202110401010101bW1Z71U4cO0b7010",
  "3023I0RY1132101010101010101010101014102021bFbB1010101010101010101010101010101010901010101010101010101010",
  "10101010101010101010101010101020101010101011101010101010101010101010101010101010101010101010101010101010",
  "101010101010101010101010101010101010bCb4dc7b613v45ciI8dBfBbT01010101010101010101010101010101010101010101",
  "01010101010101010101010101010101010101010101010101010101010101010101010101010101010101010101010101010101",
  "81010101010101010101010101010101010101010101010101010101010101010101010101010101010101010101010101885A78",
  "785A7878D2787878411603211832187A211dD0D0GCd103130R04040218340XF40xFPbzQbB1031101010401117301010101010101",
  "0101010101010101010101010101010101010101010101010101010101010101010101010101010101011701040Cb11050bhcZ01",
  "0101010101010101010101010101010101010101010J010101010101010101010101012dP0101010101012101010101010101010",
  "10101010101010101010101010101010101010101019101020101010104010201210101010101010101010505010101010101010",
  "40106010101010O21012wTb61D6c7vrK6C4bdLPbi5b3dSZeBA1E1611mJ0221b518bjPbEdfXVxk0VbbuIPQ61HQPQ310161AQPQPQP",
  "QPQPQPQPQPQRSO15QO15QO15QO15QO1510bz891J65h9bPcjWX"]

def mathData : List String := [
  "b70G2V0T010b9040b10V0u8220Q122oN2hd90R2B030D0E3L4B4bTC403144I04029102560312112153D10bWN1511414V1061EhF83",
  "K1cI0UQ10O0B6mD1C945412134E01025B751bL010T392jCbRh4o7bCK25cew40wV510eI0G2T010T010dN063cga3cC1bY112021231",
  "B10161bS1327161R131410361jF2i32bDgaG31Q1110201913101060401010121110201010101011102316131310191G52141GbG1"]

def noncharacterCodePointData : List String := [
  "crkWVoM1csaE1csaE1csaE1csaE1csaE1csaE1csaE1csaE1csaE1csaE1csaE1csaE1csaE1csaE1csaE1csaE1"]

def patternSyntaxData : List String := [
  "XEA6Q310Q3Y610111011404030N0V0in4N8E2I19iHtZeGrHUbfFo8dJkP24OF0cec51h91"]

def patternWhiteSpaceData : List String := [
  "94I0cS0iq81O1"]

def prependedConcatenationMarkData : List String := [
  "bqO5fZ0bD0kO1c80cueA0F0"]

def quotationMarkData : List String := [
  "Y040dN0F0ip07P1dvR0mP3D2cejT3f9040cI1"]

def radicalData : List String := [
  "msOP1cGCfX"]

def regionalIndicatorData : List String := [
  "fgeMP"]

def sentenceTerminalData : List String := [
  "X0C0G0blL0e32f00b72gU0bP01031i51bx01vY041vH0fI1fO050iQ1jU3eU121T1f81bT1baK192duS0D0M1lX0bfzW0hI1gB030kM1",
  "cE1cN0e81e32e01gX0wnY031eP0C0G0bT0czW1bjH4b83f91d93dJ2dL160G1cG111d00lL1kD15EcX1gX2oD010gZ1cF1lO1t81c21",
  "uoH1dP0bT1B0xN0viU0ieO0"]

def softDottedData : List String := [
  "cX1fG0hT0U0bG0K0iW0cQ010gw10bF0D030dO0eD0lP0fY1dbM0elwL1bE1bE1bE1bE1bE1bE1bE1bE1bE1bE1bE1bE1ciM0iH1Q0"]

def terminalPunctuationData : List String := [
  "X0A010B130x2080o90bL0c00E012f00b7A10gJ1bIEV0h91bj81eS045iN1vX7vH0dG2bZ1eD230b3321iQ1jU3eU112T1f84bQ1baK1",
  "92duS0D040A01131lW1bfzV1hH2gB4kM1cE1cN0e72e32dJ0G1gX0wnW213eP0A010B130bT020be20bC0bg60fJ0iM1e85bW5cH3baG",
  "4b83f96d43dJ2dL160G1cG4d00lL2C1jY33EcX1gX2oD010gZ1cF141lI2b90rX1c21bkR4tdL1dP0bT2A0xM1viU0ieN3"]

def unifiedIdeographData : List String := [
  "ofShb3bSwl3yqE11011A0101122ctpYbtqNWelD6g52ge1EhzKfn3fh65emF"]

def uppercaseData : List String := [
  "bTPcTM16X01010101010101010101010101010101010101010101010101010102010101010101010201010101010101010101010",
  "10101010101010101010101110103110111223111231111010111020111210113070202020101010101010102010101010101010",
  "1020201210101010101010101010101010101010101010101010101010101010107111201310101010i10103080601210111G18Z",
  "0223010101010101010101010105020112bEbC010101010101010101010101010101010901010101010101010101010101010101",
  "01010101010101010101011101010101010201010101010101010101010101010101010101010101010101010101010101010101",
  "0101010101010101010101010102b1dc9b11050u2cDcj6b622iW0101010101010101010101010101010101010101010101010101",
  "01010101010101010101010101010101010101010101010101010101010101010101010101010101010101010101010109010101",
  "01010101010101010101010101010101010101010101010101010101010101010101010101010101010101010109785A78785B01",
  "0101087c03C3C3C4B3hA040322220346010101323A150QFJ0wQPbz4bBbC012201010131020821010101010101010101010101010",
  "1010101010101010101010101010101010101010101010101010101010101010101010801040bheL010101010101010101010101",
  "010101010101010101010J010101010101010101010101010dR01010101010103010101010101010101010101010101010101010",
  "1010101010101010101010A010111010101040102010301010101010101010101414101010101010101310605010S0xvVPbhXb3",
  "dSZeCA1E1611bx6bEdgTVxk0VbbuOPQPQPQ01120212317QPQ1132716R113141036RPQPQPQPQPQPUOXOXOXOXOX0esDXcfAP6P6P"]

def variationSelectorData : List String := [
  "goZ210ckx4FbjbaOgN"]

def whiteSpaceData : List String := [
  "94I0cS0Q0fzJ0cpJAT150bB0eh40"]

def xidContinueData : List String := [
  "bC97P401PbB0A010205M1U1mP4BE47010Hd811321064101J1cA1dU142eL1b1206b48b8101111108Q43TA5c14cT17291I20GbM2cS",
  "EbH40202b9IR4A5N159c11dK291I17212L1610332821238041142BA0102215412L16111111201441223073107FB218121L161114",
  "29121220F329961217212L1611142821227241142910G115321331101131323B4432132060E9GC121M1F2812137112202329G317",
  "121M19142812137161132912CC121bE1214537429A5121H3N181026304510176921DbL5E19b3110141N101M2410161923W0N169B",
  "01010491Z4J1H1Z90bLc16c52b110502b61j8132610132b4132W132610132E1bK132bU2298EFGcD253r72G1P5c23A7L9LBJCC121",
  "1CcB304129X21A6cG7b65bXAU1B4BAb324Bb74P6Ab1R4bQ1S2A69D08D1FbDc439H8Cd7CbJ893bC287b622G21b25oT252b1252710",
  "10101U2bG1610321633254C5216bU1J0S0D0GCbFC403BH0402910256010101F235440Hb4cwFgC68Cb110502bJ70FN96161616161",
  "616161VoD2PE14244cD21221cH135b61cLHVbCFo8hb3bSxrGbVb92hG3RKbB491d6b182cU2bR511014ObH40JbFCbXA96N301bC2ZC",
  "S3bSEA6U1bI9D296M3c0O22F24A5252596161b61D6dE11296lyBCM4bCjaSk52cXb26C45B1C141011111cZXdU6g1IbR2bHb496FGF",
  "31O2X010301010101dHJ97P401PBcG35252522ZB1P1I111E2DYdEbXbGdS0dMS3bCF0VVDT5b65T2Z4714b6eD296Z4Z4b38bFCA1E1",
  "6111A1E1611bViM9LA7O51b518bX5201b711302MAM9UbTI11ALAPbYbJ61bS31157121S2240WS3SZ71TPbHALAIDHd2c0bJbEDbED",
  "b389j2b51131c3VA08WVLb6KRM9bYVF9bN70DO796bG19438Z209bW431C10ZH1b063bQ610131E197bM596317212L1611141921222",
  "060562634dVc25943UbX1089eMbH28N5YbS30B9b2bK79bIQ2E4966f5bMcTc1L72027111T1128C9bY72b92711RbQ808c130Ic0hB8",
  "1b818F9OT2L1Dc16111b73011188965111b0111579iMM9G1b434D9cE0c7zLcUd2HfFcv8cOFbdRGLehEq6jfTpS7U196c6196T24B",
  "bI93C99K5It4bRdKc24bK7GbS111B1EgoF8biDb68jo7316111i2F0T220E38kZcm4cY5C387931faPb92Mp24358726U3e42mBcC1bY",
  "112021231B10161bS1327161R131410361jF2O1O1U1O1U1O1U1O1U1O172bDo8bI4bD80E0M41EbeOU65fX61G2611145bPX0d4b83D",
  "2940iXUHbLn2b5uM613111E1fGB6b5c349bh231Q1110201913101060401010121110201010101011102316131310191G52141G",
  "dpW9bcMbtqNWelD6g52ge1EhzKdi7p1bpUfh65emFbdgs8gN"]

def xidStartData : List String := [
  "bTP6PbB0A0405M1U1mP4BE47010dL41132106012101J1cA1dU8eL1b1206b4bZQ43b9b6Z11cQ10F171A220G01TTcGB0OW91405L40",
  "9030NO7A5N15Hb5bMbH30I079FF47212L16103330G0D112E1A085412L16111111V310J2G8121L16111430I0F1N0B7212L1611143",
  "0U112F0H015321331101131323BM0bG7121M1F30Q22021U047121M191430V111F1H8121b420G05282O55H3N181026bMbB10D6bM1",
  "10141N101910A02410L3W0bR71ZR4d7b6K0G5433031724CC0Hb110502b61j8132610132b4132W132610132E1bK132bUb1FGcD253",
  "r72G1P5c23A7HDIEHEC12FbFZ040bVcG7b4105bXAUbDT24Bb74PbIM9bGcA0cLbAH7bITD1Ab7QZb52AZ287b622b531511305fBbS",
  "hP252b125271010101U2bG1610321633254C5216d80D0GCcT0402910256010101F235440Hb4cwFgC6331Cb110502bJ70GM961616",
  "1616161616pA2P874244cD621cH135b61cLHVbCFo8hb3bSxrGbVb92hG3FA1KbAGU2c7b382cU2bR511014OF12131MTbFEbDbQ5301",
  "1BRAMPS7bAS0G419A41b4N217KM303bD1031242010O22A72C5252596161b61D6d6TlyBCM4bCjaSk52cXb26C450191C141011111",
  "cZXdU6g1IbR2bHb49dB010301010101dHb0P6PBbJ2U35252522ZB1P1I111E2DYdEbXbGhFS3bCbBVDT5b1AT2Z4714b6eDIZ4Z4b38",
  "bFCA1E16111A1E1611bViM9LA7O51b518bX5201b711302MAM9UbTI11ALAPbYbJ61bS0F3121Sb6S3SZ71RRbHALAIDHd2c0bJbEDbE",
  "DZjOb561c6SA08Lb6HbAKRMCbGbL120Db8WOQZT0208Y30CbBE3L010ZH1OJ1bR610131E197bAb27212L16111430I0C4eEbGI3K2U",
  "bBK110f4bAb53b0bBK0bNb6D0bZQb16f5b7d8bRV72027111NF010cM72b2G010S0Ab370L0Bb9J0Ic0hB81b0H0bDTd46111b1L0P51",
  "11VE0j3IF01C1XdG0c7zLcUd2HfFcv8cOFbdRH5ehTq6jfTpS7UHc6HTIbBG3VK5It4bRdKc250bUCbS110SgoF8biDb68jo7316111",
  "i2F0T220E38kZcm4cY5C3879gkEcC1bY112021231B10161bS1327161R131410361jF2O1O1U1O1U1O1U1O1U1O17bz8U65h9bPe2b8",
  "A6G0iXTIb7nGRv0613111E1fGbNbV70bhG31Q1110201913101060401010121110201010101011102316131310191G52141GesS",
  "btqNWelD6g52ge1EhzKdi7p1bpUfh65emF"]

/-- The properties, each with all of its names. -/
def tables : List (String × List String) := [
  ("AHex ASCII_Hex_Digit", asciiHexDigitData),
  ("Alpha Alphabetic", alphabeticData),
  ("Bidi_C Bidi_Control", bidiControlData),
  ("Bidi_M Bidi_Mirrored", bidiMirroredData),
  ("CI Case_Ignorable", caseIgnorableData),
  ("Cased", casedData),
  ("CWCF Changes_When_Casefolded", changesWhenCasefoldedData),
  ("CWCM Changes_When_Casemapped", changesWhenCasemappedData),
  ("CWL Changes_When_Lowercased", changesWhenLowercasedData),
  ("CWT Changes_When_Titlecased", changesWhenTitlecasedData),
  ("CWU Changes_When_Uppercased", changesWhenUppercasedData),
  ("Dash", dashData),
  ("DI Default_Ignorable_Code_Point", defaultIgnorableCodePointData),
  ("Dep Deprecated", deprecatedData),
  ("Dia Diacritic", diacriticData),
  ("Emoji", emojiData),
  ("EComp Emoji_Component", emojiComponentData),
  ("EMod Emoji_Modifier", emojiModifierData),
  ("EBase Emoji_Modifier_Base", emojiModifierBaseData),
  ("EPres Emoji_Presentation", emojiPresentationData),
  ("ExtPict Extended_Pictographic", extendedPictographicData),
  ("Ext Extender", extenderData),
  ("Gr_Base Grapheme_Base", graphemeBaseData),
  ("Gr_Ext Grapheme_Extend", graphemeExtendData),
  ("Gr_Link Grapheme_Link", graphemeLinkData),
  ("Hex Hex_Digit", hexDigitData),
  ("Hyphen", hyphenData),
  ("IDSB IDS_Binary_Operator", idsBinaryOperatorData),
  ("IDST IDS_Trinary_Operator", idsTrinaryOperatorData),
  ("IDC ID_Continue", idContinueData),
  ("IDS ID_Start", idStartData),
  ("Ideo Ideographic", ideographicData),
  ("Join_C Join_Control", joinControlData),
  ("LOE Logical_Order_Exception", logicalOrderExceptionData),
  ("Lower Lowercase", lowercaseData),
  ("Math", mathData),
  ("NChar Noncharacter_Code_Point", noncharacterCodePointData),
  ("Pat_Syn Pattern_Syntax", patternSyntaxData),
  ("Pat_WS Pattern_White_Space", patternWhiteSpaceData),
  ("PCM Prepended_Concatenation_Mark", prependedConcatenationMarkData),
  ("QMark Quotation_Mark", quotationMarkData),
  ("Radical", radicalData),
  ("RI Regional_Indicator", regionalIndicatorData),
  ("STerm Sentence_Terminal", sentenceTerminalData),
  ("SD Soft_Dotted", softDottedData),
  ("Term Terminal_Punctuation", terminalPunctuationData),
  ("UIdeo Unified_Ideograph", unifiedIdeographData),
  ("Upper Uppercase", uppercaseData),
  ("VS Variation_Selector", variationSelectorData),
  ("WSpace White_Space Space", whiteSpaceData),
  ("XIDC XID_Continue", xidContinueData),
  ("XIDS XID_Start", xidStartData)]

def alphabetic : List (Nat × Nat) := Ranges.decode alphabeticData

def whiteSpace : List (Nat × Nat) := Ranges.decode whiteSpaceData

def joinControl : List (Nat × Nat) := Ranges.decode joinControlData

def graphemeExtend : List (Nat × Nat) := Ranges.decode graphemeExtendData

def defaultIgnorable : List (Nat × Nat) := Ranges.decode defaultIgnorableCodePointData

end Binary
end Unicode
end Ambigram
