import Ambigram.Unicode.Ranges
/-!
# Scripts

The script of every code point in Unicode 15.0, and the set of scripts that it is used in.
-/
namespace Ambigram
namespace Unicode
namespace Script

/-- The scripts, each with all of its names. -/
def names : List String := [
  "Adlm Adlam", "Aghb Caucasian_Albanian", "Ahom Ahom", "Arab Arabic", "Armi Imperial_Aramaic",
  "Armn Armenian", "Avst Avestan", "Bali Balinese", "Bamu Bamum", "Bass Bassa_Vah", "Batk Batak",
  "Beng Bengali", "Bhks Bhaiksuki", "Bopo Bopomofo", "Brah Brahmi", "Brai Braille", "Bugi Buginese",
  "Buhd Buhid", "Cakm Chakma", "Cans Canadian_Aboriginal", "Cari Carian", "Cham Cham", "Cher Cherokee",
  "Chrs Chorasmian", "Copt Coptic Qaac", "Cpmn Cypro_Minoan", "Cprt Cypriot", "Cyrl Cyrillic",
  "Deva Devanagari", "Diak Dives_Akuru", "Dogr Dogra", "Dsrt Deseret", "Dupl Duployan",
  "Egyp Egyptian_Hieroglyphs", "Elba Elbasan", "Elym Elymaic", "Ethi Ethiopic", "Geor Georgian",
  "Glag Glagolitic", "Gong Gunjala_Gondi", "Gonm Masaram_Gondi", "Goth Gothic", "Gran Grantha",
  "Grek Greek", "Gujr Gujarati", "Guru Gurmukhi", "Hang Hangul", "Hani Han", "Hano Hanunoo", "Hatr Hatran",
  "Hebr Hebrew", "Hira Hiragana", "Hluw Anatolian_Hieroglyphs", "Hmng Pahawh_Hmong",
  "Hmnp Nyiakeng_Puachue_Hmong", "Hung Old_Hungarian", "Ital Old_Italic", "Java Javanese", "Kali Kayah_Li",
  "Kana Katakana", "Kawi Kawi", "Khar Kharoshthi", "Khmr Khmer", "Khoj Khojki", "Kits Khitan_Small_Script",
  "Knda Kannada", "Kthi Kaithi", "Lana Tai_Tham", "Laoo Lao", "Latn Latin", "Lepc Lepcha", "Limb Limbu",
  "Lina Linear_A", "Linb Linear_B", "Lisu Lisu", "Lyci Lycian", "Lydi Lydian", "Mahj Mahajani",
  "Maka Makasar", "Mand Mandaic", "Mani Manichaean", "Marc Marchen", "Medf Medefaidrin",
  "Mend Mende_Kikakui", "Merc Meroitic_Cursive", "Mero Meroitic_Hieroglyphs", "Mlym Malayalam",
  "Modi Modi", "Mong Mongolian", "Mroo Mro", "Mtei Meetei_Mayek", "Mult Multani", "Mymr Myanmar",
  "Nagm Nag_Mundari", "Nand Nandinagari", "Narb Old_North_Arabian", "Nbat Nabataean", "Newa Newa",
  "Nkoo Nko", "Nshu Nushu", "Ogam Ogham", "Olck Ol_Chiki", "Orkh Old_Turkic", "Orya Oriya", "Osge Osage",
  "Osma Osmanya", "Ougr Old_Uyghur", "Palm Palmyrene", "Pauc Pau_Cin_Hau", "Perm Old_Permic",
  "Phag Phags_Pa", "Phli Inscriptional_Pahlavi", "Phlp Psalter_Pahlavi", "Phnx Phoenician", "Plrd Miao",
  "Prti Inscriptional_Parthian", "Rjng Rejang", "Rohg Hanifi_Rohingya", "Runr Runic", "Samr Samaritan",
  "Sarb Old_South_Arabian", "Saur Saurashtra", "Sgnw SignWriting", "Shaw Shavian", "Shrd Sharada",
  "Sidd Siddham", "Sind Khudawadi", "Sinh Sinhala", "Sogd Sogdian", "Sogo Old_Sogdian",
  "Sora Sora_Sompeng", "Soyo Soyombo", "Sund Sundanese", "Sylo Syloti_Nagri", "Syrc Syriac",
  "Tagb Tagbanwa", "Takr Takri", "Tale Tai_Le", "Talu New_Tai_Lue", "Taml Tamil", "Tang Tangut",
  "Tavt Tai_Viet", "Telu Telugu", "Tfng Tifinagh", "Tglg Tagalog", "Thaa Thaana", "Thai Thai",
  "Tibt Tibetan", "Tirh Tirhuta", "Tnsa Tangsa", "Toto Toto", "Ugar Ugaritic", "Vaii Vai", "Vith Vithkuqi",
  "Wara Warang_Citi", "Wcho Wancho", "Xpeo Old_Persian", "Xsux Cuneiform", "Yezi Yezidi", "Yiii Yi",
  "Zanb Zanabazar_Square", "Zinh Inherited Qaai", "Zyyy Common", "Zzzz Unknown"]

def data : List String := [
  "bTeIQbX6eIQbXbBeI1bXFeI1bX5eINbX1eIVbX1eImHbXb3eI5bX5eI2DKeId4eH4b71eI3b72eJ4b71eI1b74eJ1b71eI1b71eI3b71",
  "eJ1b71eJKb71eJbRb7EOGb7dPR2eHePR1eJb252eJbE52eJ351eJbJbE8eJRbE4eJ6bEBeJ531eI631eIE31eI331eIW31eIA3BeHQ31",
  "eHd031eIY3EdQ1eJbOdQ2eJ3dQbC3bEe1EeJbNcQ2eJ3cQbAdB2eJFdB1eJSc72eJ1c71eJBdQ5eJV31eJ236eJc231eIT3c9S4eHFS2",
  "eIQS4B1eJ8B2eJ2B2eJMB1eJ7B1eJ1B3eJ4B2eJ9B2eJ2B2eJ4B8eJ1B4eJ2B1eJ5B2eJPB2eJ3b91eJ6b94eJ2b92eJMb91eJ7b91eJ",
  "2b91eJ2b91eJ2b92eJ1b91eJ5b94eJ2b92eJ3b93eJ1b97eJ4b91eJ1b97eJHb9AeJ3b81eJ9b81eJ3b81eJMb81eJ7b81eJ2b81eJ5",
  "b82eJAb81eJ3b81eJ3b82eJ1b8FeJ4b82eJCb87eJ7b81eJ3cV1eJ8cV2eJ2cV2eJMcV1eJ7cV1eJ2cV1eJ5cV2eJ9cV2eJ2cV2eJ3cV",
  "7eJ3cV4eJ2cV1eJ5cV2eJIcVAeJ2dV1eJ6dV3eJ3dV1eJ4dV3eJ2dV1eJ1dV1eJ2dV3eJ2dV3eJ3dV3eJCdV4eJ5dV3eJ3dV1eJ4dV2",
  "eJ1dV6eJ1dVEeJLdV5eJDdY1eJ3dY1eJNdY1eJGdY2eJ9dY1eJ3dY1eJ4dY7eJ2dY1eJ3dY2eJ1dY2eJ4dY2eJAdY7eJ9dYDbT1eJ3bT",
  "1eJNbT1eJAbT1eJ5bT2eJ9bT1eJ3bT1eJ4bT7eJ2bT6eJ2bT1eJ4bT2eJAbT1eJ3bTCeJDcE1eJ3cE1eJbFcE1eJ3cE1eJ6cE4eJGcE2",
  "eJQcE1eJ3dJ1eJIdJ3eJOdJ1eJ9dJ1eJ1dJ2eJ7dJ3eJ1dJ4eJ6dJ1eJ1dJ1eJ8dJ6eJAdJ2eJ3dJCeJbMe24eJ1eISe2b1eJ2bW1eJ1",
  "bW1eJ5bW1eJObW1eJ1bW1eJNbW2eJ5bW1eJ1bW1eJ7bW1eJAbW2eJ4bWWeJc0e31eJb0e34eJb3e31eJb0e31eJFe31eJ7e34eI2e3b1",
  "eJeGcKb2b11eJ1b15eJ1b12eJb7b11eI4b1h4bAc1b01eJ4b02eJ7b01eJ1b01eJ4b02eJb5b01eJ4b02eJXb01eJ4b02eJ7b01eJ1b0",
  "1eJ4b02eJFb01eJbLb01eJ4b02eJbVb02eJWb03eJQb06eJcEM2eJ6M2eJrSJTcS3eJc3dA3eIBdA7eJMe09eJ1e0LbC2eI9eJKHCeJD",
  "dR1eJ3dR1eJ2dRCeJcMbQ2eJAbQ6eJAbQ6eJ2cG2eI1cG1eIKcG6eJcHcG7eJb7cG5eJbYJAeJVbZ1eJCbZ4eJCbZ4eJ1bZ3eJCbZUdT",
  "2eJ5dTBeJb8dU4eJQdU6eJBdU3eJ2dUWbQSG2eJ2GbRbV1eJTbV2eJBbV6eJAbV6eJEbV2eJVeHbDeJc573eJbB71eJbSdObGA8eJ4A",
  "bKbY3eJFbY3eJ3bYbCcT9R7eJb7b12eJ3b18dO8eJ3eH1eIDeH1eI7eH4eI1eH6eI1eH3eI2eH1eI5eJb2bX5b71RbDbX5b74bX5b7D",
  "bX1RbYbX1b7bSeHh4bXMb72eJ6b72eJb2b72eJ6b72eJ8b71eJ1b71eJ1b71eJ1b71eJVb72eJbHb71eJFb71eJEb72eJ6b71eJJb72",
  "eJ3b71eJ9b71eJCeI2eHcFeI1eJBeI1bX2eJBeI1bXFeI1eJDbX3eJXeIFeJXeHFeJb2eI1b73eI2bX6eI1bXReI1bXHeIb5bX3eI4eJ",
  "sFeIPeJBeILeJzSeIh4FrGeI2eJWeI1eJcXeIcOb2WbXd8O5eJ7Ob2b11eJ1b15eJ1b12eJbKdZ7eJ2dZEeJ1dZNb09eJ7b01eJ7b01",
  "eJ7b01eJ7b01eJ7b01eJ7b01eJ7b01eJ7b01eJWRcMeIYeJQbB1eJcHbBCeJfYbBQeJCeI4eJ5eI1bB1eI1bBPeI9bB4eH2bA8eI4bB4",
  "eI1eJcEbF2eJ2eH2eI3bF1eIcIbN2eI3bN5eJb7D1eJcMbA1eJGeIWDb0eICeJGbNVbA1eJbSeIVbAc9eIbBbN1eIcGbNeOeIhb4bBbS",
  "eIwl4bBbgDeF3eJbJeF9eJbCc2iCe8KeJcORcG88eJYeIcUbX3eIbSbX5eJ2bX1eJ1bX1eJ5bXOeJEbXb9dP3eJAeI6eJbKd28eJbYdD",
  "8eJCdD6eJWSbAbM1eI1bMb0d8BeJ1d8TbA3eJc6bL1eJ1eIAbL4eJ2bLVcK1eJbJL9eJEL2eJAL2eJ4LWcKbVdXOeJ5dXNcIAeJ6b02",
  "eJ6b02eJ6b09eJ7b01eJ7b01eJb7bX1eI9bX1b74bX2eI4eJc8MbAcI2eJAcI6eJlyCbACeJNbA4eJbDbAjaSeJk6bB2eJcYbBb2eJ7",
  "bXCeJ555eJQbE1eJ5bE1eJ1bE1eJ2bE1eJ2bE1eJAbEd73GeJk332eIc832eJbI37eJ13WeJG3GeHAeI6eJEeH2RZeI1eJJeI1eJ4eI4",
  "eJ531eJdR32eJ1eI1eJWeIQbX6eIQbXBeIAbN1eIb9bN2eIVbA3eJ6bA2eJ6bA2eJ6bA2eJ3bA3eJ7eI1eJ7eIAeJ5eI2eJCc11eJQc1",
  "1eJJc11eJ2c11eJFc12eJEc1YeJdFc15eJ3eI4eJb9eI3eJ9eIc7b71eJDeI3eJ1b7bBeJb9eI1eHdMeJTc33eJbDKFeJ1eHReI4eJb0",
  "bK9eJ3bKRb55eJb7d15eJUe71eJ1e7b0eC4eJEeCb6eJc8VbCdFUcX2eJAcX6eJb0cW4eJb0cW4eJb4Y8eJbG1BeJ11Be91eJFe91eJ7",
  "e91eJ2e91eJBe91eJFe91eJ7e91eJ2e9bVeJiNc09eJMc0AeJ8c0OeJ6bX1eJb6bX1eJ9bXbXeJ6Q2eJ1Q1eJb8Q1eJ2Q3eJ1Q2eJ1QM",
  "41eJ94WcZVcO8eJ9cObCeJJbD1eJ2bD5eJ5bDSd53eJ1d5Qc45eJ1c4bSeJWcDOcC4eJKcC2eJbAcC4bP1eJ2bP5eJ8bP1eJ3bP1eJT",
  "bP2eJ3bP4eJAbP7eJ9bP7eJWdCWcNWeJb3c84eJCc89eJbI63eJ76Md72eJ8d7Jd35eJ8d3Id47eJ4d4CeJ7d4c8eJc1cUbJeJbFbJD",
  "eJbFbJ7eJ6bJb4d98eJAd9i6eJV31eJb6eE1eJ3eE2eJ2eEc3eJ33b4dL8eJb6dKMeJQcYb2eJSNKeJNZ9eJc6E4eJb0E9eJ1EbVbUA",
  "eJ1bU2eJPdM7eJAdM6eJbHI1eJII8eJb3c59eJcOdG1eJKdJBeJIbR1eJbBbRbQeJ7cJ1eJ1cJ1eJ4cJ1eJFcJ1eJBcJ6eJbNdI5eJA",
  "dI6eJ4b61eJ8b62eJ2b62eJMb61eJ7b61eJ2b61eJ5b61eJ1eH9b62eJ2b62eJ3b62eJ1b66eJ1b65eJ7b62eJ7b63eJ5b6dVeJcKcP1",
  "eJ5cPUeJc0e48eJAe4eMeJbIdH2eJb2dHYeJbXcFBeJAcF6eJDcGJeJbMdS6eJAdSbIeJR22eJF24eJN2f5eJbOUcSeJcBeACeJ1eA7T",
  "2eJ1T2eJ8T1eJ2T1eJUT1eJ2T2eJCT9eJATbYeJ8cM2eJbAcM2eJBcMReJc0eG8eJcBdNDeJGJbLd07eJASgUeJ9C1eJb9C1eJECAeJT",
  "C3eJWc92eJMc91eJEc9c1eJ7b41eJ2b41eJb8b43eJ1b41eJ2b41eJ9b48eJAb46eJ6b31eJ2b31eJb1b31eJ2b31eJ6b37eJAb3iMeJ",
  "Pc67eJHbO1eJb5bO3eJSbOcEeJ1c2FeJbEdVDeJ1dVzMeDcUeJd3eD1eJ5eDBeJfGeDcv8eJcRPDeJbeUXehEeJq7bGjfTeJpT87eJV",
  "cH1eJAcH4eJ2cHc7e51eJAe56eJU92eJ69AeJbYbHAeJAbH1eJ7bH1eJLbH5eJJbHt4eJcJcAcTeJc3d64eJbLd67eJHd6bSeJ1dW1cR",
  "2bB1bSBeJ2bBEeJgoGdW8eJvCdWn2bSb6eJ9dWjo7eJ4bN1eJ7bN1eJ2bN1eJ1bNhZbF3bNFeJ1bFTeJ3bF2eJ1bNEeJ4bN8eJl0cR",
  "cm4eJcZW5eJDW3eJ9W7eJAW2eJ4W4eIfaKeJbAeH2eJNeH9eJd8eIbOeJgUeIAeJb3eI2eJbQeI3eHHeI8eH2eI7eHUeI4eHbPeILeJ",
  "bYb7dEeJKeICeJKeICeJcFeI9eJPeIdReJcDeI1eJbZeI1eJ2eI2eJ1eI2eJ2eI2eJ4eI1eJCeI1eJ1eI1eJ7eI1eJbTeI1eJ4eI2eJ8",
  "eI1eJ7eI1eJSeI1eJ4eI1eJ5eI1eJ1eI3eJ7eI1eJjGeI2eJi4eI2eJbEeIs4dEFeJ5dE1eJFdEbeOeJVbX6eJ6bXfXeJ7b21eJHb22",
  "eJ7b21eJ2b21eJ5b25eJbQRXeJ1Rd4eJb9bI3eJEbI2eJAbI4eJ2bIiWeJVe6HeJbMeB5eJ1eBmWeJb6cLuMeJ7b01eJ4b01eJ2b01eJ",
  "Fb01eJfHcB2eJGcBb5eJc404eJA04eJ20vTeJbWeIc4eJbPeIfEeJ431eJR31eJ231eJ132eJ131eJA31eJ431eJ131eJ136eJ134eJ1",
  "31eJ131eJ131eJ331eJ231eJ132eJ131eJ131eJ131eJ131eJ131eJ231eJ132eJ431eJ731eJ431eJ431eJ131eJA31eJH35eJ331eJ",
  "531eJH3bGeJ23hIeJb8eI4eJcSeICeJFeI2eJFeI1eJFeI1eJb1eIAeJeUeIbKeJQeI1bF2eIDeJb8eI4eJ9eI7eJ2eIEeJ6eIeAeJ",
  "bbCeI4eJHeI3eJDeI3eJdBeI4eJcNeI6eJCeI4eJ1eIFeJCeI4eJbKeI8eJAeI6eJb4eI8eJUeI2eJ2eIc6eJjGeICeJEeI2eJDeI3eJ",
  "9eI7eJbAeI1eJ7eI8eJEeI4eJ9eI7eJ9eI7eJe3eI1eJbJeIb1eJAeIbcMeJbtqObBWeJelEbB6eJg6bB2eJge2bBEeJhzLbBdi7eJp2",
  "bBbpUeJfh7bB5eJemGbBbdgl5eJ1eIUeJcOeIdKeJgOeHibnKeJ"]

/-- The sets of scripts that occur as extensions, by place in `names`. -/
def sets : List (List Nat) := [
  [162], [69], [13], [161], [43], [163], [24], [27], [27, 109], [27, 38], [27, 69], [5], [50], [3], [3, 98,
  117, 134, 145, 158], [3, 134, 145], [0, 3, 98, 117, 134, 145, 158], [0, 3, 79, 80, 106, 112, 117, 128,
  134], [3, 134], [3, 145, 158], [3, 117], [134], [145], [98], [119], [79], [28], [11, 28, 42, 44, 45, 65,
  69, 86, 103, 124, 139, 142, 148], [11, 28, 42, 44, 45, 65, 69, 86, 103, 139, 142, 148], [11, 28, 30, 39,
  40, 42, 44, 45, 65, 77, 86, 94, 103, 126, 127, 133, 136, 139, 142, 148], [11, 28, 30, 39, 40, 42, 44, 45,
  65, 71, 77, 86, 94, 103, 126, 127, 133, 136, 139, 142, 148], [28, 30, 66, 77], [11], [11, 18, 133], [45],
  [45, 91], [44], [44, 63], [103], [139], [42, 139], [142], [65], [65, 94], [86], [127], [146], [68], [147],
  [92], [18, 92, 137], [37], [37, 69], [46], [36], [22], [19], [100], [118], [144], [48], [17, 48, 135,
  144], [17], [135], [62], [88], [88, 110], [71], [137], [138], [16], [67], [7], [132], [10], [70], [101],
  [11, 28, 42, 65], [28, 42], [11, 28], [28, 124], [28, 65, 86, 103, 139, 142], [28, 94], [11, 28, 42, 65,
  94, 103, 142, 148], [28, 42, 65], [94], [27, 134], [69, 88], [28, 42, 69], [15], [38], [143], [47], [13,
  46, 47, 51, 59, 159], [13, 46, 47, 51, 59], [13, 47], [51, 59], [47, 51, 59], [51], [59], [159], [74],
  [152], [8], [47, 69], [133], [28, 30, 44, 45, 63, 65, 66, 77, 86, 87, 94, 126, 136, 148], [28, 30, 44, 45,
  63, 65, 66, 77, 87, 94, 126, 136, 148], [28, 30, 44, 45, 63, 66, 77, 87, 126, 136, 148], [110], [121],
  [28, 139], [58], [58, 69, 92], [116], [57], [16, 57], [21], [141], [90], [3, 98], [3, 145], [73], [25, 26,
  73], [26, 73], [26, 72, 73], [75], [20], [3, 24], [56], [41], [109], [151], [156], [31], [123], [105],
  [104], [34], [1], [153], [72], [26], [4], [107], [96], [49], [113], [76], [85], [84], [61], [120], [95],
  [80], [80, 106], [6], [115], [111], [112], [102], [55], [117], [158], [129], [128], [106], [23], [35],
  [14], [66], [130], [18], [77], [124], [63], [91], [126], [42], [97], [148], [125], [87], [136], [2], [30],
  [154], [29], [160], [131], [108], [12], [81], [40], [39], [78], [60], [157], [25], [33], [52], [89],
  [149], [9], [53], [82], [114], [140], [99], [64], [32], [122], [54], [150], [155], [93], [83], [0]]

def extensionData : List String := [
  "bT0Q160Q1bB011F01150N110V110mH1b30515022K0bU3142314T3D144103425441014451410141034151415K415bR4E6G4dN7181",
  "92A19eO715b2B25bEB253B15bJC85RC456CB55D106D1EED1E1F2D1GWD1HADBIADAJ6D1IcRD1K8D10YDEL15bOL253LbCDbEME5bNN",
  "253NbAO25FO15SP251P15BL55VD152D65c2D10TDc9Q1R1S23FQ1T1UAVGQ4W158W252W25MW157W151W354W259W252W254W851W452",
  "W155W25AXFW253Y156Y452Y25MY157Y152Y152Y152Y251Y155Y452Y253Y351Y754Y151Y75AZ7YA53b0159b0153b015Mb0157b015",
  "2b0155b025Ab0153b0153b0251b0F54b025Ab12b0757b0153b2158b2252b225Mb2157b2152b2155b2259b2252b2253b2753b2452",
  "b2155b225Ib2A52b3156b3353b3154b3352b3151b3152b3352b3353b335Cb3455b3353b3154b3251b3651b3E5Eb47b355Db5153",
  "b515Nb515Gb5259b5153b5154b5752b5153b5251b5254b525Ab5759b5Db6153b615Nb615Ab6155b6259b6153b6154b6752b6652",
  "b6154b625Ab7153b6C5Db8153b815bFb8153b8156b845Gb825Qb8153b915Ib935Ob9159b9151b9257b9351b9456b9151b9158b96",
  "5Ab9253b9C5bMbA4510SbAb152bB151bB155bB15ObB151bB15NbB255bB151bB157bB15AbB254bBW5c0bC15b0bC45b3bC15b0bC15",
  "FbC157bC402bCb15bSbDAbEcEbDb2bF151bF551bF25b7bF1bG4bFh4bHc1bI154bI257bI151bI154bI25b5bI154bI25XbI154bI25",
  "7bI151bI154bI25FbI15bLbI154bI25bVbI25WbI35QbI65cEbJ256bJ25rSbKTbL35c3bM30BbM75MbN951bNLbO2bP95KbQC5DbR15",
  "3bR152bRC5cMbS25AbS65AbS652bT2bU1bT1bUKbT65cHbT75b7bT55bYbKA5VbV15CbV45CbV451bV35CbVUbW255bWB5b8bX45QbX6",
  "5BbX352bXWbSSbY252bYbRbZ15TbZ25BbZ65AbZ65EbZ25V3bD5c5c035bBc015bSc1bGc2854c2bKc335Fc3353c3bCc49775b7bF25",
  "3bF8c1851c51Q1c51c61Q2c71c81c71c81c91Q2c82Q1c81c77Q1cA1c72Q1c74Q1cB1c61cC2c71W2c61cD55b215417bD1544154D1",
  "17bY134bI31cE131L53h41M4256425b242564258415141514151415V425bH415F415E4256415J42534159415C023X01cFbH015B0",
  "1125B011F015D135X0F5W31cGF5b201430216011R011H0b513045sF0P5B0L5zS0h4cHrG025W015cX0cOcIW1d865576b2bF151bF5",
  "51bF25bKcJ752cJE51cJNbI957bI157bI157bI157bI157bI157bI157bI157bI15W7bV019Q0Y5QcK15cHcKC5fYcKQ5C045102cL1",
  "cM103cKAcL101cM8cL4cM109cK4cN2bH1cM5cO101cM4cK2cP2cK15cEcQ254cO3cQ1cOcIcR1cL1cO3cR55b7215cMbH15GcKW2b0cK",
  "C5GcRVbH15b4cKO0VbH10bDcKF0CcK40bBcR1cKcGcRPcKA05cKcO0VcK10hb4cKbS0wl4cKbgDcS35bJcS95bCcTiCcUK5bB719bC7",
  "cGcV858cWQ0cU130bS1552115111551O5E1b9cX353cY3cZ4d065bKd185bYd285Cd265HQ1c71Q1d3CQbAd41d51d4b0d6B51d6TbH3",
  "5c6d7151d8Ad7452d7VbD15bJd995Ed925Ad9254d9WbDbVdAO55dANdBA56bI256bI256bI957bI157bI15b71109114412045c8bJ",
  "bAdB25AdB65lyCbHC5NbH45bDbHjaS5k6cK25cYcKb2571C55B55QC155C151C152C152C15ACd7DG5k3D2dCc8D25bID751DW52D1dD",
  "AD1dD2DG3A065E327L02cMC015J01540455D15dRD251015W0Q160Q1605cLAcR1cOb9cR2cOVbH356bH256bH256bH253bH35701570",
  "A55025CdE15QdE15JdE152dE15FdE25EdEY5dFdE552dF1dG45b9dH359dGc7415D03514bB5b9013dM5TdI35bDdJF5SdK45b0dL953",
  "dLRdM55b7dN55UdO151dOb0dP45EdPb65c8dQbCdRUdS25AdS65b0dT45b0dT45b4dU85bGdVB51dVBdW15FdW157dW152dW15BdW15F",
  "dW157dW152dWbV5iNdX95MdXA58dXO56115b611591bX56dY251dY15b8dY152dY351dY251dYMdZ159dZWe0Ve1859e1bC5Je2152e2",
  "555e2Se3351e3Qe4551e4bS5We5Oe645Ke625bAe64e7152e7558e7153e715Te7253e745Ae7759e775We8We9W5b3eA457eA1eB4eA",
  "95bIeC357eCMeD258eDJeE558eEIeF754eFC57eFc85c1eGbJ5bFeHD5bFeH756eHb4eI85AeIi65VD15b6eJ153eJ252eJc353Db4eK",
  "85b6eLM5QeMb25SeNK5NeO95c6eP45b0eP951ePbVeQA51eQ25PeR75AeR65bHeS15IeS85b3eT95cOeU15Kb9B5IeV15bBeVbQ57eW1",
  "51eW154eW15FeW15BeW65bNeX55AeX651eY1b41eY1b4158eY252eY25MeY157eY152eY155eY152b48eY252eY253eY251eY651eY55",
  "7eY257eY355eYdV5cKeZ155eZU5c0f085Af0eM5bIf125b2f1Y5bXf2B5Af265DbTJ5bMf365Af3bI5Rf425Ff445Nf4f55bOf5cS5cB",
  "f6C51f67f7251f7258f7152f715Uf7152f725Cf795Af7bY58cD25bAcD25BcDR5c0f885cBf9D5GbKbLfA75AQgU59fB15b9fB15EfB",
  "A5TfB35WfC25MfC15EfCc157fD152fD15b8fD351fD152fD159fD85AfD656fE152fE15b1fE152fE156fE75AfEiM5PfF75HfG15b5",
  "fG35SfGcE51cTF5Gb32b41b31b4Ub3D51b3zMfHcU5d3fH155fHB5fGfHcv85cRfID5beUfJehE5q7fKjfT5pTcV75VfL15AfL452fL",
  "c7fM15AfM65UfN256fNA5bYfOA5AfO157fO15LfO55JfOt45cJfPcT5c3fQ45bLfQ75HfQbS51fR1fS2cK1fTB52cKE5goGfR85vCfR",
  "n2fTb659fRjo754cR157cR152cR151cRhZcQ3cRF51cQT53cQ251cRE54cR85l0fScm45cZfU55DfU359fU75AfU258fUfaK5bA325N3",
  "95d80bO5gU0A5b3025bQ033H0832073U043bP0L5bY4dE5K0C5K0C5cF095IcK70dR5cD015bZ0152025102520254015C0151015701",
  "5bT015402580157015S0154015501510357015jG025i4025bE0s4fVF55fV15FfVbeO5V16561fX57cI15HcI257cI152cI155cI55",
  "bQ7X517d45b9fW35EfW25AfW452fWiW5VfXH5bMfY551fYmW5b6fZuM57bI154bI152bI15FbI15fHg025Gg0b55c4g145Ag1452g1vT",
  "5bW0c45bP0fE54D15RD152D151D251D15AD154D151D151D651D451D151D151D153D152D151D251D151D151D151D151D152D151D2",
  "54D157D154D154D151D15AD15HD553D155D15HDbG52DhI5b8045cS0C5F025F015F015b10A5eU0bK5Q01cQ20D5b804590752cKE56",
  "0eA5bbC045H035D035dB045cN065C04510F5C045bK085A065b4085U02520c65jG0C5E025D0359075bA0157085E04590759075e30",
  "15bJ0b15A0bcM5btqOcKW5elEcK65g6cK25ge2cKE5hzLcKdi75p2cKbpU5fh7cK55emGcKbdgl5510U5cO0dK5gO3ibnK5"]

/-- The place of the script that stands for none. -/
def unknown : Option Nat := names.findIdx? (· = "Zzzz Unknown")

/-- The code points of the script at a place in `names`. -/
def ranges (place : Nat) : List (Nat × Nat) := Run.select (· = place) (Run.decode data)

/-- The code points that are used in the script at a place in `names`. -/
def extensionRanges (place : Nat) : List (Nat × Nat) :=
  Run.select (fun k => (sets[k]?.getD []).contains place) (Run.decode extensionData)

end Script
end Unicode
end Ambigram
