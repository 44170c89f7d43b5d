import Ambigram.Unicode.Ranges
/-!
# Ages

The version of the standard in which a code point was first assigned, up to Unicode 15.0; the last age stands
for those that never were.
-/
namespace Ambigram
namespace Unicode
namespace Age

/-- The ages from the oldest on, each with all of its names. -/
def names : List String := [
  "1.1 V1_1", "2.0 V2_0", "2.1 V2_1", "3.0 V3_0", "3.1 V3_1", "3.2 V3_2", "4.0 V4_0", "4.1 V4_1",
  "5.0 V5_0", "5.1 V5_1", "5.2 V5_2", "6.0 V6_0", "6.1 V6_1", "6.2 V6_2", "6.3 V6_3", "7.0 V7_0",
  "8.0 V8_0", "9.0 V9_0", "10.0 V10_0", "11.0 V11_0", "12.0 V12_0", "12.1 V12_1", "13.0 V13_0",
  "14.0 V14_0", "15.0 V15_0", "NA Unassigned"]

def data : List String := [
  "nY043U0831516I336B7E8cH05326bB013A053H6bY093158657362013D54920292P1038101F4P701P101PK01Pb801970132510131",
  "01310131013I02415564713C013bU013C013b5019232543bH0252025202518S02380272068G548G92A2B8F1Pb202P701Jb301J10",
  "132P2F1C1PH117D1A0189011378PR04P1J50BP461C1F5917109659101E1N17101BQ059J03336671BE025c00235013F013U026A05",
  "316E31PU336R32P36U7I9bD315EPbN82P3JbAA2PFA1PSB2P1B1PBI5PVN1P2N6P8N1C1FBC6F2G1N8HAMBN1JFH1GRC1F1A3016bH02",
  "BI01A1B501A2BP0295B1F2A2817281F301P802P202PM01P701P103P402P1016702P202P30178P104P201P502PL01A2I1J2P16101",
  "61P604P202PM01P701P201P201P202P101P504P202P303P197P401P107PF0191JAP301P7016101P301PM01P701P201P502PA01P3",
  "01P302P10FP10362PA01C167P1G6I1P301P802P202PM01P701P201P16402P80192P202P307P1M204P201P30292PB0166BAP201P6",
  "03P301P403P201P101P203P203P303P8017304P503P301P402P196P10EP17C0865P1F301J801P301PN01PA01F502P1N19701P301",
  "P407P201P291G2P1N2P20292PA07P1K891H1F201J801P301PN01PA01P502P26701P301P407P206P1N101P20282PA01P281OCP1I1",
  "F201M801P301PN01BG01B2I1960191P301P401B1H4P3H107H1G20292PA0693H791P1M231PI33PO31P931P132P733P134P631P131",
  "P836PAF2P33CPbM04PT0b1P201P101P1K201K101P1K106K401K701K301P101P102K201KD01K302P501P101P601O1PA02P202CWP",
  "c011PX113294PR14B6113111PL133711311331PF31P191327394A2Bb1PY3195319231973394369Q3bS94A29b201P1C5P1C2Pb302",
  "52710173CcI05AbW05AcA06A7317bR317131P432P731P131P432Pb3317131P432PV317131P432P731P131P432P7317731PN317V3",
  "17131P432P7317b3317J32P2B27S33PQ76PcD31G2P6G2P1ArI39AT33Pc938F7PD51N751N9P1NN59PK5CPD51P351P25CPcL3162PA",
  "36PA66PF31NA36PcG31J7Pb63195PbYAAPT62F1PC64PC64P163Pb662P56BPb672A4PQ76PA71A3P27W6S72P27bRA1PTA2PBA6PAA6",
  "PEA2PFF2MENbDPc481N3Pb982N1Pb793CC96CbGB8P4BbK93PF93PbF99H7Pb7J2P3J8C8PZA4C1I2F1K5Pd06cG778S9FF4I1N1H1B1",
  "A28eB01149cI069M02P602Pb202P602P801P101P101P101PV02PbH01PF01PE02P601PJ02P301P901PbB013N01563552627157755",
  "191P4E70152PR01P578B3PB011123325473A1B1D3F1G1I1NFPI02375174819FPbL0231617F51728193AbC01318491A2G4PcJ093C",
  "5gQ0E51013dD01315U3bG526B7C81ABB7F4H1Ib1023PPB0LPdV0K516e60A5c808385K026251713cE023C527A586B7192A26G718A",
  "93A49AA1BJA1B1A4BOA1F401B402BS01BZ01B101B403B101A702B70E5V03BO01BE01B77481C191C2BS549G5h43o85E667785948",
  "b593F595AQF2PWF1P1MYF3JCF1K8F1IPJ4GFJ1KbB71NbB71ND8391A3948692AcZ77A2C5Pb971P1C5P1C2PbI72C7P171BEP1BN79P",
  "771P771P771P771P771P771P771P771PW9O74927J91AAC7F2H5I5J1K3MBNYPQ31PcH3CPfY3QPC34PbK0333513101PcC0252P6025",
  "cM0155Pb40191I1J1PcM01PG0O33B5MG7K9CPG5T0261Pb00CA16F5S02617bE0F5C046bB01LdB046cR026V016haU3AMbS6wiM0M78",
  "98A1C9GLI5JDM3NbgD33PI325G315C3153315139PbCAiC9KPW92BI98CS96F1G1CcGA8PN7485928cZ92B1G2B2CCFAB1C3F1H1J2F6",
  "G2J6K2N5K4M5P2N1P1N1P5NOP3N2M1F2C1B59b871M3PAA6PbK88PbX91H8PC96PSA2G2JcC9BP19TA3Pc6A1PBA4P2AVF1PbJ99PE92",
  "PA92P49SA4FbVAOP5ANCAP6B2P6B2P6B9P7B1P7B1PbCF4G2F2K4M4Pc8GbAA2PAA6PlyC1CPNA4PbDA4PceW1he602CbN53A2PcY7b2",
  "P70CP505P13P01P501P101P201P201Pd00GB1NGPk50GNbS02PbI07P1NW4C015162NG5A76P40397F2GL02526A01PJ01P404P30151",
  "01PdR02P101PcM025cM03P602P602P602P303P701P70AP331230C61PQ61PJ61P261PF62PE6YPdF65P364Pb963P96c372F2H1PC91",
  "M3P1FbBPbA9dMPT93PbD9FPSF4PV41F449P3IR45Pb7F5PU61P16b074PE7b6Pb2426b24c862PA66Pb0H4Pb0H4Pb4F8PbGFBP1FBN1",
  "PFN1P7N1P2N1PBN1PFN1P7N1P2NbVPiNF9PMFAP8FOP6N1Pb6N1P9NbXP662P161Pb861P263P162P16MA1P9AbRF8P9FbCPJG1P2G5P",
  "5GQ82A3P18Q95P19bSPbKC4P2G2CGG2PbAG471P275P871P371PR72J2P374P971J7P977PWAWFWPb3F4PCF9PbIA3PTA2PRA5P8AIF7",
  "P4FCP7Fc8Pc1AbJPbFGDPbFG7P6Gb4J8PAJi6PVA1Pb6M1P3M2P2Mc3P3Ob4J8Pb6JMPQNb2PSMKPNK9Pc6B4PUB6N9P1FbUA1NAP1J2",
  "PPC7PAC6PbHC1PEC3J1M8Pb3F9Pc1C4G1F2MAC1F5G1PKFBPIF1Pb7F1H3ObQP7G1P1G1P4G1PFG1PBG6PbNF5PAF6P1G3F1P8F2P2F2",
  "PMF1P7F1P2F1P5F1P1J9F2P2F2P3F2P1G6P1F5P7F2P7F3P5FdVPcIH1M1H1P1H1J1K2MUPc0F8PAFeMPbIF2PIFKGYPbXFBPAF6PDHJ",
  "PbKC1K1N6PACbIPQG1J2PFG4PGG7Nf5PbOJcSPcBFCP1F7M2P1M2P8M1P2M1PUM1P2M2PCM9PAMbYP8K2PbAK2PBKRPc0I8PbGI2KNI1",
  "J5IDPGNbLF7PAOgUP9H1Pb9H1PEHAPTH3PWH2PMH1PEHc1P7I1P2I1Pb8I3P1I1P2I1P9I8PAI6P6J1P2J1Pb1J1P2J1P6J7PAJiMPPJ",
  "7PHO1Pb5O3PSOcEP1MFPbEKDP1KyF8b6F1GcUPcR8CF1P481FBPfGGcv8PcRNDPbdRA1O9KTOehEPq7GjfTPpTB7PVF1PAF4P2Fc7N1P",
  "AN6PUF2P6FAPbYFAPAF1P7F1PLF5PJFt4PcJJcTPbXC6K4P1KbBC9K7PHCbSP1H1I2K1MBP2MEPgo5H5J6K8PuZHnFMb6P9Mjo7P4N1P",
  "7N1P2N1P2BhXI4NFP1OTP3K2P1OEP4K8Pl0Icm4PcZF5PDF3P9F7PAF2P8FfaKPbAN2PNN9Pd8NbOPgU4APb342P19f04BG2NLPbY7dE",
  "PKOCPKJCPcF69PI87JdRPcD41PbZ41P242P142P242P441PC41P141P4416241PbT41P442P841P741PS41P441P541P143P741PjE42",
  "72Pi24282PbE4s4GFP5G1PFGbeOPVN6P6OfXP7H1PHH2P7H1P2H1P5H5PbQOXP1Od4Pb9K3PEK2PAK4P2KiWPVNHPbMK5P1KmWPb6OuM",
  "P7N1P4N1P2N1PFN1PfHF2PGFb5Pc3H1K4PAH4P2HvTPbWJc4PbPKfEP4C1PRC1P2C1P1C2P1C1PAC1P4C1P1C1P1C6P1C4P1C1P1C1P1",
  "C1P3C1P2C1P1C2P1C1P1C1P1C1P1C1P1C1P2C1P1C2P4C1P7C1P4C1P4C1P1C1PAC1PHC5P3C1P5C1PHCbGP2ChIPb894PcS9CPFB2PE",
  "B1F1PFB1PFBMFAPBA2F3MVA1J1B1ABB1A1B1A2B1A3B1A3B5A8B1A7B1AAB2C1K3M9B1A1B2A2B1AAB4A2B1AABIH1MbKPQB1A2BDPYA",
  "9B1H4P9A7P2BEP6IeAPXBCF3G6B1FbYB1F2GKBCFb1B1F5B4F5GCFHB7F8GbRB1F1B1Ff2B1F4B2F1GbQB2F4C7F5GOBIF1Hb5F1HcEF",
  "5B1CGB1C3B1C1B1C1B1C1B1C3B1C6B2C4B1C1B2C4B1CCB2F2GBBbCFbYBAF1G2H2I1K2M4P1O3NDF3P4F3H2I1J1K2M3Pd8B3O4P5O",
  "cDF4J1O6PCK4P1NFPCF4PbKF8PAF6Pb4F8PUF2P2Mc6PCI1M3K9G6H1I8H8I1H2ICH1KCH1I3JFHDI5J1K1M4J2M1N1J1K4J5GDH6IBJ",
  "2M6K3M2KAJ6K1G2J8K1M1N3KNIPJcCKCPEJ2P4K1M3O3K2N3P3K4M2O7P6KJM4N3O7M4N3O1P1O3M3N8P2O7M3N2O4P8N1O7P7N2O7P",
  "e3M1PbJMb1PAMbcKP21btqF47M2NWPel9A4N1O6Pg6B2Pge2GEPhzLIdi7Pp24bpSP21fh7M5PemGOcigMP21csaEP21csaEP21csaEP",
  "21csaEP21csaEP21csaEP21csaEP21csaEP21csaEP21csaEP211P14UPcO4dKPgO6crmMPfkaY10P"]

/-- The code points assigned at or before the age at a place in `names`. -/
def ranges (place : Nat) : List (Nat × Nat) := Run.select (· ≤ place) (Run.decode data)

end Age
end Unicode
end Ambigram
