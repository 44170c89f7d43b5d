import Ambigram.Unicode.Ranges
/-!
# Simple case folding

The sets of code points that differ in case only, in Unicode 15.0.  A set is written as the gap from the first member of
the set before it, the number of its other members, and the gaps between members.
-/
namespace Ambigram
namespace Unicode
namespace CaseFolding

def data : List String := [
  "bT1W11W11W11W11W11W11W11W11W11W12WiyV11W11W11W11W11W11W11W12WhG11W11W11W11W11W11W11WcJ2uNWB1W11W11W11W11",
  "W12WivI11W11W11W11W11W11W11W11W11W11W11W11W11W11W11W11W11W21W11W11W11W11W11W11W11idJW1dD1112112112112112",
  "11211211211211211211211211211211211211211211211211211211411211211311211211211211211211211311211211211211",
  "21121121121121121121121121121121121121121121121121121131121121131fF11fU11121121fQ11121fP11fP11131c711fM1",
  "1fN11121fP11fR11cP11fV11fT11121eJ21fV11fX11dM11fY11121121121g211121g231121g211121g111g111121121g31114113",
  "1bK52113211321131121121121121121121121131121121121121121121121121132113114112112112112112112112112112112",
  "1121121121121121121121121121141121121121121121121121121181lnV11131lnS11loF11loF11131bX11bZ11121121121121",
  "121lnJ11lnG11lnIA1btfJ51btfF41bteG11btf841btf811lmF11btf551lmLC1llZ51btf751bteIM1btdX11btdUeN3cCWhr9b711",
  "21141151dM11dM11dM21d871b221b111b111b121bS21bR11bR21W12WU11W11W12WbS11W11W13WPZ22WbI11W21W11W11W12WM12W",
  "bC22V111W11W12WF11W11W12WiaT11W11Wb01891121121121121121121121121121121121141751131161c811c811c811c811c81",
  "1c811c811c811c811c811c811c811c811c811c811c811W11W12WgqU11W12WgqT11W11W11W11W11W11W11W11W11W12WgqK11W11W1",
  "2WgqI13WgqI111W11W11W11W11W11W11W12WgqC11W11W11W11W11WbD11221gpO2112112112112112112112112112112112112112",
  "11211A1121121121121121121121121121121121121121121121121121121121121121121121121121121121F111211211211211",
  "21121131121121121121121121121121121121121121121121121121121121121121121121121121121121121121121121121121",
  "121121121121121121121121121121121121121121121131bC11bC11bC11bC11bC11bC11bC11bC11bC11bC11bC11bC11bC11bC11",
  "bC11bC11bC11bC11bC11bC11bC11bC11bC11bC11bC11bC11bC11bC11bC11bC11bC11bC11bC11bC11bC11bC11bC11bCdcA1htS11",
  "htS11htS11htS11htS11htS11htS11htS11htS11htS11htS11htS11htS11htS11htS11htS11htS11htS11htS11htS11htS11htS1",
  "1htS11htS11htS11htS11htS11htS11htS11htS11htS11htS11htS11htS11htS11htS11htS11htS21htS61htS31dfK11dfK11dfK",
  "11dfK11dfK11dfK11dfK11dfK11dfK11dfK11dfK11dfK11dfK11dfK11dfK11dfK11dfK11dfK11dfK11dfK11dfK11dfK11dfK11",
  "dfK11dfK11dfK11dfK11dfK11dfK11dfK11dfK11dfK11dfK11dfK11dfK11dfK11dfK11dfK11dfK11dfK11dfK11dfK11dfK31dfK1",
  "1dfK11dfKsP1bpnK11bpnK11bpnK11bpnK11bpnK11bpnK11bpnK11bpnK11bpnK11bpnK11bpnK11bpnK11bpnK11bpnK11bpnK11",
  "bpnK11bpnK11bpnK11bpnK11bpnK11bpnK11bpnK11bpnK11bpnK11bpnK11bpnK11bpnK11bpnK11bpnK11bpnK11bpnK11bpnK11",
  "bpnK11bpnK11bpnK11bpnK11bpnK11bpnK11bpnK11bpnK11bpnK11bpnK11bpnK11bpnK11bpnK11bpnK11bpnK11bpnK11bpnK11",
  "bpnK11bpnK11bpnK11bpnK11bpnK11bpnK11bpnK11bpnK11bpnK11bpnK11bpnK11bpnK11bpnK11bpnK11bpnK11bpnK11bpnK11",
  "bpnK11bpnK11bpnK11bpnK11bpnK11bpnK11bpnK11bpnK11bpnK11bpnK11bpnK11bpnK11bpnK11bpnK118118118118118118ciZ2",
  "blrM1gP1bltG41ebYH1bluWd61121121121121121121121121121121121121121121121121121121121121121121121121121121",
  "1211211211211211211211211211211211211211211211211211211211211211221bM21121121121121121121121121121121121",
  "1211211211211211211211211211211211211211211C112112112112112112112112112112112112112112112112112112112112",
  "11211211211211211211211211211211211211211211211211211211211211211211211211211211211218118118118118118118",
  "118918118118118118118B18118118118118118118118918118118118118118118118918118118118118118C1821821821891811",
  "811811811811811811891c211c211cE11cE11cE11cE11cS11cS11dK11dK11d411d411dI11dI31811811811811811811811891811",
  "8118118118118118118918118118118118118118118918118219G19D18118F18118417E19iV1SbA1G11G11G11G11G11G11G11G11",
  "G11G11G11G11G11G11G11GK11wR1Q11Q11Q11Q11Q11Q11Q11Q11Q11Q11Q11Q11Q11Q11Q11Q11Q11Q11Q11Q11Q11Q11Q11Q11Q11Q",
  "bz51bC11bC11bC11bC11bC11bC11bC11bC11bC11bC11bC11bC11bC11bC11bC11bC11bC11bC11bC11bC11bC11bC11bC11bC11bC11",
  "bC11bC11bC11bC11bC11bC11bC11bC11bC11bC11bC11bC11bC11bC11bC11bC11bC11bC11bC11bC11bC11bC11bCbD117112112117",
  "11311B11211211211211211211211211211211211211211211211211211211211211211211211211211211211211211211211211",
  "211211211211211211211211211211211211211211211211211911211511bheM1121121121121141121121121121121121121121",
  "1211211211211211211211211K11211211211211211211211211211211211211211dS11211211211211211211411211211211211",
  "211211211211211211211211211211211211211211211211211211211211211211211211211211B1121131121121121121151151",
  "121121bC211211211211211211211211211211B1zS111211211211211211211211511211711611211T11xvW1W11W11W11W11W11W",
  "11W11W11W11W11W11W11W11W11W11W11W11W11W11W11W11W11W11W11W11WbhY1b411b411b411b411b411b411b411b411b411b411",
  "b411b411b411b411b411b411b411b411b411b411b411b411b411b411b411b411b411b411b411b411b411b411b411b411b411b411",
  "b411b411b411b4dT1b411b411b411b411b411b411b411b411b411b411b411b411b411b411b411b411b411b411b411b411b411b41",
  "1b411b411b411b411b411b411b411b411b411b411b411b411b411b4eD1b311b311b311b311b311b311b311b311b311b311b321b3",
  "11b311b311b311b311b311b311b311b311b311b311b311b311b311b321b311b311b311b311b311b311b321b311b3bx71bS11bS11",
  "bS11bS11bS11bS11bS11bS11bS11bS11bS11bS11bS11bS11bS11bS11bS11bS11bS11bS11bS11bS11bS11bS11bS11bS11bS11bS11",
  "bS11bS11bS11bS11bS11bS11bS11bS11bS11bS11bS11bS11bS11bS11bS11bS11bS11bS11bS11bS11bS11bS11bSdgU1W11W11W11W",
  "11W11W11W11W11W11W11W11W11W11W11W11W11W11W11W11W11W11W11W11W11W11W11W11W11W11W11W11Wxk11W11W11W11W11W11W",
  "11W11W11W11W11W11W11W11W11W11W11W11W11W11W11W11W11W11W11W11W11W11W11W11W11W11Wbho11Y11Y11Y11Y11Y11Y11Y11",
  "Y11Y11Y11Y11Y11Y11Y11Y11Y11Y11Y11Y11Y11Y11Y11Y11Y11Y11Y11Y11Y11Y11Y11Y11Y11Y11Y"]

/-- Reads one set after another; `first` is the first member of the set before. -/
def decode : Nat → Nat → List Nat → List (List Nat)
  | 0, _, _ => []
  | fuel + 1, first, gap :: count :: rest =>
    members (first + gap) (rest.take count) :: decode fuel (first + gap) (rest.drop count)
  | _ + 1, _, _ => []
where
  members (n : Nat) : List Nat → List Nat
    | [] => [n]
    | gap :: gaps => n :: members (n + gap) gaps

def sets : List (List Nat) :=
  let numbers := Ranges.numbers data
  decode numbers.length 0 numbers

/-- The code point and all that differ from it in case only. -/
def orbit (n : Nat) : List Nat := (sets.find? (·.contains n)).getD [n]

end CaseFolding
end Unicode
end Ambigram
