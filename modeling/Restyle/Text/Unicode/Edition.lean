-- SUMMARY: What a later edition of the character data changed.
import Restyle.Text.Unicode.Property

/-!
# The later edition

Names and messages follow a later edition of the character data than patterns do. Each property that
they need is the earlier one with the characters whose membership changed.
-/

namespace Restyle

namespace Unicode

namespace Later

/-- Letters and the like. -/
def alphabeticShift : CharSet := CharSet.ofRuns
  ["1ov 1 r0 1 3j 1 ult 2 2 1*3 s 1 j7y q 12j 3 1e 2 2g4 8 g8 18 fyc p 2 p 7y 5 4qp 8 zt m 2p 37",
   "hjh v 1 m 8 2 154q 6 4ma c gsi 3be"]

/-- Digits and other numbers. -/
def numericShift : CharSet := CharSet.ofRuns
  ["1kgw a g7e 3"]

/-- Characters with case. -/
def casedShift : CharSet := CharSet.ofRuns
  ["id 1 wmw 2 2 1*3 s 1 138u p 2 p"]

/-- Characters that casing looks past. -/
def caseIgnorableShift : CharSet := CharSet.ofRuns
  ["5an f 2 c rut 1 kb7 1 1g 2 2g4 1 1 3 1 1 he 1 g7s 2 nhr 1 2 1 7 2 5 1 9 1"]

/-- Marks that extend the character before them. -/
def graphemeExtendShift : CharSet := CharSet.ofRuns
  ["5an f 2 c 1c7i 2 2g4 1 1 3 1 1 1470 1 2 1 7 2 5 1"]

/-- Characters without a shape of their own. -/
def hiddenShift : CharSet := CharSet.ofRuns
  ["1ov 1 r0 1 3j 1 2r6 f 2 c 15h 1 250 1 ojb 2 2 1*3 s 1 gk1 g cd 2 1i 7 29d q 12j 3 8 9 x 2 2g4",
   "8 g8 18 4 a fxy p 2 p 7y 5 4qp 8 zt m 2p 37 cg7 3 cd n f h 4pb v 1 m 8 2 34o 1 4e 4 9h 9 aj 4",
   "1e 1 3 1 1l 1 4 1 s 1 4 1 7e 1 10zj 6 4ma c gsi 3be"]

def alphabetic : CharSet := Unicode.alphabetic.symmDiff alphabeticShift

def numeric : CharSet := (categoriesOf ["nd", "nl", "no"]).symmDiff numericShift

def cased : CharSet := Unicode.cased.symmDiff casedShift

def caseIgnorable : CharSet := Unicode.caseIgnorable.symmDiff caseIgnorableShift

def graphemeExtend : CharSet := Unicode.graphemeExtend.symmDiff graphemeExtendShift

/-- Controls, formats, blanks, and code points without a character. -/
def hidden : CharSet :=
  (categoriesOf ["cc", "cf", "co", "cn", "zl", "zp", "zs"]).symmDiff hiddenShift

end Later

end Unicode

end Restyle
