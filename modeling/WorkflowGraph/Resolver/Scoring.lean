import WorkflowGraph.Number.Decimal
import WorkflowGraph.Text.Search
/-
Scores of a text against keywords, concepts and use cases, each from 0 to 100. The arithmetic is that of doubles in the
order written here, so scores can be compared and printed exactly.
-/
namespace WorkflowGraph

namespace Scoring

open Text

/-- a decimal as a double -/
def decimal (digits : Nat) (exponent : Int) : Double := Decimal.toDouble false digits exponent

/-- all parts of a length, from left to right -/
def windows (n : Nat) : List Char → List (List Char)
  | [] => if n = 0 then [[]] else []
  | c :: rest =>
    let part := (c :: rest).take n
    if part.length = n then part :: windows n rest else []

/-- whether some part of the text, seven tenths as long as the keyword, occurs in the keyword -/
def isPartial (text keyword : List Char) : Bool :=
  let n := (((Double.ofNat keyword.length).mul (decimal 7 (-1))).truncate?.getD 0).toNat
  n != 0 && (windows n text).any fun w => occurs w keyword

/-- whether the keyword without its last two characters, but with three at least, occurs in the text -/
def isStem (text keyword : List Char) : Bool := occurs (keyword.take (max 3 (keyword.length - 2))) text

/-- the points of one keyword: ten when it occurs, five for a part of it, three for its stem -/
def keywordPoints (text keyword : List Char) : Nat :=
  if occurs keyword text then 10 else if isPartial text keyword then 5 else if isStem text keyword then 3 else 0

/-- a share of a whole in percent -/
def percent (hits total : Nat) : Double := if total = 0 then Double.zero else Double.ofRatio false (hits * 100) total

/-- the points of all keywords as a share of the most they could have -/
def keywordScore (text : String) (keywords : List String) : Double :=
  if keywords.isEmpty then Double.zero
  else
    let points := keywords.foldl (fun sum k => sum + keywordPoints text.toList k.toList) 0
    (Double.ofRatio false points (keywords.length * 10)).mul (Double.ofNat 100)

/-- the share of concepts all of whose words occur; the words of a concept are joined by underscores -/
def conceptScore (text : String) (concepts : List String) : Double :=
  percent (concepts.countP fun c => containsAll text (pieces '_' c)) concepts.length

/-- whether at least six tenths of the words of a use case occur -/
def fitsUseCase (text useCase : String) : Bool :=
  let words := pieces '_' useCase
  let present := words.countP (contains text)
  ((Double.ofNat words.length).mul (decimal 6 (-1))).leInt present

/-- the share of use cases that fit -/
def useCaseScore (text : String) (useCases : List String) : Double :=
  percent (useCases.countP (fitsUseCase text)) useCases.length

end Scoring

end WorkflowGraph
