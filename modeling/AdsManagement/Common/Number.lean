/-
  File:      Common/Number.lean
  Subject:   NUMBERS IN CELLS: `parseNumberValue` of date-number.ts.

  A cell may hold thousands separators, a percent sign or a currency; they are dropped before
  `Number` reads the rest. Numbers are exact rationals, and a text too large for a double is
  not finite.
-/
import AdsManagement.Common.Json

namespace AdsManagement.Common

/-- `/[,%\s$₩￦원]/`. -/
def isAmountMark (c : Char) : Bool :=
  c = ',' || c = '%' || isJsSpace c || c = '$' || c = '₩' || c = '￦' || c = '원'

/-- `Number.isFinite`: what a double rounds to infinity starts half a unit above the greatest. -/
def isFiniteNumber (q : ℚ) : Bool := -(2 ^ 1024 - 2 ^ 970) < q && q < 2 ^ 1024 - 2 ^ 970

def parseNumberValue (value : Option String) (emptyAs : Option ℚ) : Option ℚ :=
  match value with
  | none => emptyAs
  | some text =>
    let input := trimChars text.toList
    if input = [] ∨ input = ['-'] then emptyAs
    else
      let cleaned := input.filter fun c => !isAmountMark c
      if cleaned = [] then emptyAs
      else (textNumber (String.ofList cleaned)).filter isFiniteNumber

/-- `Math.trunc`. -/
def truncNumber (q : ℚ) : Int := if q < 0 then ⌈q⌉ else ⌊q⌋

end AdsManagement.Common
