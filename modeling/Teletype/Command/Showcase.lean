import Teletype.Command.Notice
import Teletype.Console.Basic
import Teletype.Fraction
import Teletype.Text.Join
import Teletype.Text.Search

/-!
# The showcase

Two programs that show texts and fractions at work on a console.
-/

namespace Teletype

/-- Writes numerator, slash and denominator, and ends the line. -/
def Fraction.writeTo (f : Fraction) : Console.Action Unit := do
  Console.write (.int f.numerator)
  Console.write (.text "/")
  Console.writeLine (.int f.denominator)

namespace Command

open Console (write writeLine ofOutcome)

namespace Showcase

/-- The operations on texts, each shown under its label. -/
def texts : Console.Action Unit := do
  let text : Text := "Test string"
  let needle : Text := "str"
  let five : Int32 := 5
  writeLine (.text ("The testing string is \"" ++ text ++ "\""))
  write (.text "Length: ")
  writeLine (.int (Int32.ofNat text.length))
  write (.text "Index of '")
  write (.char 'g')
  write (.text "': ")
  writeLine (.int (← ofOutcome (text.indexOfChar 'g')))
  write (.text ("IndexOf \"" ++ needle ++ "\": "))
  writeLine (.int (← ofOutcome (text.indexOf needle)))
  write (.text "Substring from ")
  write (.int five)
  write (.text " to end: ")
  writeLine (.text (← ofOutcome (text.substring five)))
  write (.text "Substring from ")
  write (.int five)
  write (.text " with length ")
  write (.int five)
  write (.text ": ")
  writeLine (.text (← ofOutcome (text.substringLen five five)))
  write (.text "CharAt ")
  write (.int five)
  write (.text ": ")
  writeLine (.char (← ofOutcome (text.charAt five)))
  write (.text "String equals same string: ")
  writeLine (.bool (text == "Test string"))
  write (.text "String equals not same string: ")
  writeLine (.bool (text == "Hello, World!"))
  write (.text "operator+ with self: ")
  writeLine (.text (text ++ text))
  write (.text "operator== with self: ")
  writeLine (.bool (text == text))
  write (.text "operator!= with self: ")
  writeLine (.bool (text != text))
  Console.flush

/-- The fractions that the second program shows, each under its label. -/
def fractionTable : Outcome (List (String × Fraction)) := do
  let half := (({} : Fraction).setNumerator 1).setDenominator 2
  let third := (({} : Fraction).setNumerator 1).setDenominator 3
  let sum ← half.add third
  let difference ← half.sub third
  let product ← half.mul third
  let quotient ← half.div third
  let halfAndOne ← half.addInt 1
  let oneAndThird ← Fraction.intAdd 1 third
  return [
    ("Initial fraction 1: ", half),
    ("Initial fraction 2: ", third),
    ("Fractions after operator+: ", sum),
    ("Fractions after operator-: ", difference),
    ("Fractions after operator*: ", product),
    ("Fractions after operator/: ", quotient),
    ("1/2 + 1: ", halfAndOne),
    ("1 + 1/3: ", oneAndThird)]

/-- Writes the fractions one by one, each behind its label. -/
def writeTable : List (String × Fraction) → Console.Action Unit
  | [] => pure ()
  | (label, fraction) :: rest => do
    write (.text label)
    fraction.writeTo
    writeTable rest

/-- The operations on fractions, all computed before the first is shown. -/
def fractions : Console.Action Unit := do
  writeTable (← ofOutcome fractionTable)
  Console.flush

end Showcase

/-- What a program does on a console. -/
def Program.run : Program → Console.Action Unit
  | string => Showcase.texts
  | fraction => Showcase.fractions

end Command

end Teletype
