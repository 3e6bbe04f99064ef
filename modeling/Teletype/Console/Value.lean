import Teletype.Binary32.Writing
import Teletype.Literal
import Teletype.Text.Basic

/-!
# Values

What a console can write, and how each kind of value is rendered.
-/

namespace Teletype

/-- A value that a console can write. -/
inductive Value
  | int (n : Int32)
  | float (x : Binary32)
  | bool (b : Bool)
  | char (c : Char)
  | text (t : Text)

namespace Value

/-- The bytes that stand for a value. -/
def render : Value → List UInt8
  | int n => Utf8.encode (Integer.write n)
  | float x => Utf8.encode (Binary32.write x)
  | bool b => Utf8.encode (Boolean.write b)
  | char c => Utf8.encode [c]
  | text t => t.bytes

/-- The bytes written so far and then those of a value. -/
def appendTo (v : Value) (out : List UInt8) : List UInt8 :=
  out ++ v.render

end Value

end Teletype
