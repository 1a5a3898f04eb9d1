/-
What `json.loads` gives, and what Python does with such values.
-/
import ProjectAgent.Lib.Double

namespace Json

inductive Value where
  | null
  | bool (value : Bool)
  | int (value : ℤ)
  | float (value : Double.Number)
  | str (value : String)
  | list (items : List Value)
  | dict (items : List (String × Value))

namespace Value

/-- `items.get(key, default)`. -/
def get (items : List (String × Value)) (key : String) (default : Value) : Value :=
  (items.lookup key).getD default

def ofOption {α : Type} (f : α → Value) : Option α → Value
  | none => null
  | some a => f a

/-- `bool(value)`. -/
def truthy : Value → Bool
  | null => false
  | bool b => b
  | int i => i ≠ 0
  | float number => number ≠ .finite 0
  | str s => s ≠ ""
  | list items => !items.isEmpty
  | dict items => !items.isEmpty

/-- What is an instance of `int`, as `bool` is. -/
def int? : Value → Option ℤ
  | int i => some i
  | bool b => some (if b then 1 else 0)
  | _ => none

/-- `value == text`. -/
def isStr (value : Value) (text : String) : Bool :=
  match value with
  | str s => s = text
  | _ => false

end Value

end Json
