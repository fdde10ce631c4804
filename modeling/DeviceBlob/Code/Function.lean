/-!
# Functions in device code

A generated function is a list of statements.  The statements that walk over a blob keep what they
do with it: which member is set, how far the walk moves on, and which other function is called.
Everything else is a line of its own that calls nothing.
-/

namespace DeviceBlob.Code

/-- How far a walk over a blob moves on. -/
inductive Stride where
  /-- By a number of bytes. -/
  | bytes (count : Nat)
  /-- By what a function measures at the place reached so far. -/
  | measured (function : String)
  deriving DecidableEq, Repr

/-- The stride as an expression; the counter holds the distance walked so far. -/
def Stride.text (counter : String) : Stride → String
  | .bytes count => toString count
  | .measured function => s!"{function}(blob + {counter})"

/-- The function that measures the stride. -/
def Stride.calls : Stride → List String
  | .bytes _ => []
  | .measured function => [function]

/-- A statement of a generated function. -/
inductive Statement where
  /-- A line that calls no generated function. -/
  | line (text : String)
  /-- The walk moves on over a field; the counter holds the distance walked. -/
  | advance (counter : String) (stride : Stride) (field : String)
  /-- A member becomes a pointer to the place reached in the blob. -/
  | point (member pointee : String)
  /-- A function fills a member from the place reached in the blob. -/
  | fill (member function : String)
  /-- A function measures the first element of an array. -/
  | measureElement (function : String)
  /-- The distance of an element from the first one is computed from what a function measures. -/
  | seekElement (function : String)
  /-- A function fills an item from the place of an element. -/
  | fillItem (function : String)
  deriving DecidableEq, Repr

namespace Statement

/-- The statement as a line of code. -/
def text : Statement → String
  | line text => text
  | advance counter stride field => s!"{counter} += {stride.text counter}; /* {field} */"
  | point member pointee => s!"self->{member} = ({pointee}*)(blob + offset);"
  | fill member function => s!"{function}(blob + offset, &self->{member});"
  | measureElement function => s!"unsigned long item_size = {function}(blob + 8);"
  | seekElement function => s!"unsigned long offset = index * {function}(array.first);"
  | fillItem function => s!"{function}(array.first + offset, item);"

/-- The generated functions that the statement calls. -/
def calls : Statement → List String
  | line _ => []
  | advance _ stride _ => stride.calls
  | point _ _ => []
  | fill _ function => [function]
  | measureElement function => [function]
  | seekElement function => [function]
  | fillItem function => [function]

end Statement

/-- A generated function. -/
structure Function where
  /-- The type of the result. -/
  result : String
  /-- The name of the function. -/
  name : String
  /-- The types and names of its arguments. -/
  arguments : List String
  /-- What the function does. -/
  body : List Statement
  deriving DecidableEq, Repr

namespace Function

/-- The function's result, name and arguments. -/
def signature (f : Function) : String :=
  f.result ++ " " ++ f.name ++ "(" ++ ", ".intercalate f.arguments ++ ")"

/-- The declaration of the function without its body. -/
def prototype (f : Function) : String := f.signature ++ ";"

/-- The function with its body. -/
def definition (f : Function) : String :=
  let lines := f.body.map fun statement => "\t" ++ statement.text ++ "\n"
  f.signature ++ "\n\x7b\n" ++ String.join lines ++ "\x7d"

/-- The generated functions that the body calls. -/
def calls (f : Function) : List String := f.body.flatMap (·.calls)

end Function

end DeviceBlob.Code
