/-! Operators, each with its one spelling. Both languages spell them alike. -/
namespace Dartify

/-- Binary and assignment operators, the comma included. -/
inductive BinaryOp where
  | add | sub | mul | pow | div | rem
  | lt | gt | le | ge | eq | ne | strictEq | strictNe | instanceOf | isIn
  | and | or | coalesce
  | bitAnd | bitOr | bitXor | shiftLeft | shiftRight | shiftRightZero
  | comma
  | assign | addAssign | subAssign | mulAssign | powAssign | divAssign | remAssign
  | shiftLeftAssign | shiftRightAssign | shiftRightZeroAssign
  | bitAndAssign | bitOrAssign | bitXorAssign | andAssign | orAssign | coalesceAssign
deriving DecidableEq, Inhabited

namespace BinaryOp

def spelling : BinaryOp → String
  | add => "+" | sub => "-" | mul => "*" | pow => "**" | div => "/" | rem => "%"
  | lt => "<" | gt => ">" | le => "<=" | ge => ">=" | eq => "==" | ne => "!="
  | strictEq => "===" | strictNe => "!==" | instanceOf => "instanceof" | isIn => "in"
  | and => "&&" | or => "||" | coalesce => "??"
  | bitAnd => "&" | bitOr => "|" | bitXor => "^"
  | shiftLeft => "<<" | shiftRight => ">>" | shiftRightZero => ">>>"
  | comma => ","
  | assign => "=" | addAssign => "+=" | subAssign => "-=" | mulAssign => "*="
  | powAssign => "**=" | divAssign => "/=" | remAssign => "%="
  | shiftLeftAssign => "<<=" | shiftRightAssign => ">>=" | shiftRightZeroAssign => ">>>="
  | bitAndAssign => "&=" | bitOrAssign => "|=" | bitXorAssign => "^="
  | andAssign => "&&=" | orAssign => "||=" | coalesceAssign => "??="

/-- Every operator. -/
def all : List BinaryOp :=
  [add, sub, mul, pow, div, rem, lt, gt, le, ge, eq, ne, strictEq, strictNe, instanceOf, isIn,
   and, or, coalesce, bitAnd, bitOr, bitXor, shiftLeft, shiftRight, shiftRightZero, comma,
   assign, addAssign, subAssign, mulAssign, powAssign, divAssign, remAssign, shiftLeftAssign,
   shiftRightAssign, shiftRightZeroAssign, bitAndAssign, bitOrAssign, bitXorAssign, andAssign,
   orAssign, coalesceAssign]

def ofSpelling? (s : String) : Option BinaryOp := all.find? (·.spelling == s)

theorem mem_all (op : BinaryOp) : op ∈ all := by cases op <;> decide

end BinaryOp

/-- Operators in front of their operand. Those that are words have node kinds of their own. -/
inductive PrefixOp where
  | plus | minus | complement | not | increment | decrement
deriving DecidableEq, Inhabited

namespace PrefixOp

def spelling : PrefixOp → String
  | plus => "+" | minus => "-" | complement => "~" | not => "!"
  | increment => "++" | decrement => "--"

def all : List PrefixOp := [plus, minus, complement, not, increment, decrement]

def ofSpelling? (s : String) : Option PrefixOp := all.find? (·.spelling == s)

end PrefixOp

/-- Operators behind their operand. -/
inductive PostfixOp where
  | increment | decrement
deriving DecidableEq, Inhabited

namespace PostfixOp

def spelling : PostfixOp → String
  | increment => "++" | decrement => "--"

def all : List PostfixOp := [increment, decrement]

def ofSpelling? (s : String) : Option PostfixOp := all.find? (·.spelling == s)

end PostfixOp

end Dartify
