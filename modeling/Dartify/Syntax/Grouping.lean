import Dartify.Syntax.Production
import Dartify.Tree.Operator

/-! How operators group: their levels, the side conditions of the productions with operators, and
how much an operand takes up of what follows it. -/
namespace Dartify

namespace BinaryOp

/-- The levels of binary operators; a higher level binds tighter. -/
def level? : BinaryOp → Option Nat
  | .coalesce => some 1
  | .or => some 2
  | .and => some 3
  | .bitOr => some 4
  | .bitXor => some 5
  | .bitAnd => some 6
  | .eq | .ne | .strictEq | .strictNe => some 7
  | .lt | .gt | .le | .ge | .instanceOf | .isIn => some 8
  | .shiftLeft | .shiftRight | .shiftRightZero => some 9
  | .add | .sub => some 10
  | .mul | .div | .rem => some 11
  | .pow => some 12
  | _ => none

/-- Only powers group to the right. -/
def groupsRight (op : BinaryOp) : Bool := op == .pow

/-- Whether the right operand of an operator may be a binary expression without brackets: its
operator binds tighter, or alike if powers meet. The bracket of `<` may open type arguments, so
it belongs to the name in front of it wherever its level allows. -/
def admitsRight (op inner : BinaryOp) : Bool :=
  match op.level?, inner.level? with
  | some outer, some level => outer < level || (outer == level && (op.groupsRight || inner == .lt))
  | _, _ => false

/-- Whether the left operand of an operator may be a binary expression without brackets. -/
def admitsLeft (op inner : BinaryOp) : Bool :=
  match op.level?, inner.level? with
  | some outer, some level => outer < level || (outer == level && !op.groupsRight && op != .lt)
  | _, _ => false

end BinaryOp

namespace Syntax

/-- What an operand stands behind. It decides how much the operand takes up of what follows. -/
inductive Reach where
  /-- A bracket, an equals sign, an arrow or nothing: the operand takes up all it can. -/
  | whole
  /-- A binary operator. -/
  | right (op : BinaryOp)
  /-- A unary operator. -/
  | sign
  /-- `++` or `--`. -/
  | update
  | awaited
  /-- A type in angle brackets. -/
  | asserted
  /-- `new`. -/
  | constructed
  /-- What an assignment begins with. -/
  | assigned
deriving DecidableEq

namespace Reach

/-- Whether a binary operator behind the operand belongs to it. -/
def takesOperator (r : Reach) (op : BinaryOp) : Bool :=
  match r with
  | whole => true
  | right outer => outer.admitsRight op
  | asserted => op == .lt
  | _ => false

/-- Whether an equals sign behind the operand belongs to it. -/
def takesAssignment (r : Reach) : Bool := r != assigned

/-- Whether `!`, `as` and `satisfies` behind the operand belong to it. They bind tighter than
powers, and looser than all other binary operators and the unary ones. -/
def takesCast (r : Reach) : Bool :=
  match r with
  | whole | awaited | assigned => true
  | right op => op == .pow
  | _ => false

/-- Whether `++` and `--` behind the operand belong to it. -/
def takesUpdate (r : Reach) : Bool :=
  match r with
  | update | asserted | constructed => false
  | _ => true

/-- Whether the operand stands behind a unary operator. -/
def isUnary (r : Reach) : Bool := r == sign || r == update || r == awaited

/-- Whether a conditional may begin with the operand. -/
def takesConditional (r : Reach) : Bool := r == whole

end Reach

/-- What a type stands behind. -/
inductive TypeReach where
  /-- All that can follow a type belongs to it. -/
  | whole
  /-- Behind a bar. -/
  | united
  /-- Behind an ampersand. -/
  | intersected
  /-- Only brackets belong to it, and it must be one that brackets may follow. -/
  | single
  /-- What a constructor makes. -/
  | constructed
deriving DecidableEq

namespace TypeReach

def takesIntersection (r : TypeReach) : Bool := r == whole || r == united

def takesUnion (r : TypeReach) : Bool := r == whole

/-- Whether a test of the type against another belongs to it. -/
def takesTest (r : TypeReach) : Bool := r == whole

end TypeReach

namespace Concrete

/-- The operator of a binary expression. -/
def binaryOp? : Concrete → Option BinaryOp
  | node .binary [_, leaf op, _] => BinaryOp.ofSpelling? op.text
  | _ => none

/-- The side condition of a production with an operator: operands that are binary expressions suit
the binary operator between them, and an augmented assignment has no binary operator. -/
def groups (k : Construct) (parts : List Concrete) : Bool :=
  match k, parts with
  | .binary, [left, leaf op, right] =>
    match BinaryOp.ofSpelling? op.text with
    | some op =>
      op.level?.isSome && left.binaryOp?.all op.admitsLeft && right.binaryOp?.all op.admitsRight
    | none => false
  | .augmentedAssignment, [_, leaf op, _] =>
    ((BinaryOp.ofSpelling? op.text).bind BinaryOp.level?).isNone
  | _, _ => true

/-- Whether a construct may consist of these parts. -/
def admits (k : Construct) (parts : List Concrete) : Bool := fits k parts && groups k parts

mutual

/-- Every production in the tree meets its side condition. -/
def WellFormed : Concrete → Prop
  | leaf _ => True
  | node k parts => admits k parts = true ∧ AllWellFormed parts

def AllWellFormed : List Concrete → Prop
  | [] => True
  | c :: cs => WellFormed c ∧ AllWellFormed cs

end

theorem allWellFormed_iff {cs : List Concrete} :
    AllWellFormed cs ↔ ∀ c ∈ cs, WellFormed c := by
  induction cs with
  | nil => simp [AllWellFormed]
  | cons c cs ih => simp [AllWellFormed, ih]

end Concrete

end Syntax

end Dartify
