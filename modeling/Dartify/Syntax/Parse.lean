import Dartify.Syntax.State

/-! Readers: partial functions on states, built from the moves of a state. An alternative starts
again from the state that its predecessor was given. -/
namespace Dartify.Syntax

abbrev Parse (source : List Char) := StateT (State source) Option

namespace Parse

variable {source : List Char} {α : Type}

def lift (move : State source → Option (State source)) : Parse source Unit := fun s =>
  (move s).map ((), ·)

/-- Whether a reader would succeed here; nothing is taken. -/
def lookahead (p : Parse source α) : Parse source Bool := fun s => some ((p s).isSome, s)

/-- Runs a reader if it succeeds, and says whether it did. -/
def attempt (p : Parse source Unit) : Parse source Bool :=
  (do p; return true) <|> return false

/-- Fails unless the condition holds. -/
def check (b : Bool) : Parse source Unit := if b then pure () else failure

/-- Repeats a step until it says that it did nothing, at most `n` times. -/
def repeated : Nat → Parse source Bool → Parse source Unit
  | 0, _ => failure
  | n + 1, step => do
    if ← step then repeated n step

/-! ## Tokens -/

def next : Parse source (TokenKind × String) := do
  let s ← get
  return (s.next.kind, s.next.text)

def nextText : Parse source String := do return (← get).next.text

def nextKind : Parse source TokenKind := do return (← get).next.kind

def sees (text : String) : Parse source Bool := do return (← nextText) == text

def seesAny (texts : List String) : Parse source Bool := do return texts.contains (← nextText)

/-- Takes the next token. -/
def bump : Parse source Unit := lift fun s => s.shift s.next

/-- Takes the next token if it has the given text. -/
def expect (text : String) : Parse source Unit := do
  check (← sees text)
  bump

/-- Takes the next token if it has the given text, and says whether it had. -/
def accept (text : String) : Parse source Bool := do
  if ← sees text then
    bump
    return true
  else return false

/-- Takes the next token if it has one of the given texts, and says whether it had. -/
def acceptAny (texts : List String) : Parse source Bool := do
  if ← seesAny texts then
    bump
    return true
  else return false

def expectKind (kind : TokenKind) : Parse source Unit := do
  check ((← nextKind) == kind)
  bump

/-- Takes a token that is read in a way of its own. -/
def take (read : (input : List Char) → Option (Lexeme input)) : Parse source Unit :=
  lift fun s => (read s.rest).bind s.shift

/-- Whether the token behind the next one satisfies a test. -/
def second (test : TokenKind → String → Bool) : Parse source Bool :=
  lookahead do
    bump
    let (kind, text) ← next
    check (test kind text)

/-- Whether the token behind the next one has one of the given texts. -/
def secondAny (texts : List String) : Parse source Bool := second fun _ text => texts.contains text

/-- Says that no operand can end in front of the next token. -/
def allowMarkup : Parse source Unit := modify State.allowMarkup

/-- Says that an operand may end in front of the next token. -/
def forbidMarkup : Parse source Unit := modify State.forbidMarkup

/-! ## Constructs -/

/-- Reads a part that leaves its subtrees to the construct around it, unless it wraps them. -/
def frame (p : Parse source α) : Parse source α := do
  modify State.enter
  let a ← p
  lift State.leave
  return a

/-- Makes the subtrees read in this frame one node. -/
def wrap (k : Construct) : Parse source Unit := lift (State.wrap · k)

/-- Reads a part that becomes one node. -/
def node (k : Construct) (p : Parse source Unit) : Parse source Unit :=
  frame do
    p
    wrap k

/-- The construct of the latest subtree of this frame. -/
def latest : Parse source (Option Construct) := do
  return (← get).top.head?.bind (·.construct?)

/-! ## Modes -/

def mode : Parse source Mode := do return (← get).mode

/-- Reads a part in a mode of its own. -/
def within (m : Mode) (p : Parse source α) : Parse source α := do
  let old ← mode
  modify fun s => { s with mode := m }
  let a ← p
  modify fun s => { s with mode := old }
  return a

/-- Reads what stands between two brackets. -/
def bracketed (opening closing : String) (p : Parse source Unit) : Parse source Unit := do
  expect opening
  within .closed p
  expect closing

/-! ## Ends of statements -/

/-- Whether an omitted semicolon ends the construct here. It does so wherever it can, even if the
next token could continue the construct. -/
def endsHere (ctx : Semicolon.Context) : Parse source Bool := do
  let s ← get
  return s.mode.mayEnd && Semicolon.omitted ctx s.rest

/-- Whether an omitted semicolon ends an expression here. -/
def expressionEnds : Parse source Bool := endsHere ⟨true, false⟩

/-- Whether an omitted semicolon ends a construct here that no operator could continue. -/
def clauseEnds : Parse source Bool := endsHere ⟨false, false⟩

/-- A semicolon, written or omitted. -/
def semicolon (ctx : Semicolon.Context) : Parse source Unit := do
  if ← endsHere ctx then allowMarkup else expect ";"

/-- Ends a construct that needs no semicolon but may be followed by one that is omitted. -/
def settle : Parse source Unit := do
  if ← clauseEnds then allowMarkup

end Parse

end Dartify.Syntax
