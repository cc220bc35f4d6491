import Dartify.Grammar.Functions

/-! Classes. -/
namespace Dartify.Grammar

open Syntax Parse

variable {source : List Char}

/-- The supertypes of a class: values, each with type arguments, and then types. -/
def heritage (g : Rules source) : Rule source := do
  if ← sees "extends" then
    node .extendsClause do
      bump
      g.commaSeparated do
        within .supertype g.assignment
        if ← lookahead (angle '<') then valueArguments g
  if ← sees "implements" then
    node .implementsClause do
      unfinished bump
      g.commaSeparated (unfinished (g.type .whole))

/-- What a class member turned out to be. -/
inductive MemberForm where
  | method
  | signature
  | field (initialized : Bool)
  | staticBlock

/-- Words that are no names of members behind some words in front of them, only modifiers. -/
def onlyModifies (words : List String) (word : String) : Bool :=
  let rest := words.filter fun w => !("declare" :: accessWords).contains w
  match word with
  | "abstract" => rest == [] || rest == ["readonly"]
  | "accessor" => rest == []
  | _ => false

/-- Takes the words in front of the name of a class member. -/
def memberModifiers (g : Rules source) : Rule source :=
  g.many do
    let text ← nextText
    if onlyModifies (← wordsRead) text then
      bump
      return true
    if ! ["public", "private", "protected", "static", "override", "readonly", "async", "get", "set",
        "declare"].contains text then return false
    if ← modifies (text != "get" && text != "set") then
      bump
      return true
    else return false

/-- The mark behind the name of a member: a question mark, or an exclamation mark if the member may
be a field. -/
def memberMark (isField : Bool) : Parse source (Option Char) := do
  let mark ← if ← accept "?" then pure (some '?')
    else if ← pure isField <&&> attempt (take (Lexeme.readHead '!')) then pure (some '!')
    else return none
  forbidMarkup
  return mark

/-- A class member without its decorators and without the separator behind it. The parts of a
field are left to the frame around. -/
def undecorated (g : Rules source) : Parse source MemberForm :=
  frame do
    if ← sees "static" <&&> secondAny ["\x7b"] then
      bump
      functionBody g
      wrap (.named "class_static_block")
      return .staticBlock
    if ← seesAny ["-", "+"] then
      bump
      expect "readonly"
      indexSignature g
      wrap (.named "index_signature")
      return .signature
    memberModifiers g
    let _ ← accept "*"
    let words ← wordsRead
    if ← pure (words == [] || words == ["readonly"]) <&&> seesIndex then
      indexSignature g
      wrap (.named "index_signature")
      return .signature
    memberName g
    let isField := modifyField words
    if isField && (← clauseEnds) then return .field false
    let mark ← memberMark isField
    if isField && (← clauseEnds) then return .field false
    if ← seesAny ["(", "<"] then
      check (mark != some '!')
      callSignature g
      if ← sees "\x7b" <&&> notM (endsHere ⟨false, true⟩) then
        check (modifyMethod words)
        functionBody g
        wrap .method
        return .method
      else
        check (modifyMethod words || modifyAbstract words)
        wrap (.named (if words.contains "abstract" then "abstract_method_signature"
          else "method_signature"))
        return .signature
    else
      check isField
      if ← sees ":" then typeAnnotation g
      let initialized ← sees "="
      optionalInitializer g
      return .field initialized

/-- A class member with its separator. The decorators of a method are members of their own, those
of a field are parts of it. -/
def classMember (g : Rules source) : Rule source := do
  let form ← frame do
    decorators g
    let decorated := (← latest).isSome
    let form ← undecorated g
    match form with
    | .field _ => wrap .field
    | .method => pure ()
    | _ => check (!decorated)
    return form
  match form with
  | .field initialized => if !(← accept ",") then semicolon ⟨initialized, false⟩
  | .signature => if !(← accept ",") then semicolon ⟨false, true⟩
  | .method => settle
  | .staticBlock => pure ()

def classBody (g : Rules source) : Rule source :=
  node .classBody do
    expect "\x7b"
    within .statement do
      g.many do
        if ← sees "\x7d" then return false
        if ← accept ";" then return true
        classMember g
        return true
    expect "\x7d"
    settle

/-- The name of a class; the word that opens a list of interfaces is none. -/
def className : Rule source := do
  check (!(← sees "implements"))
  unfinished typeIdentifier

/-- What follows the name of a class. -/
def classTail (g : Rules source) : Rule source := do
  if ← sees "<" then typeParameters g
  heritage g
  classBody g

/-- A class as a value. -/
def classExpression (g : Rules source) : Rule source :=
  node (.named "class") do
    decorators g
    expect "class"
    let _ ← attempt className
    classTail g

end Dartify.Grammar
