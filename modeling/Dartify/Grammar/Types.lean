import Dartify.Grammar.Rules

/-! Types, type parameters and type arguments. -/
namespace Dartify.Grammar

open Syntax Parse

variable {source : List Char}

/-- The types that are words of their own. -/
def predefinedTypes : List String :=
  ["any", "number", "boolean", "string", "symbol", "void", "unknown", "never", "object"]

/-- Words that have a meaning of their own where a type begins, and none where an operand does. -/
def typeWords : List String := ["abstract", "infer", "keyof", "never", "unique", "unknown"]

/-- Words that have a meaning of their own where an operand begins, and none where a type does. -/
def operandOnlyWords : List String :=
  ["async", "await", "declare", "export", "get", "let", "module", "namespace", "override",
   "private", "protected", "public", "set", "static", "type", "using", "yield"]

/-- Whether an omitted semicolon ends a type here. -/
def typeEnds : Parse source Bool := do
  endsHere ⟨(← mode).inCast, (← mode).signature⟩

/-- Takes one character of a symbol that joins types. Where an operator could follow as well, the
symbol is read whole. -/
def joint (symbol : Char) : Rule source := do
  if (← mode).inCast then expect symbol.toString
  else expect symbol.toString <|> take (Lexeme.readHead symbol)

def typeArguments (g : Rules source) : Rule source :=
  node .typeArguments do
    joint '<'
    within .closed do
      g.type .whole
      g.many do
        if ← accept "," then
          if ← lookahead (angle '>') then return false
          g.type .whole
          return true
        else return false
      angle '>'
    if (← mode).mayEnd then forbidMarkup

def typeParameter (g : Rules source) : Rule source :=
  node .typeParameter do
    let _ ← attempt do
      expect "const"
      check (← seesName)
    unfinished typeIdentifier
    if ← seesAny ["extends", ":"] then
      node .constraint do
        bump
        g.type .whole
    if ← sees "=" then
      node .defaultType do
        bump
        g.type .whole

def typeParameters (g : Rules source) : Rule source :=
  node .typeParameters do
    angle '<'
    within .closed do
      typeParameter g
      g.many do
        if ← accept "," then
          if ← lookahead (angle '>') then return false
          typeParameter g
          return true
        else return false
      angle '>'

/-- What stands behind the brackets and the keys in front, where an operand could stand as well. -/
def innermost : List Token → List Token
  | [] => []
  | t :: rest =>
    if ["(", "[", "..."].contains t.text then innermost rest
    else
      match rest with
      | key :: colon :: value =>
        if t.text == "\x7b" && key.kind == .word && colon.text == ":" then innermost value
        else t :: rest
      | _ => t :: rest

/-- What follows the part of a type that could be the part of an operand token by token. -/
def behindAlike : List Token → List Token
  | t :: u :: rest =>
    match t.text with
    | "(" | "..." => behindAlike (u :: rest)
    | "[" => if u.text = "]" then rest else behindAlike (u :: rest)
    | "\x7b" =>
      match rest with
      | v :: rest => if v.text = ":" then behindAlike rest else v :: rest
      | [] => []
    | "-" | "+" => rest
    | "typeof" =>
      if u.text = "import" then (rest.dropWhile (·.text != ")")).drop 1 else rest
    | word =>
      if ["*", "const", "never", "unknown", "void", "`"].contains word then [] else u :: rest
  | _ => []

/-- Whether a question mark behind the only element of a tuple, given by its tokens, is that of a
conditional, since an operand could stand there as well. -/
def asksInTuple (tokens : List Token) : Bool :=
  ((behindAlike tokens).take 2).map Token.text == ["?", "]"]

/-- The tokens of the last part. -/
def lastTokens : Parse source (List Token) := do
  return (← get).top.head?.elim [] Concrete.tokens

/-- Type arguments of a value. Where an operand could stand as well, they do not ask for the type of
an import, and no word is a type that has a meaning of its own there. -/
def valueArguments (g : Rules source) : Rule source := do
  typeArguments g
  let tokens := (← lastTokens).drop 1
  check (!asksInTuple tokens)
  let front := tokens.dropWhile fun t => ["(", "[", "..."].contains t.text
  check ((front.take 2).map Token.text != ["typeof", "import"])
  check (!(innermost tokens).head?.any fun t => operandOnlyWords.contains t.text)

def typeAnnotation (g : Rules source) : Rule source :=
  node .ascription do
    expect ":"
    g.type .whole

/-- A claim of an argument: its name, `is` and a type. -/
def typeClaim (g : Rules source) : Rule source := do
  let (kind, text) ← next
  check (kind == .word && (!isReserved text || text == "this" || text == "void"))
  check (text != "undefined")
  if ← sees "unique" <&&> secondAny ["symbol"] then bump
  bump
  check (!(← typeEnds))
  expect "is"
  g.type .whole

/-- A claim that an argument has a type, or that it is true. -/
def assertion (g : Rules source) : Rule source := do
  expect "asserts"
  if ← attempt (typeClaim g) then return
  check (← sees "this" <||> (seesName <&&> notM (seesAny predefinedTypes)))
  bump

/-- What a function returns: a type, or a claim about its arguments. -/
def returnedType (g : Rules source) : Rule source := do
  if ← sees "asserts" then assertion g
  else if ← attempt (typeClaim g) then return
  else g.type .whole

def returnAnnotation (g : Rules source) : Rule source := do
  check (← sees ":")
  within { (← mode) with signature := true } do
    if ← secondAny ["asserts"] then
      node (.named "asserts_annotation") do
        bump
        assertion g
    else if ← attempt (node (.named "type_predicate_annotation") do
        bump
        typeClaim g) then return
    else typeAnnotation g

/-- Whether the next token begins the name of a member. -/
def seesMemberName : Parse source Bool := do
  let (kind, text) ← next
  return kind == .word || kind == .string || kind == .number || kind == .privateName || text == "["

/-- Whether the next word modifies the member behind it: the name of a member follows, and the
line does not end the word as a member of its own. -/
def modifies (starAllowed : Bool) : Parse source Bool :=
  lookahead do
    bump
    check (!(← clauseEnds))
    check ((← seesMemberName) || (starAllowed && (← sees "*")))

/-- Takes the words in front of a member name. -/
def modifiers (g : Rules source) (words : List String) : Rule source :=
  g.many do
    let text ← nextText
    if !words.contains text then return false
    if ← modifies (text != "get" && text != "set") then
      bump
      return true
    else return false

/-! ## Members -/

/-- The texts of the tokens read in this frame. -/
def wordsRead : Parse source (List String) := do
  return (Concrete.node .slot (← get).top.reverse).words

/-- What remains of a list of words if its first may be one of the given. -/
def skipOne (words options : List String) : List String :=
  match words with
  | w :: ws => if options.contains w then ws else w :: ws
  | [] => []

def accessWords : List String := ["public", "private", "protected"]

/-- Whether words may stand in front of a method, in this order. -/
def modifyMethod (words : List String) : Bool :=
  [accessWords, ["static"], ["override"], ["readonly"], ["async"], ["get", "set", "*"]].foldl
    skipOne words == []

/-- Whether words may stand in front of an abstract method, in this order. -/
def modifyAbstract (words : List String) : Bool :=
  let rest := skipOne words accessWords
  rest.head? == some "abstract" &&
    [["abstract"], ["override"], ["get", "set", "*"]].foldl skipOne rest == []

/-- Whether words may stand in front of a property of an object type, in this order. -/
def modifyProperty (words : List String) : Bool :=
  [accessWords, ["static"], ["override"], ["readonly"]].foldl skipOne words == []

/-- Whether words may stand in front of a field, in this order. -/
def modifyField (words : List String) : Bool :=
  let rest :=
    if words.head? == some "declare" then [["declare"], accessWords].foldl skipOne words
    else [accessWords, ["declare"]].foldl skipOne words
  [[["static"], ["override"], ["readonly"]], [["abstract"], ["readonly"]],
    [["readonly"], ["abstract"]], [["accessor"]]].any fun order => order.foldl skipOne rest == []

/-- An expression in brackets as the name of a member. -/
def computedName (g : Rules source) : Rule source :=
  node (.named "computed_property_name") (bracketed "[" "]" g.assignment)

/-- The name of a member: any word, a literal, or an expression in brackets. -/
def memberName (g : Rules source) : Rule source := do
  match ← nextKind with
  | .word => node .propertyName bump
  | .string => node .string bump
  | .number => node .number bump
  | .privateName => node (.named "private_property_identifier") bump
  | _ => computedName g

/-- What stands behind a point: any word, or the name of a private member. -/
def memberAccess (g : Rules source) : Rule source := do
  let kind ← nextKind
  check (kind == .word || kind == .privateName)
  memberName g

/-- What stands in the brackets of an index signature or of a mapped type. -/
def indexKey (g : Rules source) : Rule source := do
  check (← seesLooseName)
  bump
  if ← accept ":" then g.type .whole
  else
    expect "in"
    g.type .whole
    if ← accept "as" then g.type .whole

/-- The type behind an index in brackets. Marks stand right in front of its colon. -/
def indexedType (g : Rules source) : Rule source :=
  node .ascription do
    let marked ← ["?:", "-?:", "+?:"].anyM fun mark => attempt (take (Lexeme.readWhole mark))
    if !marked then expect ":"
    g.type .whole

/-- An index signature or a mapped type without the modifiers in front. -/
def indexSignature (g : Rules source) : Rule source := do
  bracketed "[" "]" (indexKey g)
  indexedType g

/-- Whether the next tokens begin an index signature. -/
def seesIndex : Parse source Bool :=
  sees "[" <&&> lookahead do
    bump
    check (← seesLooseName)
    bump
    check (← seesAny ["in", ":"])

/-- Type parameters, parameters and the type of the result. -/
def callSignature (g : Rules source) : Rule source := do
  if ← sees "<" then typeParameters g
  g.parameters
  if ← sees ":" then returnAnnotation g

/-- A member of an object type. -/
def typeMember (g : Rules source) : Rule source := do
  let (_, text) ← next
  if text == "(" || text == "<" then callSignature g
  else if ← (sees "new" <&&> secondAny ["(", "<"]) <||>
      (sees "abstract" <&&> secondAny ["new"]) then
    let _ ← accept "abstract"
    bump
    if ← sees "<" then typeParameters g
    g.parameters
    if ← sees ":" then typeAnnotation g
  else if ← sees "export" <&&> lookahead (do
      bump
      let (kind, text) ← next
      check (kind == .word || ["*", "\x7b", "=", "@"].contains text)) then g.statement
  else if text == "-" || text == "+" then
    bump
    expect "readonly"
    indexSignature g
  else
    modifiers g ["public", "private", "protected", "static", "override", "readonly", "async",
      "get", "set"]
    let starred ← accept "*"
    let words ← wordsRead
    if ← pure (words == [] || words == ["readonly"]) <&&> seesIndex then indexSignature g
    else
      memberName g
      let _ ← accept "?"
      if ← seesAny ["(", "<"] then
        check (modifyMethod words)
        callSignature g
      else
        check (!starred && modifyProperty words)
        if ← sees ":" then typeAnnotation g

/-- The members of an object type in braces, or in braces with bars. -/
def objectMembers (g : Rules source) : Rule source := do
  let closing := expect "\x7d" <|> take (Lexeme.readWhole "|\x7d")
  let closes := lookahead closing
  if !(← attempt (take (Lexeme.readWhole "\x7b|"))) then expect "\x7b"
  within .statement do
    if ← acceptAny [",", ";"] then check (!(← closes))
    g.many do
      if ← closes then return false
      frame (typeMember g)
      if ← acceptAny [",", ";"] then return true
      clauseEnds
  closing

/-- An element of a tuple type. -/
def tupleMember (g : Rules source) : Rule source := do
  let labelled ← attempt do
    if ← sees "..." then g.pattern
    else
      check (!(← seesAny predefinedTypes))
      name
      let _ ← accept "?"
    typeAnnotation g
  if labelled then return
  if ← accept "..." then g.type .whole
  else
    g.type .whole
    let _ ← accept "?"

/-- A template with substitutions that a rule reads. -/
def templateOf (g : Rules source) (substitution : Rule source) : Rule source := do
  expect "`"
  within .closed do
    g.many do
      if ← attempt (take Lexeme.readTemplate) then return true
      if ← attempt (take (Lexeme.readAdjacent "$\x7b")) then
        substitution
        expect "\x7d"
        return true
      return false
  take (Lexeme.readAdjacent "`")

/-- Arguments of a call within a type. -/
def queriedArguments (g : Rules source) : Rule source :=
  g.sparseUpTo ")" do
    let _ ← accept "..."
    g.assignment

/-- Constructs that brackets behind them do not belong to. -/
def isOpenType : Construct → Bool
  | .named name =>
    ["function_type", "readonly_type", "constructor_type", "infer_type", "member_expression",
      "call_expression"].contains name
  | _ => false

/-- Whether brackets may follow the type of this frame. -/
def isSingleType : Parse source Bool := do return !(← latest).any isOpenType

/-- The value whose type is asked for: a name or an import, with members and calls of it. A call
is not called again. -/
def queried (g : Rules source) : Rule source :=
  frame do
    if ← sees "import" then
      node (.named "import") bump
      if ← sees "(" then
        bracketed "(" ")" (queriedArguments g)
        wrap (.named "call_expression")
    else if ← sees "this" then node .thisLiteral bump
    else node .identifier name
    g.many do
      let k ← latest
      if k == some (.named "import") || (← typeEnds) then return false
      if ← acceptAny [".", "?."] then
        if ← sees "[" then
          bracketed "[" "]" do
            let (kind, text) ← next
            check (kind == .string || kind == .number || predefinedTypes.contains text)
            bump
        else memberAccess g
        wrap (.named "member_expression")
        return true
      if ← pure (k != some .thisLiteral && k != some (.named "call_expression")) <&&> sees "(" then
        bracketed "(" ")" (queriedArguments g)
        wrap (.named "call_expression")
        return true
      return false
    let k ← latest
    if ← pure (k != some .thisLiteral && k != some (.named "call_expression")) <&&>
        lookahead (joint '<') then typeArguments g

/-- A type that begins with a name. In a cast, a name with more than one point ends behind the
second part, and what follows are members of the cast value, unless only a type can go on
behind them. -/
def namedType (g : Rules source) : Rule source := do
  typeIdentifier
  let point : Parse source Bool := do
    if ← accept "." then
      name
      return true
    else return false
  if ← notM typeEnds <&&> point then
    let long := lookahead do
      g.many point
      let array ← sees "[" <&&> secondAny ["]"]
      check (array || (← sees "extends"))
    if ← pure !(← mode).inCast <||> long then g.many point
    wrap (.named "nested_type_identifier")
  if ← lookahead (joint '<') then
    typeArguments g
    wrap .genericType

/-- A type in brackets, where the parameters of a function could stand as well. -/
def parenthesizedType (g : Rules source) : Rule source := do
  node (.named "parenthesized_type") <| bracketed "(" ")" do
    check (!(← seesAny operandOnlyWords))
    let imported ← sees "import"
    g.type .whole
    check (!(imported && (← latest) == some (.named "member_expression")))
  check (!asksInTuple (← lastTokens))

/-- A type from another module: an import with calls and members of it. -/
def importedType (g : Rules source) : Rule source := do
  node (.named "import") (expect "import")
  g.many do
    if (← latest) != some (.named "import") && (← typeEnds) then return false
    if ← accept "." then
      memberAccess g
      wrap (.named "member_expression")
      return true
    if (← sees "(") && (← latest) != some (.named "call_expression") then
      bracketed "(" ")" (queriedArguments g)
      wrap (.named "call_expression")
      return true
    return false
  check ((← latest) != some (.named "import"))

/-- Passes over an object type that a pattern could be as well, up to its end, or over one within
a tuple. A name alone in braces is still a pattern if its type follows. -/
def objectAlike : Nat → Rule source
  | 0 => failure
  | n + 1 => do
    if ← accept "[" then
      let _ ← accept "..."
      objectAlike n
    else
      expect "\x7b"
      let _ ← accept ","
      let named := (← nextKind) == .word
      if ← sees "[" then bracketed "[" "]" bump else bump
      if ← pure named <&&> accept "\x7d" then check (!(← sees ":"))
      else
        expect ":"
        if ← attempt (objectAlike n) then return
        match ← nextText with
        | "\x7b" => bracketed "\x7b" "\x7d" (pure ())
        | "[" => bracketed "[" "]" (pure ())
        | _ => expectKind .word
        expect "\x7d"

/-- Passes over the front of a type that could be an operand as well, up to where it cannot be one any
more. A word or a member alone in brackets is a type. -/
def onlyType : Nat → Rule source
  | 0 => failure
  | n + 1 => do
    let (kind, text) ← next
    let nameless := do
      check (("undefined" :: predefinedTypes).contains (← nextText))
      bump
    if kind == .word then check (typeWords.contains text)
    else
      bump
      match text with
      | "(" =>
        if ← attempt (do
            nameless
            expect ")") then return
        onlyType n
      | "[" =>
        if ← attempt (do
            nameless
            check (← seesAny ["]", ","])) then return
        onlyType n
      | "\x7b" =>
        check (← notM (sees ","))
        if ← sees "[" then bracketed "[" "]" bump else bump
        if ← sees "\x7d" then return
        expect ":"
        if ← attempt (onlyType n) then return
        check (← notM (seesAny ("new" :: "readonly" :: "super" :: operandOnlyWords)))
        match ← nextText with
        | "\x7b" => bracketed "\x7b" "\x7d" (pure ())
        | "[" => bracketed "[" "]" (pure ())
        | _ => bump
        expect "\x7d"
      | _ => failure

/-- A function type. Where a type could stand in the brackets, its words are no parameters, and
what an object type could be is no pattern. -/
def functionType (g : Rules source) : Rule source :=
  node (.named "function_type") do
    if ← sees "<" then typeParameters g
    else
      let typed ← second fun _ text => typeWords.contains text || predefinedTypes.contains text
      let reserved ← second fun _ text => typeWords.contains text || text == "void"
      check (!reserved)
      let bare ← lookahead do
        bump
        bump
        expect ")"
      check (!(typed && bare))
      check (← notM (lookahead (do
        expect "("
        objectAlike g.bound)))
    g.parameters
    expect "=>"
    returnedType g

/-- A type that begins with a word. -/
def wordType (g : Rules source) (word : String) : Rule source := do
  if predefinedTypes.contains word then node .predefinedType bump
  else
    match word with
    | "unique" =>
      node .predefinedType do
        bump
        expect "symbol"
    | "this" => node (.named "this_type") bump
    | "true" | "false" | "null" | "undefined" => node (.named "literal_type") bump
    | "const" => bump
    | "typeof" =>
      node (.named "type_query") do
        bump
        queried g
    | "keyof" =>
      node (.named "index_type_query") do
        unfinished bump
        g.type .single
    | "readonly" =>
      node (.named "readonly_type") do
        bump
        g.type .whole
    | "infer" =>
      node (.named "infer_type") do
        bump
        typeIdentifier
        if ← notM typeEnds <&&> accept "extends" then g.type .whole
    | "new" | "abstract" =>
      node (.named "constructor_type") do
        let _ ← accept "abstract"
        expect "new"
        if ← sees "<" then typeParameters g
        g.parameters
        expect "=>"
        g.type .constructed
    | "import" => frame (importedType g)
    | _ => frame (namedType g)

/-- The front of a type, up to the first step that is appended to it. -/
def typeFront (g : Rules source) : Rule source := do
  let (kind, text) ← next
  if kind == .string || kind == .number then node (.named "literal_type") bump
  else if kind == .word then wordType g text
  else if ← attempt (take (Lexeme.readHead '|')) then
    g.type .united
    wrap (.named "union_type")
  else if ← attempt (take (Lexeme.readHead '&')) then
    g.type .intersected
    wrap (.named "intersection_type")
  else
    match text with
    | "(" => if !(← attempt (functionType g)) then parenthesizedType g
    | "<" | "<<" => functionType g
    | "\x7b" => node (.named "object_type") (objectMembers g)
    | "[" =>
      node (.named "tuple_type") (bracketed "[" "]" (g.looseListUpTo "]" (tupleMember g)))
      let tokens ← lastTokens
      check (!((tokens.drop 1).head?.any (·.text == "...") && asksInTuple tokens))
    | "-" | "+" =>
      node (.named "literal_type") do
        bump
        expectKind .number
    | "`" =>
      node (.named "template_literal_type") <| templateOf g do
        g.type .whole
        check ((← isSingleType) || (← latest) == some (.named "infer_type"))
    | "*" => node (.named "existential_type") bump
    | "?" | "??" =>
      node (.named "flow_maybe_type") do
        take (Lexeme.readHead '?')
        g.type .whole
        check (← isSingleType)
    | _ => failure

/-- Appends brackets, another type or a test to the type of this frame, if it belongs to it, and
says whether there was anything. -/
def appendToType (g : Rules source) (reach : TypeReach) : Parse source Bool := do
  if ← typeEnds then return false
  if ← sees "[" <&&> isSingleType then
    if ← secondAny ["]"] then
      bump
      bump
      wrap (.named "array_type")
    else
      bracketed "[" "]" (g.type .whole)
      wrap (.named "lookup_type")
    return true
  if ← pure reach.takesIntersection <&&> attempt (joint '&') then
    g.type .intersected
    wrap (.named "intersection_type")
    return true
  if ← pure reach.takesUnion <&&> attempt (joint '|') then
    g.type .united
    wrap (.named "union_type")
    return true
  if ← pure reach.takesTest <&&> accept "extends" then
    g.type .whole
    expect "?"
    g.type .whole
    expect ":"
    g.type .whole
    wrap (.named "conditional_type")
    return true
  return false

/-- A type with all that belongs to it where it stands. -/
def type (g : Rules source) (reach : TypeReach) : Rule source :=
  frame do
    typeFront g
    g.many (appendToType g reach)
    if !(← mode).mayEnd && !(← mode).inCast then allowMarkup
    check (reach != .single || (← isSingleType))

end Dartify.Grammar
