import Dartify.Grammar.Expressions

/-! Declarations. A word that opens one may also be an operand where a statement may begin; the
flag `operand` says so. -/
namespace Dartify.Grammar

open Syntax Parse

variable {source : List Char}

/-- A name, its type and its value. -/
def declarator (g : Rules source) : Rule source :=
  node .declarator do
    if ← attempt (do
        identifier
        check (!(← clauseEnds))
        take (Lexeme.readHead '!')) then typeAnnotation g
    else
      binding g
      if ← sees ":" then typeAnnotation g
      optionalInitializer g

/-- Declarators and a semicolon. -/
def declarators (g : Rules source) : Rule source := do
  g.commaSeparated (declarator g)
  let initialized := (← get).top.head?.any fun c => (c.part? .initializer).isSome
  semicolon ⟨initialized, false⟩

def variableStatement (g : Rules source) (operand : Bool) : Rule source :=
  node .variableStatement do
    match ← nextText with
    | "let" => contextual "let" operand
    | "const" => bump
    | _ => expect "var"
    declarators g

def usingDeclaration (g : Rules source) (operand : Bool) : Rule source :=
  node (.named "using_declaration") do
    if ← sees "await" then contextual "await" operand
    expect "using"
    check (!(operand && (← seesAny ("undefined" :: "using" :: looseWords))))
    declarators g

/-- A function with a name; without a body it is a signature. -/
def functionDeclaration (g : Rules source) (operand : Bool) : Rule source :=
  frame do
    if ← sees "async" then contextual "async" operand
    expect "function"
    let generator ← accept "*"
    unfinished identifier
    callSignature g
    if generator then
      block g
      wrap (.named "generator_function_declaration")
    else if ← sees "\x7b" <&&> notM (endsHere ⟨false, true⟩) then
      block g
      wrap .functionDeclaration
    else
      semicolon ⟨false, true⟩
      wrap (.named "function_signature")

def classDeclaration (g : Rules source) : Rule source :=
  frame do
    decorators g
    let isAbstract ← attempt (keyword "abstract")
    expect "class"
    unfinished typeIdentifier
    classTail g
    wrap (if isAbstract then .named "abstract_class_declaration" else .classDeclaration)

def interfaceDeclaration (g : Rules source) : Rule source :=
  node (.named "interface_declaration") do
    keyword "interface"
    unfinished typeIdentifier
    if ← sees "<" then typeParameters g
    if ← accept "extends" then g.commaSeparated (frame (namedType g))
    unfinished (objectMembers g)

def enumDeclaration (g : Rules source) : Rule source :=
  node (.named "enum_declaration") do
    let _ ← accept "const"
    keyword "enum"
    unfinished identifier
    unfinished <| bracketed "\x7b" "\x7d" <| g.listUpTo "\x7d" do
      unfinished (memberName g)
      optionalInitializer g

def typeAlias (g : Rules source) (operand : Bool) : Rule source :=
  node (.named "type_alias_declaration") do
    contextual "type" operand
    check (!(operand && (← seesAny operatorWords)))
    unfinished typeIdentifier
    if ← sees "<" then typeParameters g
    expect "="
    g.type .whole
    semicolon ⟨false, false⟩

/-- What is imported under a name. -/
def importedName : Rule source := do
  check (!(← sees "type"))
  unfinished name

def importAlias (g : Rules source) : Rule source :=
  node (.named "import_alias") do
    keyword "import"
    importedName
    expect "="
    check (!(← sees "require"))
    dottedName g
    semicolon ⟨false, false⟩

/-- A declaration, but no ambient one. -/
def plainDeclaration (g : Rules source) (operand : Bool) : Rule source := do
  match ← nextText with
  | "var" | "let" => variableStatement g operand
  | "const" => if ← secondAny ["enum"] then enumDeclaration g else variableStatement g operand
  | "using" | "await" => usingDeclaration g operand
  | "function" | "async" => functionDeclaration g operand
  | "class" | "abstract" | "@" => classDeclaration g
  | "interface" => interfaceDeclaration g
  | "enum" => enumDeclaration g
  | "type" => typeAlias g operand
  | "namespace" => moduleDeclaration g "namespace" (.named "internal_module") operand
  | "module" => moduleDeclaration g "module" (.named "module") operand
  | "import" => importAlias g
  | _ => failure

/-- A declaration of something that is defined elsewhere. -/
def ambientDeclaration (g : Rules source) (operand : Bool) : Rule source :=
  node (.named "ambient_declaration") do
    contextual "declare" operand
    g.many (accept "declare")
    if ← attempt (do
        keyword "global"
        check (← sees "\x7b")) then block g
    else if ← sees "module" <&&> secondAny ["."] then
      bump
      bump
      name
      typeAnnotation g
      semicolon ⟨false, false⟩
    else plainDeclaration g false

def declaration (g : Rules source) (operand : Bool) : Rule source := do
  if ← sees "declare" then ambientDeclaration g operand else plainDeclaration g operand

/-! ## Imports and exports -/

/-- The attributes of an import. -/
def attributes (g : Rules source) : Rule source := do
  if ← seesAny ["with", "assert"] <&&> notM clauseEnds then
    bump
    object g

/-- A name that a module gives to something: any text, and the word for the default. -/
def exportName : Rule source := do
  if ← seesAny ["default"] <||> (return (← nextKind) == .string) then unfinished bump
  else unfinished name

/-- A name in braces, possibly renamed. -/
def importSpecifier : Rule source := do
  if ← sees "typeof" <||> (sees "type" <&&> second fun kind text =>
      (kind == .word && text != "as") || kind == .string) then bump
  if ← seesName then
    unfinished bump
    if ← attempt (keyword "as") then unfinished name
  else
    exportName
    keyword "as"
    unfinished name

/-- All of a module under one name, or names in braces. -/
def importedNames (g : Rules source) : Rule source := do
  if ← accept "*" then
    keyword "as"
    unfinished name
  else unfinished <| bracketed "\x7b" "\x7d" <| g.looseListUpTo "\x7d" importSpecifier

def importClause (g : Rules source) : Rule source := do
  if ← seesName then
    unfinished name
    if ← accept "," then importedNames g
  else importedNames g

/-- Whether the next word says that only types are imported. -/
def seesTypeImport : Parse source Bool :=
  sees "typeof" <||> (sees "type" <&&> second fun kind text =>
    kind == .string || text == "*" || text == "\x7b" ||
      (kind == .word && !isReserved text && text != "from"))

def importStatement (g : Rules source) : Rule source :=
  node (.named "import_statement") do
    keyword "import"
    if ← seesTypeImport then unfinished bump
    if (← nextKind) == .string then bump
    else if ← attempt do
        importedName
        expect "="
        expect "require" then
      bracketed "(" ")" (expectKind .string)
    else
      importClause g
      keyword "from"
      expectKind .string
    attributes g
    semicolon ⟨false, false⟩

/-- Symbols that go on with a value and begin no statement. -/
def infixSymbols : List String :=
  [".", "?.", "=", "*", "%", "**", "&", "|", "^", "&&", "||", "??", "==", "===", "!=", "!==", ">",
   ">=", "<=", ">>", ">>>", "<<", "?", ","]

/-- Whether the next token goes on with a value and begins no statement. -/
def continuesValue : Parse source Bool :=
  seesAny (infixSymbols ++ augmentedOperators ++ ["in", "instanceof"])

/-- What follows `export default`: a declaration, or a value. -/
def defaultExport (g : Rules source) : Rule source := do
  if ← attempt (do
      declaration g true
      check (!(← continuesValue))) then return
  g.assignment
  semicolon ⟨true, false⟩

/-- Names in braces, each possibly renamed. -/
def exportClause (g : Rules source) : Rule source :=
  bracketed "\x7b" "\x7d" <| g.looseListUpTo "\x7d" do
    let _ ← acceptAny ["type", "typeof"]
    exportName
    if ← attempt (keyword "as") then exportName

/-- What follows `export`. -/
def exported (g : Rules source) : Rule source := do
  match ← nextText with
  | "default" =>
    bump
    defaultExport g
  | "*" =>
    bump
    if ← attempt (keyword "as") then exportName
    keyword "from"
    expectKind .string
    semicolon ⟨false, false⟩
  | "\x7b" =>
    exportClause g
    if ← notM clauseEnds <&&> attempt (keyword "from") then expectKind .string
    semicolon ⟨false, false⟩
  | "=" =>
    bump
    g.assignment
    semicolon ⟨true, false⟩
  | "as" =>
    bump
    expect "namespace"
    name
    semicolon ⟨false, false⟩
  | "type" =>
    if ← secondAny ["\x7b"] then
      bump
      exportClause g
      if ← notM clauseEnds <&&> attempt (keyword "from") then expectKind .string
      semicolon ⟨false, false⟩
    else declaration g false
  | "import" =>
    if ← secondAny ["import"] then bump
    declaration g false
  | _ => declaration g false

def exportStatement (g : Rules source) : Rule source :=
  node .exportStatement do
    decorators g
    let bare := (← latest).isNone
    contextual "export" bare
    check (bare || !(← seesAny ["=", "*", "\x7b", "as"]))
    exported g

end Dartify.Grammar
