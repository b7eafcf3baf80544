import BracketSpacing.Script.Expression

/-!
Statements and declarations.
-/

set_option autoImplicit false
set_option relaxedAutoImplicit false

namespace BracketSpacing.Script

open BracketSpacing.Tree

def block : Read Node := do
  let opening ← punct "\x7b"
  let body ← many (reach .statement)
  let closing ← punct "\x7d"
  return branch "statement_block" ([opening] ++ body ++ [closing])

/-- An expression and the end of the statement. -/
def expressionEnd : Read (List Node) := do
  let e ← reach (.expression {})
  let stop ← semicolon
  return e :: stop

/-! ### Variables -/

def declarator (l : Limits) : Read (List Node) := do
  let target ← reach .binding
  let definite ← optional? do
    inTypes
    punct "!"
  let annotation ← optionalNodes typeAnnotation
  let value ← optionalNodes (initializer l)
  return [branch "variable_declarator" ([target] ++ definite.toList ++ annotation ++ value)]

/-- One or more declarators. -/
def declarators (l : Limits) : Read (List Node) := do
  let first ← declarator l
  let rest ← many do
    let comma ← punct ","
    let next ← declarator l
    return comma :: next
  return first ++ rest.flatten

/-- The word that starts a declaration of variables; `let` needs a target after it. -/
def declarationWord : Read Node := do
  let w ← wordOf ["var", "let", "const"]
  let _ ← ahead (reach .binding)
  return w

def variableList (l : Limits) : Read (List Node) := do
  let w ← declarationWord
  let ds ← declarators l
  return w :: ds

def variableStatement : Read Node := do
  let vs ← variableList {}
  let stop ← semicolon
  return branch "variable_declaration" (vs ++ stop)

/-! ### Control -/

def ifStatement : Read Node := do
  let i ← word "if"
  let test ← condition
  let yes ← reach .statement
  let no ← optionalNodes do
    let e ← word "else"
    let s ← reach .statement
    return [e, s]
  return branch "if_statement" ([i, test, yes] ++ no)

/-- `x of xs`, `x in o` -/
def forEachHead : Read (List Node) := do
  let target ← (do
      let w ← declarationWord
      let t ← reach .binding
      let annotation ← optionalNodes typeAnnotation
      let value ← optionalNodes (initializer { noIn := true })
      return [w, t] ++ annotation ++ value) <|> (do
    let t ← reach (.leftHandSide {})
    return [t])
  let op ← wordOf ["of", "in"]
  let source ← reach (.expression {})
  return target ++ [op, source]

def forHead : Read (List Node) := do
  let first ← optionalNodes
    (variableList { noIn := true } <|> do return [← reach (.expression { noIn := true })])
  let stop ← punct ";"
  let test ← optional? (reach (.expression {}))
  let stop' ← punct ";"
  let update ← optional? (reach (.expression {}))
  return first ++ [stop] ++ test.toList ++ [stop'] ++ update.toList

def forStatement : Read Node := do
  let f ← word "for"
  let awaiting ← optional? (word "await")
  let opening ← punct "("
  let head ← (do
      let h ← forEachHead
      let _ ← ahead (punct ")")
      return h) <|> forHead
  let closing ← punct ")"
  let body ← reach .statement
  return branch "for_statement"
    ([f] ++ awaiting.toList ++ [opening] ++ head ++ [closing, body])

def whileStatement : Read Node := do
  let w ← wordOf ["while", "with"]
  let test ← condition
  let body ← reach .statement
  return branch "while_statement" [w, test, body]

def doStatement : Read Node := do
  let d ← word "do"
  let body ← reach .statement
  let w ← word "while"
  let test ← condition
  let stop ← optional? (punct ";")
  return branch "do_statement" ([d, body, w, test] ++ stop.toList)

/-- `return` and `throw` with an expression on the same line. -/
def leavingStatement : Read Node := do
  let w ← wordOf ["return", "throw"]
  let e ← optional? do
    sameLine
    reach (.expression {})
  let stop ← semicolon
  return branch "return_statement" ([w] ++ e.toList ++ stop)

/-- `break`, `continue` and `debugger` with a label on the same line. -/
def jumpStatement : Read Node := do
  let w ← wordOf ["break", "continue", "debugger"]
  let target ← optional? do
    sameLine
    identifier
  let stop ← semicolon
  return branch "break_statement" ([w] ++ target.toList ++ stop)

def tryStatement : Read Node := do
  let t ← word "try"
  let body ← reach .block
  let handler ← optionalNodes do
    let c ← word "catch"
    let parameter ← optionalNodes do
      let opening ← punct "("
      let target ← reach .binding
      let annotation ← optionalNodes typeAnnotation
      let closing ← punct ")"
      return [opening, target] ++ annotation ++ [closing]
    let b ← reach .block
    return [c] ++ parameter ++ [b]
  let finalizer ← optionalNodes do
    let f ← word "finally"
    let b ← reach .block
    return [f, b]
  require !(handler.isEmpty && finalizer.isEmpty)
  return branch "try_statement" ([t, body] ++ handler ++ finalizer)

def switchCase : Read Node := do
  let head ← (do
      let c ← word "case"
      let e ← reach (.expression {})
      return [c, e]) <|> (do return [← word "default"])
  let colon ← punct ":"
  let body ← many (reach .statement)
  return branch "switch_case" (head ++ [colon] ++ body)

def switchStatement : Read Node := do
  let s ← word "switch"
  let value ← condition
  let opening ← punct "\x7b"
  let cases ← many switchCase
  let closing ← punct "\x7d"
  return branch "switch_statement" ([s, value, opening] ++ cases ++ [closing])

def labeledStatement : Read Node := do
  let name ← identifier
  let colon ← punct ":"
  let body ← reach .statement
  return branch "labeled_statement" [name, colon, body]

/-! ### Modules -/

/-- `name`, `name as other`, `type name`: one or more names in a row. -/
def specifier : Read (List Node) := do
  let names ← many (anyWord "identifier" <|> string)
  require !names.isEmpty
  return [branch "import_specifier" names]

def specifiers : Read Node := do
  let opening ← punct "\x7b"
  let names ← commaSeparated specifier
  let closing ← punct "\x7d"
  return branch "named_imports" ([opening] ++ names ++ [closing])

/-- `* as name` -/
def namespaceName : Read Node := do
  let s ← star
  let renamed ← optionalNodes do
    let a ← word "as"
    let n ← anyWord "identifier" <|> string
    return [a, n]
  return branch "namespace_import" (s :: renamed)

def attributesClause : Read (List Node) := do
  let w ← wordOf ["with", "assert"]
  let o ← objectLiteral
  return [w, o]

/-- `from "module"` with its attributes. -/
def fromClause : Read (List Node) := do
  let f ← word "from"
  let source ← string
  let attributes ← optionalNodes attributesClause
  return [f, source] ++ attributes

/-- `import name = value` -/
def importAlias : Read (List Node) := do
  inTypes
  let mark ← optional? do
    let t ← word "type"
    let _ ← ahead identifier
    return t
  let name ← identifier
  let e ← punct "="
  let v ← reach (.leftHandSide {})
  return mark.toList ++ [name, e, v]

/-- What is imported and from where. -/
def importClause : Read (List Node) := do
  let parts ← many do
    require !(← looksAt fromClause)
    anyWord "identifier" <|> specifiers <|> star <|> punct ","
  let source ← fromClause
  return parts ++ source

/-- A module that is only run. -/
def importBare : Read (List Node) := do
  let source ← string
  let attributes ← optionalNodes attributesClause
  return source :: attributes

def importStatement : Read Node := do
  let i ← word "import"
  let body ← importBare <|> importAlias <|> importClause
  let stop ← semicolon
  return branch "import_statement" (i :: body ++ stop)

/-! ### Declarations in scripts with types -/

def typeAlias : Read Node := do
  inTypes
  let t ← word "type"
  sameLine
  let name ← anyWord "type_identifier"
  let generic ← optional? typeParameters
  let e ← punct "="
  let v ← reach .type
  let stop ← semicolon
  return branch "type_alias_declaration" ([t, name] ++ generic.toList ++ [e, v] ++ stop)

def interfaceDeclaration : Read Node := do
  inTypes
  let i ← word "interface"
  sameLine
  let name ← anyWord "type_identifier"
  let generic ← optional? typeParameters
  let parents ← optionalNodes do
    let e ← word "extends"
    let ts ← typeList
    return e :: ts
  let body ← objectType
  return branch "interface_declaration" ([i, name] ++ generic.toList ++ parents ++ [body])

def enumDeclaration : Read Node := do
  inTypes
  let constant ← optional? (word "const")
  let e ← word "enum"
  let name ← identifier
  let opening ← punct "\x7b"
  let members ← commaSeparated do
    let n ← propertyName
    let v ← optionalNodes (initializer {})
    return [branch "enum_assignment" (n :: v)]
  let closing ← punct "\x7d"
  return branch "enum_declaration"
    (constant.toList ++ [e, name, opening] ++ members ++ [closing])

def namespaceDeclaration : Read Node := do
  inTypes
  let w ← wordOf ["namespace", "module"]
  sameLine
  let name ← dottedName <|> do return [← string]
  let body ← (do return [← reach .block]) <|> semicolon
  return branch "internal_module" ([w] ++ name ++ body)

def globalDeclaration : Read Node := do
  inTypes
  let g ← word "global"
  let body ← reach .block
  return branch "internal_module" [g, body]

/-- The words that what is declared starts with. -/
def declarationWords : List String :=
  ["var", "let", "const", "function", "async", "class", "abstract", "type", "interface", "enum",
    "namespace", "module", "import", "global"]

def declaredStatement : Read Node := do
  inTypes
  let d ← word "declare"
  sameLine
  require (declarationWords.contains (← wordAhead))
  let s ← globalDeclaration <|> reach .statement
  return branch "ambient_declaration" [d, s]

def typedDeclaration : Read Node :=
  typeAlias <|> interfaceDeclaration <|> enumDeclaration <|> namespaceDeclaration <|>
    declaredStatement

def classDeclaration : Read Node := classWith "class_declaration"

/-! ### Exports -/

def exportDefault : Read (List Node) := do
  let d ← word "default"
  let body ← (do return [← functionDeclaration]) <|> (do return [← classDeclaration]) <|>
    (do return [← interfaceDeclaration]) <|> (do
      let e ← reach (.assignment {})
      let stop ← semicolon
      return e :: stop)
  return d :: body

def exportNames : Read (List Node) := do
  let typeMark ← optional? do
    inTypes
    word "type"
  let names ← specifiers <|> namespaceName
  let source ← optionalNodes fromClause
  let stop ← semicolon
  return typeMark.toList ++ [names] ++ source ++ stop

def exportAssignment : Read (List Node) := do
  inTypes
  let e ← punct "="
  let rest ← expressionEnd
  return e :: rest

def exportNamespace : Read (List Node) := do
  inTypes
  let a ← word "as"
  let n ← word "namespace"
  let name ← identifier
  let stop ← semicolon
  return [a, n, name] ++ stop

def exportStatement : Read Node := do
  let decorators ← many decorator
  let e ← word "export"
  let body ← exportDefault <|> exportNames <|> exportAssignment <|> exportNamespace <|>
    (do return [← reach .statement])
  return branch "export_statement" (decorators ++ [e] ++ body)

/-! ### Statements -/

def expressionStatement : Read Node := do return branch "expression_statement" (← expressionEnd)

/-- A statement that starts with a word of its own. -/
def wordStatement (w : String) : Read Node :=
  match w with
  | "if" => ifStatement
  | "for" => forStatement
  | "while" | "with" => whileStatement
  | "do" => doStatement
  | "return" | "throw" => leavingStatement
  | "break" | "continue" | "debugger" => jumpStatement
  | "try" => tryStatement
  | "switch" => switchStatement
  | "function" => functionDeclaration
  | "class" => classDeclaration
  | "var" => variableStatement
  | "const" => enumDeclaration <|> variableStatement
  | "let" => variableStatement <|> expressionStatement
  | "async" => functionDeclaration <|> expressionStatement
  | "import" => importStatement <|> expressionStatement
  | "export" => exportStatement
  | "abstract" => classDeclaration <|> labeledStatement <|> expressionStatement
  | _ => typedDeclaration <|> labeledStatement <|> expressionStatement

def statement : Read Node := do
  match (← upcoming).head? with
  | none => fail
  | some '{' => reach .block
  | some ';' => punct ";"
  | some '@' => exportStatement <|> classDeclaration
  | some _ => wordStatement (← wordAhead)

end BracketSpacing.Script
