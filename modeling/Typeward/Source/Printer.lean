import Typeward.Source.Tree

/-!
# Source text of trees

Writes trees as source: parentheses only where precedence asks for them, four blanks a level, a
blank line before definitions. Two things cannot be written, integers beyond the digits that are
read back and formatted strings whose fields would need a backslash.
-/

namespace Typeward.Source

/-- Why a tree cannot be written. -/
inductive PrintFault where
  /-- A field of a formatted string needs a backslash. -/
  | backslashInField
  /-- An integer has too many digits to be read back. -/
  | overlongInteger
deriving DecidableEq, Repr

/-- Text, or why there is none. -/
abbrev Printed := Except PrintFault String

/-- How tightly an expression binds, from named values up to atoms. -/
abbrev Level := Nat

namespace Level

def tuple : Level := 2
def yield : Level := 3
def test : Level := 4
def or : Level := 5
def and : Level := 6
def not : Level := 7
def comparison : Level := 8
def bitOr : Level := 9
def bitXor : Level := 10
def bitAnd : Level := 11
def shift : Level := 12
def sum : Level := 13
def product : Level := 14
def factor : Level := 15
def power : Level := 16
def await : Level := 17
def atom : Level := 18

/-- The next tighter level. -/
def next (l : Level) : Level := min (l + 1) atom

end Level

/-- The text of a binary operator and its level. -/
def binaryText : BinaryOp → String × Level
  | .add => ("+", .sum)
  | .sub => ("-", .sum)
  | .mul => ("*", .product)
  | .matMul => ("@", .product)
  | .div => ("/", .product)
  | .mod => ("%", .product)
  | .shiftLeft => ("<<", .shift)
  | .shiftRight => (">>", .shift)
  | .bitOr => ("|", .bitOr)
  | .bitXor => ("^", .bitXor)
  | .bitAnd => ("&", .bitAnd)
  | .floorDiv => ("//", .product)
  | .pow => ("**", .power)

/-- The text of a comparison. -/
def comparisonText : Comparison → String
  | .eq => "=="
  | .notEq => "!="
  | .lt => "<"
  | .ltEq => "<="
  | .gt => ">"
  | .gtEq => ">="
  | .is => "is"
  | .isNot => "is not"
  | .isIn => "in"
  | .notIn => "not in"

/-- Text in parentheses if they are needed. -/
def parenthesizedIf (needed : Bool) (text : String) : String :=
  if needed then "(" ++ text ++ ")" else text

/-- The quotes that a literal may have, best first. -/
def allQuotes : List (List Char) :=
  [[Text.singleQuote], [Text.doubleQuote], List.replicate 3 Text.doubleQuote,
    List.replicate 3 Text.singleQuote]

/-- The quotes for literals of several lines. -/
def multiQuotes : List (List Char) := allQuotes.drop 2

/-- A code point in a literal; line ends and tabs may stand as they are. -/
def literalPoint (escapeSpaces : Bool) (n : Nat) : List Char :=
  if n.isValidChar then
    let c := Char.ofNat n
    if ! escapeSpaces && (c = '\n' || c = '\t') then [c]
    else if c = '\\' || ! Text.isPrintable c then Text.escapeChar c
    else [c]
  else Text.numericEscape n

/-- Whether one list occurs in another without gaps. -/
def occursIn (part : List Char) : List Char → Bool
  | [] => part.isEmpty
  | c :: rest => part.isPrefixOf (c :: rest) || occursIn part rest

/-- The body of a literal with few escapes, and the quotes that may stand around it. -/
def literalBody (points : List Nat) (quotes : List (List Char)) (escapeSpaces : Bool) :
    List Char × List (List Char) :=
  let body := points.flatMap (literalPoint escapeSpaces)
  let fitting := if body.contains '\n' then quotes.filter multiQuotes.contains else quotes
  let fitting := fitting.filter fun quote => ! occursIn quote body
  match fitting, body.getLast? with
  | [], _ =>
    let text := (Constant.quotedPoints points).toList
    let quote := text.headD Text.singleQuote
    ((text.drop 1).dropLast, [(quotes.find? (·.contains quote)).getD [quote]])
  | _, none => (body, fitting)
  | _, some last =>
    let startsWithLast (quote : List Char) : Bool := quote.head? = some last
    let sorted := fitting.filter (! startsWithLast ·) ++ fitting.filter startsWithLast
    if sorted.head?.any startsWithLast then (body.dropLast ++ ['\\', last], sorted)
    else (body, sorted)

/-- A literal with few escapes. -/
def sparingLiteral (points : List Nat) (quotes : List (List Char)) : String :=
  let (body, fitting) := literalBody points quotes false
  let quote := fitting.headD []
  String.ofList (quote ++ body ++ quote)

/-- The code points of text. -/
def pointsOf (text : String) : List Nat := text.toList.map Char.toNat

/-- The code points of a text constant. -/
def constantPoints : Constant → Option (List Nat)
  | .text s => some (pointsOf s)
  | .surrogates points => some points
  | _ => none

/-- What stands for an infinity: a literal that overflows. -/
def infinityText : String := "1e309"

/-- Replaces the words for an infinity and for no number by expressions. -/
def spellSpecial (text : String) : String :=
  (text.replace "inf" infinityText).replace "nan" ("(" ++ infinityText ++ "-" ++ infinityText ++ ")")

/-- The literal of a constant. -/
def printLiteral (value : Constant) : Printed :=
  match value.literal with
  | some text => .ok text
  | none => .error .overlongInteger

/-- A constant as source. -/
def printConstant (sparing : Bool) (value : Constant) : Printed :=
  match value with
  | .float _ | .complex .. => (printLiteral value).map spellSpecial
  | .ellipsis => .ok "..."
  | .text s => if sparing then .ok (sparingLiteral (pointsOf s) allQuotes) else printLiteral value
  | .surrogates points =>
    if sparing then .ok (sparingLiteral points allQuotes) else printLiteral value
  | _ => printLiteral value

/-- Text of a formatted string, with braces doubled. -/
def doubleBraces (points : List Nat) : List Nat :=
  points.flatMap fun n => if n = '\x7b'.toNat ∨ n = '\x7d'.toNat then [n, n] else [n]

/-- The bodies of the parts of a formatted string with a quote that fits all of them. -/
def fittedParts (quotes : List (List Char)) :
    List (List Nat × Bool) → Option (List Char × List (List Char))
  | [] => some ([], quotes)
  | (points, isText) :: rest =>
    let (body, fitting) := literalBody points quotes isText
    if fitting.any quotes.contains then
      (fittedParts fitting rest).map fun (more, last) => (body ++ more, last)
    else none

/-- A formatted string from its parts; the ones that are text may have their spaces escaped. -/
def formattedLiteral (parts : List (List Nat × Bool)) : String :=
  match fittedParts allQuotes parts with
  | some (body, fitting) =>
    let quote := fitting.headD []
    String.ofList ('f' :: quote ++ body ++ quote)
  | none =>
    let quote := List.replicate 3 Text.singleQuote
    let escaped (n : Nat) : List Char :=
      if n.isValidChar then Text.quotedChar Text.singleQuote (Char.ofNat n) else Text.numericEscape n
    String.ofList ('f' :: quote ++ (parts.flatMap fun part => part.1.flatMap escaped) ++ quote)

/-- Joins texts with commas; a single one is followed by a comma. -/
def tupleItems (items : List String) : String :=
  match items with
  | [one] => one ++ ","
  | _ => ", ".intercalate items

/-- The parameters of a function from the texts of each kind. -/
def parameterList (positionalOnly positional : List String) (variadic : Option String)
    (keywordOnly : List String) (keywordVariadic : Option String) : String :=
  let slash := if positionalOnly.isEmpty then [] else ["/"]
  let star :=
    match variadic with
    | some text => ["*" ++ text]
    | none => if keywordOnly.isEmpty then [] else ["*"]
  ", ".intercalate (positionalOnly ++ slash ++ positional ++ star ++ keywordOnly ++
    (keywordVariadic.map ("**" ++ ·)).toList)

/-- A parameter from its parts. -/
def parameterText (name : String) (hint initial : Option String) : String :=
  name ++ ((hint.map (": " ++ ·)).getD "") ++ ((initial.map ("=" ++ ·)).getD "")

/-- Whether an expression is an integer or a boolean literal: a dot behind it needs a blank. -/
def isIntegral : Expr → Bool
  | .constant _ (.int _) _ | .constant _ (.bool _) _ => true
  | _ => false

/-- Whether an expression is a text constant. -/
def isTextConstant : Expr → Bool
  | .constant _ value _ => value.isText
  | _ => false

/-- The brackets of a display. -/
def displayText (kind : DisplayKind) (level : Level) (items : List String) : String :=
  match kind with
  | .list => "[" ++ ", ".intercalate items ++ "]"
  | .set => if items.isEmpty then "\x7b*()\x7d" else "\x7b" ++ ", ".intercalate items ++ "\x7d"
  | .tuple => parenthesizedIf (items.isEmpty || Level.tuple < level) (tupleItems items)

/-- The brackets of a comprehension. -/
def comprehensionText (kind : ComprehensionKind) (body : String) : String :=
  match kind with
  | .list => "[" ++ body ++ "]"
  | .set => "\x7b" ++ body ++ "\x7d"
  | .generator => "(" ++ body ++ ")"

/-- The entries of a dictionary from the texts of its keys and values. -/
def dictItems (keys : List (Option String)) (values : List String) : String :=
  ", ".intercalate (List.zipWith (fun key value =>
    match key with
    | some key => key ++ ": " ++ value
    | none => "**" ++ value) keys values)

/-- The code points of a replacement field. -/
def fieldPoints (value : String) (conversion : Option Char) (spec : Option (List Nat)) :
    Except PrintFault (List Nat) :=
  if value.toList.contains '\\' then .error .backslashInField
  else
    let before := if value.toList.head? = some '\x7b' then "\x7b " else "\x7b"
    let converted := (conversion.map fun c => ['!', c]).getD []
    .ok (pointsOf (before ++ value) ++ converted.map Char.toNat ++
      ((spec.map (':'.toNat :: ·)).getD []) ++ ['\x7d'.toNat])

mutual

/-- An expression as source, at a level around it. With `sparing` backslashes are avoided. -/
def printExpr (sparing : Bool) (level : Level) : Expr → Printed
  | .name _ id => .ok id
  | .constant _ value marked => do
    let text ← printConstant sparing value
    return if marked then "u" ++ text else text
  | .attribute _ base attr => do
    let text ← printExpr sparing .atom base
    return text ++ (if isIntegral base then " ." else ".") ++ attr
  | .subscript _ base (.display _ .tuple elements) => do
    let text ← printExpr sparing .atom base
    let items ← printExprs sparing .test elements
    return text ++ "[" ++ (if items.isEmpty then "()" else tupleItems items) ++ "]"
  | .subscript _ base index => do
    return (← printExpr sparing .atom base) ++ "[" ++ (← printExpr sparing .test index) ++ "]"
  | .call _ func args keywords _ => do
    let text ← printExpr sparing .atom func
    let args ← printExprs sparing .test args
    let keywords ← printKeywords sparing keywords
    return text ++ "(" ++ ", ".intercalate (args ++ keywords) ++ ")"
  | .binary _ left op right => do
    let (text, own) := binaryText op
    let isPower := op = .pow
    let left ← printExpr sparing (if isPower then own.next else own) left
    let right ← printExpr sparing (if isPower then own else own.next) right
    return parenthesizedIf (own < level) (left ++ " " ++ text ++ " " ++ right)
  | .unary _ op operand => do
    match op with
    | .not =>
      let text ← printExpr sparing .not operand
      return parenthesizedIf (Level.not < level) ("not " ++ text)
    | .plus =>
      return parenthesizedIf (Level.factor < level) ("+" ++ (← printExpr sparing .factor operand))
    | .minus =>
      return parenthesizedIf (Level.factor < level) ("-" ++ (← printExpr sparing .factor operand))
    | .invert =>
      return parenthesizedIf (Level.factor < level) ("~" ++ (← printExpr sparing .factor operand))
  | .boolean _ op operands => do
    let own := match op with | .and => Level.and | .or => Level.or
    let texts ← printOperands sparing own operands
    return parenthesizedIf (own < level)
      ((match op with | .and => " and " | .or => " or ").intercalate texts)
  | .compare _ first rest => do
    let text ← printExpr sparing Level.comparison.next first
    let more ← printComparisons sparing rest
    return parenthesizedIf (Level.comparison < level) (text ++ String.join more)
  | .conditional _ test body orelse => do
    let body ← printExpr sparing Level.test.next body
    let test ← printExpr sparing Level.test.next test
    let orelse ← printExpr sparing .test orelse
    return parenthesizedIf (Level.test < level) (body ++ " if " ++ test ++ " else " ++ orelse)
  | .lambda _ params body => do
    let params ← printParameters sparing params
    let body ← printExpr sparing .test body
    return parenthesizedIf (Level.test < level)
      ((if params.isEmpty then "lambda: " else "lambda " ++ params ++ ": ") ++ body)
  | .display _ kind elements => do
    return displayText kind level (← printExprs sparing .test elements)
  | .dict _ keys values => do
    let values ← printValues sparing (keys.map (·.isNone)) values
    let keys ← printKeys sparing keys
    return "\x7b" ++ dictItems keys values ++ "\x7d"
  | .comprehension _ kind element clauses => do
    let element ← printExpr sparing .test element
    let clauses ← printClauses sparing clauses
    return comprehensionText kind (element ++ String.join clauses)
  | .dictComprehension _ key value clauses => do
    let key ← printExpr sparing .test key
    let value ← printExpr sparing .test value
    let clauses ← printClauses sparing clauses
    return "\x7b" ++ key ++ ": " ++ value ++ String.join clauses ++ "\x7d"
  | .yield _ value => do
    let value ← printOption sparing .atom value
    return parenthesizedIf (Level.yield < level) ("yield" ++ ((value.map (" " ++ ·)).getD ""))
  | .yieldFrom _ value => do
    return parenthesizedIf (Level.yield < level) ("yield from " ++ (← printExpr sparing .atom value))
  | .await _ value => do
    return parenthesizedIf (Level.await < level) ("await " ++ (← printExpr sparing .atom value))
  | .starred _ value => do return "*" ++ (← printExpr sparing .bitOr value)
  | .walrus _ target value => do
    let target ← printExpr sparing .atom target
    let value ← printExpr sparing .atom value
    return parenthesizedIf (1 < level) (target ++ " := " ++ value)
  | .slice _ lower upper step => do
    let lower ← printOption sparing .test lower
    let upper ← printOption sparing .test upper
    let step ← printOption sparing .test step
    return lower.getD "" ++ ":" ++ upper.getD "" ++ ((step.map (":" ++ ·)).getD "")
  | .formatted _ parts => do
    let parts ← printParts parts
    if sparing then return "f" ++ sparingLiteral (parts.flatMap (·.1)) allQuotes
    else return formattedLiteral parts
  | .field _ value conversion spec => do
    let value ← printExpr true Level.test.next value
    let spec ← printSpec spec
    return String.ofList ((← fieldPoints value conversion spec).map Char.ofNat)

/-- Expressions as source, all at one level. -/
def printExprs (sparing : Bool) (level : Level) : List Expr → Except PrintFault (List String)
  | [] => .ok []
  | e :: rest => do return (← printExpr sparing level e) :: (← printExprs sparing level rest)

/-- An expression that may be absent. -/
def printOption (sparing : Bool) (level : Level) : Option Expr → Except PrintFault (Option String)
  | none => .ok none
  | some e => do return some (← printExpr sparing level e)

/-- The operands of a boolean operator; each has to bind more tightly than the one before. -/
def printOperands (sparing : Bool) (level : Level) : List Expr → Except PrintFault (List String)
  | [] => .ok []
  | e :: rest => do
    return (← printExpr sparing level.next e) :: (← printOperands sparing level.next rest)

/-- The comparisons behind the first operand. -/
def printComparisons (sparing : Bool) :
    List (Comparison × Expr) → Except PrintFault (List String)
  | [] => .ok []
  | (op, e) :: rest => do
    let text ← printExpr sparing Level.comparison.next e
    return (" " ++ comparisonText op ++ " " ++ text) :: (← printComparisons sparing rest)

/-- Keyword arguments. -/
def printKeywords (sparing : Bool) : List (Keyword Expr) → Except PrintFault (List String)
  | [] => .ok []
  | ⟨name, value⟩ :: rest => do
    let text ← printExpr sparing .test value
    let before := match name with | some id => id ++ "=" | none => "**"
    return (before ++ text) :: (← printKeywords sparing rest)

/-- The keys of a dictionary. -/
def printKeys (sparing : Bool) : List (Option Expr) → Except PrintFault (List (Option String))
  | [] => .ok []
  | key :: rest => do return (← printOption sparing .test key) :: (← printKeys sparing rest)

/-- The values of a dictionary; unpacked mappings have no key. -/
def printValues (sparing : Bool) (unpacked : List Bool) :
    List Expr → Except PrintFault (List String)
  | [] => .ok []
  | e :: rest => do
    let level := if unpacked.headD false then Level.bitOr else Level.test
    return (← printExpr sparing level e) :: (← printValues sparing unpacked.tail rest)

/-- The clauses of a comprehension. -/
def printClauses (sparing : Bool) : List (ForClause Expr) → Except PrintFault (List String)
  | [] => .ok []
  | ⟨isAsync, target, source, conditions⟩ :: rest => do
    let target ← printExpr sparing .tuple target
    let source ← printExpr sparing Level.test.next source
    let conditions ← printExprs sparing Level.test.next conditions
    let text := (if isAsync then " async for " else " for ") ++ target ++ " in " ++ source ++
      String.join (conditions.map (" if " ++ ·))
    return text :: (← printClauses sparing rest)

/-- A parameter. -/
def printParameter (sparing : Bool) : Parameter Expr → Printed
  | ⟨_, name, hint, initial⟩ => do
    let hint ← printOption sparing .test hint
    let initial ← printOption sparing .test initial
    return parameterText name hint initial

/-- A parameter that may be absent. -/
def printVariadic (sparing : Bool) : Option (Parameter Expr) → Except PrintFault (Option String)
  | none => .ok none
  | some p => do return some (← printParameter sparing p)

/-- Parameters of one kind. -/
def printParameterGroup (sparing : Bool) :
    List (Parameter Expr) → Except PrintFault (List String)
  | [] => .ok []
  | p :: rest => do return (← printParameter sparing p) :: (← printParameterGroup sparing rest)

/-- The parameters of a function. -/
def printParameters (sparing : Bool) : Parameters Expr → Printed
  | ⟨positionalOnly, positional, variadic, keywordOnly, keywordVariadic⟩ => do
    let positionalOnly ← printParameterGroup sparing positionalOnly
    let positional ← printParameterGroup sparing positional
    let variadic ← printVariadic sparing variadic
    let keywordOnly ← printParameterGroup sparing keywordOnly
    let keywordVariadic ← printVariadic sparing keywordVariadic
    return parameterList positionalOnly positional variadic keywordOnly keywordVariadic

/-- A part of a formatted string: its code points. -/
def printPart : Expr → Except PrintFault (List Nat)
  | .constant _ value _ => .ok (doubleBraces ((constantPoints value).getD []))
  | .field _ value conversion spec => do
    let value ← printExpr true Level.test.next value
    fieldPoints value conversion (← printSpec spec)
  | .formatted _ parts => do return (← printParts parts).flatMap (·.1)
  | _ => .ok []

/-- The parts of a formatted string, and which of them are text. -/
def printParts : List Expr → Except PrintFault (List (List Nat × Bool))
  | [] => .ok []
  | e :: rest => do
    let part ← printPart e
    return (part, isTextConstant e) :: (← printParts rest)

/-- The format of a replacement field. -/
def printSpec : Option Expr → Except PrintFault (Option (List Nat))
  | none => .ok none
  | some e => do return some (← printPart e)

end

/-- A name that an import brings in. -/
def printImportName (i : ImportName) : String :=
  match i.asName with
  | some "" | none => i.name
  | some other => i.name ++ " as " ++ other

/-- An expression that may be absent, behind a word. -/
def printBehind (word : String) (e : Option Expr) : Printed := do
  match e with
  | some e => return word ++ (← printExpr false .test e)
  | none => return ""

/-- The names of an import. -/
def printImportNames (names : List ImportName) : String :=
  ", ".intercalate (names.map printImportName)

/-- Simple statements as source. -/
def printSimple : Simple → Printed
  | .expression value => printExpr false .yield value
  | .assign targets value _ => do
    let targets ← targets.mapM (printExpr false .tuple)
    return String.join (targets.map (· ++ " = ")) ++ (← printExpr false .test value)
  | .augmented target op value => do
    let target ← printExpr false .test target
    return target ++ " " ++ (binaryText op).1 ++ "= " ++ (← printExpr false .test value)
  | .annotated target hint value bare _ => do
    let named := match target with | .name .. => true | _ => false
    let target ← printExpr false .test target
    let hint ← printExpr false .test hint
    return parenthesizedIf (! bare && named) target ++ ": " ++ hint ++ (← printBehind " = " value)
  | .returnValue value => do return "return" ++ (← printBehind " " value)
  | .delete targets => do
    return "del " ++ ", ".intercalate (← targets.mapM (printExpr false .test))
  | .raise exception cause => do
    return "raise" ++ (← printBehind " " exception) ++ (← printBehind " from " cause)
  | .assertion test message => do
    return "assert " ++ (← printExpr false .test test) ++ (← printBehind ", " message)
  | .importModules names => .ok ("import " ++ printImportNames names)
  | .importNames source names level =>
    .ok ("from " ++ String.ofList (List.replicate level '.') ++ source.getD "" ++ " import " ++
      printImportNames names)
  | .global names => .ok ("global " ++ ", ".intercalate names)
  | .nonlocal names => .ok ("nonlocal " ++ ", ".intercalate names)
  | .pass => .ok "pass"
  | .breakLoop => .ok "break"
  | .continueLoop => .ok "continue"

mutual

/-- A pattern as source, at a level around it. -/
def printPattern (level : Level) : Pattern → Printed
  | .value _ value => printExpr false .test value
  | .singleton _ value => printLiteral value
  | .sequence _ items => do
    return "[" ++ ", ".intercalate (← printPatterns .test items) ++ "]"
  | .mapping _ keys items rest => do
    let keys ← keys.mapM (printExpr false .test)
    let items ← printPatterns .test items
    let entries := List.zipWith (· ++ ": " ++ ·) keys items
    return "\x7b" ++ ", ".intercalate (entries ++ (rest.map ("**" ++ ·)).toList) ++ "\x7d"
  | .ofClass _ cls items names named => do
    let cls ← printExpr false .atom cls
    let items ← printPatterns .test items
    let named ← printPatterns .test named
    return cls ++ "(" ++ ", ".intercalate (items ++ List.zipWith (· ++ "=" ++ ·) names named) ++ ")"
  | .star _ name => .ok ("*" ++ name.getD "_")
  | .capture _ none name => .ok (name.getD "_")
  | .capture _ (some inner) name => do
    let inner ← printPattern .bitOr inner
    match name with
    | none => return "_"
    | some id => return parenthesizedIf (Level.test < level) (inner ++ " as " ++ id)
  | .alternatives _ items => do
    let items ← printPatterns Level.bitOr.next items
    return parenthesizedIf (Level.bitOr < level) (" | ".intercalate items)

/-- Patterns as source, all at one level. -/
def printPatterns (level : Level) : List Pattern → Except PrintFault (List String)
  | [] => .ok []
  | p :: rest => do return (← printPattern level p) :: (← printPatterns level rest)

end

/-- An item of a `with` statement. -/
def printWithItem (item : WithItem) : Printed := do
  return (← printExpr false .test item.context) ++ (← printBehind " as " item.target)

/-- The header of a clause without its colon. -/
def printHead : ClauseHead → Printed
  | .forLoop isAsync target source => do
    let target ← printExpr false .tuple target
    let source ← printExpr false .test source
    return (if isAsync then "async for " else "for ") ++ target ++ " in " ++ source
  | .whileLoop test => do return "while " ++ (← printExpr false .test test)
  | .withItems isAsync items => do
    let items ← items.mapM printWithItem
    return (if isAsync then "async with " else "with ") ++ ", ".intercalate items
  | .tryBody => .ok "try"
  | .handler isGroup kind name => do
    return (if isGroup then "except*" else "except") ++ (← printBehind " " kind) ++
      ((name.map (" as " ++ ·)).getD "")
  | .elseBody => .ok "else"
  | .finallyBody => .ok "finally"
  | .subject value => do return "match " ++ (← printExpr false .test value)
  | .caseOf pattern condition => do
    return "case " ++ (← printPattern .test pattern) ++ (← printBehind " if " condition)

/-- The start of a line at a depth. -/
def lineStart (depth : Nat) : String := "
" ++ String.ofList (List.replicate (4 * depth) ' ')

/-- The decorators of a definition, behind the blank line that sets it off. -/
def printDecorators (depth : Nat) (decorators : List Expr) : Printed := do
  let lines ← decorators.mapM (printExpr false .test)
  return "
" ++ String.join (lines.map (lineStart depth ++ "@" ++ ·))

/-- The header of a function, with its decorators and its colon. -/
def printFunctionHead (depth : Nat) (head : FunctionHead) : Printed := do
  let decorators ← printDecorators depth head.decorators
  let params ← printParameters false head.params
  let returns ← printBehind " -> " head.returns
  return decorators ++ lineStart depth ++ (if head.isAsync then "async def " else "def ") ++
    head.name ++ "(" ++ params ++ ")" ++ returns ++ ":"

/-- The header of a class, with its decorators and its colon. -/
def printClassHead (depth : Nat) (head : ClassHead) : Printed := do
  let decorators ← printDecorators depth head.decorators
  let bases ← printExprs false .test head.bases
  let keywords ← printKeywords false head.keywords
  let given := bases ++ keywords
  let arguments := if given.isEmpty then "" else "(" ++ ", ".intercalate given ++ ")"
  return decorators ++ lineStart depth ++ "class " ++ head.name ++ arguments ++ ":"

/-- The documentation that opens a suite, as source. -/
def printDocstring (depth : Nat) (value : Constant) (marked : Bool) : String :=
  lineStart depth ++ (if marked then "u" else "") ++
    sparingLiteral ((constantPoints value).getD []) multiQuotes

mutual

/-- A statement as source, each line behind a line end. -/
def printStmt (depth : Nat) : Stmt → Printed
  | .simple _ statement => do return lineStart depth ++ (← printSimple statement)
  | .function _ head body => do
    return (← printFunctionHead depth head) ++ (← printBody (depth + 1) body)
  | .classDef _ head body => do
    return (← printClassHead depth head) ++ (← printBody (depth + 1) body)
  | .branch _ test body orelse => do
    let test ← printExpr false .test test
    let body ← printSuite (depth + 1) body
    return lineStart depth ++ "if " ++ test ++ ":" ++ body ++ (← printElse depth orelse)
  | .compound _ (⟨.subject value, _⟩ :: cases) => do
    return lineStart depth ++ (← printHead (.subject value)) ++ ":" ++
      (← printCompound (depth + 1) cases)
  | .compound _ clauses => printCompound depth clauses

/-- The alternative of a condition: a condition alone in it continues the chain. -/
def printElse (depth : Nat) : List Stmt → Printed
  | [] => .ok ""
  | [.branch _ test body orelse] => do
    let test ← printExpr false .test test
    let body ← printSuite (depth + 1) body
    return lineStart depth ++ "elif " ++ test ++ ":" ++ body ++ (← printElse depth orelse)
  | body => do return lineStart depth ++ "else:" ++ (← printSuite (depth + 1) body)

/-- The clauses of a compound statement. -/
def printCompound (depth : Nat) : List (Clause Stmt) → Printed
  | [] => .ok ""
  | ⟨head, body⟩ :: rest => do
    let head ← printHead head
    let body ← printSuite (depth + 1) body
    return lineStart depth ++ head ++ ":" ++ body ++ (← printCompound depth rest)

/-- Statements as source. -/
def printSuite (depth : Nat) : List Stmt → Printed
  | [] => .ok ""
  | s :: rest => do return (← printStmt depth s) ++ (← printSuite depth rest)

/-- The body of a definition or a module: documentation in its first place is set off by quotes for
several lines. -/
def printBody (depth : Nat) : List Stmt → Printed
  | .simple _ (.expression (.constant pos value marked)) :: rest => do
    let first ←
      if value.isText then pure (printDocstring depth value marked)
      else (lineStart depth ++ ·) <$> printExpr false .yield (.constant pos value marked)
    return first ++ (← printSuite depth rest)
  | body => printSuite depth body

end

/-- A module as source. -/
def printModule (m : Module) : Printed := do
  let text ← printBody 0 m
  return String.ofList (text.toList.dropWhile (· = '
'))

end Typeward.Source
