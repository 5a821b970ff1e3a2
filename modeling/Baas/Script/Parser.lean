import Baas.Lib.ByteOrder
import Baas.Lib.Rounds
import Baas.Script.Lexer
import Baas.Script.Syntax

/-! The parser of the script language.
A nested construct is parsed by one of three calls, which are given to every function; `calls`
ties the knot. `strtod` is the library's: the number it reads, and from how many bytes. -/
namespace Baas.Parser

open Baas.Script (Bytes SourceLocation SourceSpan)
open Baas.Lexer (Token TokenKind Diagnostic isAsciiDigit origin)
open Baas.Ast (Expression MapEntry Parameter CallArgument Block Statement BinaryOperator
  AssignmentOperator UnaryOperator spelled)
open Program (read modify query raise runIf rounds Round)

inductive Stop
  | parseFailure
  | outOfFuel
deriving DecidableEq

structure Engine where
  tokens : List Token
  diagnostics : List Diagnostic
  current : Nat
  loopDepth : Int
  functionDepth : Int
  inAsyncFunction : Bool
deriving DecidableEq

abbrev Parse := Program Engine Stop

variable {α β : Type}

def joined (first last : SourceSpan) : SourceSpan := ⟨first.start, last.stop⟩

/-- The constructor of `Parser` leaves no list without an end. -/
def noToken : Token := ⟨.endOfFile, [], [], ⟨origin, origin⟩⟩

namespace Engine

variable (e : Engine)

def tokenAt (index : Nat) : Token := e.tokens.getD index noToken

def peekAt (distance : Nat) : Token :=
  e.tokenAt (min (e.current + distance) (e.tokens.length - 1))

def peek : Token := e.peekAt 0

def previous : Token := e.tokenAt (e.current - 1)

def atEnd : Bool := e.peek.kind = .endOfFile

def check (kind : TokenKind) : Bool := e.peek.kind = kind

def checkNext (kind : TokenKind) : Bool := (e.peekAt 1).kind = kind

def advance : Engine := if e.atEnd then e else { e with current := e.current + 1 }

def error (code message : String) (span : SourceSpan) : Engine :=
  { e with diagnostics := e.diagnostics ++ [⟨.error, code, message, span⟩] }

end Engine

/-! The parts that read tokens. -/

def peek : Parse Token := query fun e => .ok e.peek

def previous : Parse Token := query fun e => .ok e.previous

def check (kind : TokenKind) : Parse Bool := query fun e => .ok (e.check kind)

def checkNext (kind : TokenKind) : Parse Bool := query fun e => .ok (e.checkNext kind)

def advance : Parse Token := do
  modify Engine.advance
  previous

def matchKind (kind : TokenKind) : Parse Bool := do
  if ← check kind then
    let _ ← advance
    pure true
  else pure false

def matchAny : List TokenKind → Parse Bool
  | [] => pure false
  | kind :: kinds => do
    if ← matchKind kind then pure true else matchAny kinds

def error (code message : String) (span : SourceSpan) : Parse Unit :=
  modify fun e => e.error code message span

def consume (kind : TokenKind) (message : String) : Parse Token := do
  if ← check kind then advance
  else
    error "PAR001" message (← peek).span
    raise .parseFailure

/-- Every round of the parser's loops reads a token, so there are at most as many. -/
def loop (body : β → Parse (Round β α)) (b : β) : Parse α := do
  rounds .outOfFuel body ((← read).tokens.length + 1) b

/-- The kinds of tokens at which a recovery stops. -/
def startsStatement : TokenKind → Bool
  | .kwLet | .kwFn | .kwAsync | .kwIf | .kwWhile | .kwFor | .kwReturn | .kwBreak | .kwContinue
  | .kwImport | .kwThrow | .kwTry | .kwDefer => true
  | _ => false

def synchronizeRound (_ : Unit) : Parse (Round Unit Unit) := do
  let e ← read
  if e.atEnd then pure (.last ())
  else if e.check .rightBrace then pure (.last ())
  else if startsStatement e.peek.kind then pure (.last ())
  else if (← advance).kind = .semicolon then pure (.last ())
  else pure (.again ())

def synchronize : Parse Unit := do
  let e ← read
  if e.atEnd then pure ()
  else if e.current > 0 ∧ e.previous.kind = .semicolon then pure ()
  else loop synchronizeRound ()

/-- The guarantee of progress behind a statement that was read, or not, from `before`. -/
def force (before : Nat) (stops : Engine → Bool) : Parse Unit :=
  modify fun e =>
    if e.current = before ∧ stops e = false then { e with current := e.current + 1 } else e

/-- One more statement, or a recovery. -/
def recovering (statement : Parse Statement) (statements : List Statement) :
    Parse (List Statement) :=
  Program.catching (do pure (statements ++ [← statement])) fun
    | .parseFailure => do
      synchronize
      pure statements
    | .outOfFuel => raise .outOfFuel

/-! Nested constructs. -/

/-- The calls to other constructs, once a token of this one has been read. -/
structure Calls where
  statement : Parse Statement
  expression : Parse Expression
  unary : Parse Expression

section Constructs

variable (strtod : Bytes → Binary64 × Nat) (r : Calls)

def endsBlock (e : Engine) : Bool := e.check .rightBrace || e.atEnd

def blockRound (statements : List Statement) :
    Parse (Round (List Statement) (List Statement)) := do
  let before ← read
  if endsBlock before then pure (.last statements)
  else
    let statements ← recovering r.statement statements
    force before.current endsBlock
    pure (.again statements)

def block (start : Token) : Parse Block := do
  let statements ← loop (blockRound r) []
  let close ← consume .rightBrace "expected '\x7d' after block"
  pure (.mk (joined start.span close.span) statements)

def requiredBlock (message : String) : Parse Block := do
  let start ← consume .leftBrace message
  block r start

/-- Whether another item follows in a list up to `close`. -/
def another (close : TokenKind) : Parse Bool := do
  if ← matchKind .comma then pure (!(← check close)) else pure false

/-- The parameters so far, their names, and whether one had a default. -/
structure Parameters where
  result : List Parameter
  names : List Bytes
  sawDefault : Bool

def parameterDefault (name : Token) (sawDefault : Bool) :
    Parse (Option Expression × SourceSpan × Bool) := do
  if ← matchKind .equal then
    let value ← r.expression
    pure (some value, ⟨name.span.start, value.span.stop⟩, true)
  else
    runIf (sawDefault = true)
      (error "PAR005" "required parameter cannot follow a default parameter" name.span)
    pure (none, name.span, sawDefault)

def parameterRound (so : Parameters) : Parse (Round Parameters (List Parameter)) := do
  let name ← consume .identifier "expected parameter name"
  let (defaultValue, span, sawDefault) ← parameterDefault r name so.sawDefault
  runIf (name.lexeme ∈ so.names)
    (error "PAR004" ("duplicate parameter '" ++ spelled name.lexeme ++ "'") name.span)
  let result := so.result ++ [.mk name.lexeme defaultValue span]
  if ← another .rightParen then pure (.again ⟨result, name.lexeme :: so.names, sawDefault⟩)
  else pure (.last result)

def parameters : Parse (List Parameter) := do
  let _ ← consume .leftParen "expected '('"
  let result ← if ← check .rightParen then pure []
    else loop (parameterRound r) ⟨[], [], false⟩
  let _ ← consume .rightParen "expected ')' after parameters"
  pure result

/-- The scope of a `LoopContextGuard`. -/
def loopContext (m : Parse α) : Parse α :=
  m.between (fun e => { e with loopDepth := e.loopDepth + 1 })
    (fun _ e => { e with loopDepth := e.loopDepth - 1 })

/-- The scope of a `FunctionContextGuard`. -/
def functionContext (isAsync : Bool) (m : Parse α) : Parse α :=
  m.between
    (fun e => { e with
      functionDepth := e.functionDepth + 1, loopDepth := 0, inAsyncFunction := isAsync })
    (fun old e => { e with
      functionDepth := e.functionDepth - 1, loopDepth := old.loopDepth
      inAsyncFunction := old.inAsyncFunction })

def functionBody (isAsync : Bool) : Parse Block := do
  let start ← consume .leftBrace "expected '\x7b' before function body"
  functionContext isAsync (block r start)

/-! Expressions. -/

/-- The arguments so far, the names among them, and whether one was named. -/
structure Arguments where
  result : List CallArgument
  names : List Bytes
  sawNamed : Bool

/-- The name in front of an argument. -/
def argumentName (so : Arguments) : Parse (Option Bytes × Arguments) := do
  if (← check .identifier) && (← checkNext .equal) then
    let name ← advance
    let _ ← advance
    runIf (name.lexeme ∈ so.names)
      (error "PAR006" ("duplicate named argument '" ++ spelled name.lexeme ++ "'") name.span)
    pure (some name.lexeme, { so with names := name.lexeme :: so.names, sawNamed := true })
  else
    runIf (so.sawNamed = true)
      (error "PAR007" "positional argument cannot follow a named argument" (← peek).span)
    pure (none, so)

def argumentRound (so : Arguments) : Parse (Round Arguments (List CallArgument)) := do
  let start := (← peek).span.start
  let (name, so) ← argumentName so
  let value ← r.expression
  let result := so.result ++ [.mk name value ⟨start, value.span.stop⟩]
  if ← another .rightParen then pure (.again { so with result }) else pure (.last result)

def finishCall (callee : Expression) : Parse Expression := do
  let arguments ← if ← check .rightParen then pure []
    else loop (argumentRound r) ⟨[], [], false⟩
  let close ← consume .rightParen "expected ')' after arguments"
  pure (.call (joined callee.span close.span) callee arguments)

/-- An expression, unless one of these comes next. -/
def expressionUnless (kinds : List TokenKind) : Parse (Option Expression) := do
  let e ← read
  if kinds.any e.check then pure none else pure (some (← r.expression))

def finishIndex (object : Expression) (first : Option Expression) : Parse Expression := do
  match first with
  | none =>
    error "PAR002" "expected index expression" (← peek).span
    raise .parseFailure
  | some position =>
    let close ← consume .rightBracket "expected ']' after index"
    pure (.index (joined object.span close.span) object position)

def finishSubscript (object : Expression) : Parse Expression := do
  let first ← expressionUnless r [.colon, .rightBracket]
  if ← matchKind .colon then
    let stop ← expressionUnless r [.colon, .rightBracket]
    let step ← if ← matchKind .colon then expressionUnless r [.rightBracket] else pure none
    let close ← consume .rightBracket "expected ']' after slice"
    pure (.slice (joined object.span close.span) object first stop step)
  else finishIndex object first

def elementRound (elements : List Expression) :
    Parse (Round (List Expression) (List Expression)) := do
  let elements := elements ++ [← r.expression]
  if ← another .rightBracket then pure (.again elements) else pure (.last elements)

def listLiteral (start : Token) : Parse Expression := do
  let elements ← if ← check .rightBracket then pure [] else loop (elementRound r) []
  let close ← consume .rightBracket "expected ']' after list literal"
  pure (.list (joined start.span close.span) elements)

def entryRound (entries : List MapEntry) : Parse (Round (List MapEntry) (List MapEntry)) := do
  let key ← r.expression
  let _ ← consume .colon "expected ':' after map key"
  let value ← r.expression
  let entries := entries ++ [.mk key value (joined key.span value.span)]
  if ← another .rightBrace then pure (.again entries) else pure (.last entries)

def mapLiteral (start : Token) : Parse Expression := do
  let entries ← if ← check .rightBrace then pure [] else loop (entryRound r) []
  let close ← consume .rightBrace "expected '\x7d' after map literal"
  pure (.map (joined start.span close.span) entries)

def functionExpression (start : Token) (isAsync : Bool) : Parse Expression := do
  let parameters ← parameters r
  let body ← functionBody r isAsync
  pure (.function (joined start.span body.span) isAsync parameters body)

/-- `std::from_chars` into 64 bits. -/
def fromChars (lexeme : Bytes) : Option Int :=
  let (sign, rest) : Int × Bytes := match lexeme with
    | 45 :: rest => (-1, rest)
    | _ => (1, lexeme)
  let digits := rest.takeWhile isAsciiDigit
  let value := sign * digits.foldl (fun value digit => 10 * value + (digit.toNat - 48 : Nat)) 0
  if digits = [] ∨ value < -2 ^ 63 ∨ 2 ^ 63 ≤ value then none else some value

def integerLiteral (token : Token) : Parse Expression := do
  runIf (fromChars token.lexeme = none)
    (error "PAR018" "integer literal is outside int64 range" token.span)
  pure (.literal token.span (.integer ((fromChars token.lexeme).getD 0)))

def floatLiteral (token : Token) : Parse Expression := do
  let (value, count) := strtod token.lexeme
  runIf (count ≠ token.lexeme.length ∨ value.finite = false)
    (error "PAR019" "invalid finite float literal" token.span)
  pure (.literal token.span (.float value))

def grouped : Parse Expression := do
  let value ← r.expression
  let _ ← consume .rightParen "expected ')' after expression"
  pure value

def primary : Parse Expression := do
  if ← matchKind .kwNull then pure (.literal (← previous).span .null)
  else if ← matchKind .kwTrue then pure (.literal (← previous).span (.boolean true))
  else if ← matchKind .kwFalse then pure (.literal (← previous).span (.boolean false))
  else if ← matchKind .string then
    let token ← previous
    pure (.literal token.span (.string token.value))
  else if ← matchKind .integer then integerLiteral (← previous)
  else if ← matchKind .float then floatLiteral strtod (← previous)
  else if ← matchKind .identifier then
    let token ← previous
    pure (.identifier token.span token.lexeme)
  else if ← matchKind .leftParen then grouped r
  else if ← matchKind .leftBracket then listLiteral r (← previous)
  else if ← matchKind .leftBrace then mapLiteral r (← previous)
  else if ← matchKind .kwFn then functionExpression r (← previous) false
  else if ← matchKind .kwAsync then
    let start ← previous
    let _ ← consume .kwFn "expected 'fn' after 'async'"
    functionExpression r start true
  else
    error "PAR002" "expected expression" (← peek).span
    raise .parseFailure

def postfixRound (result : Expression) : Parse (Round Expression Expression) := do
  if ← matchKind .dot then
    let member ← consume .identifier "expected member name after '.'"
    pure (.again (.member (joined result.span member.span) result member.lexeme))
  else if ← matchKind .leftParen then pure (.again (← finishCall r result))
  else if ← matchKind .leftBracket then pure (.again (← finishSubscript r result))
  else pure (.last result)

/-- `postfix`. -/
def postfixed : Parse Expression := do
  let result ← primary strtod r
  loop (postfixRound r) result

def power : Parse Expression := do
  let left ← postfixed strtod r
  if ← matchKind .power then
    let right ← r.unary
    pure (.binary (joined left.span right.span) .power left right)
  else pure left

def unaryOperator : TokenKind → UnaryOperator
  | .plus => .plus
  | .minus => .minus
  | _ => .not

def unary : Parse Expression := do
  if ← matchAny [.plus, .minus, .kwNot] then
    let token ← previous
    let operand ← r.unary
    pure (.unary (joined token.span operand.span) (unaryOperator token.kind) operand)
  else if ← matchKind .kwAwait then
    let token ← previous
    runIf ((← read).inAsyncFunction = false)
      (error "PAR011" "'await' is only valid inside an async function" token.span)
    let value ← r.unary
    pure (.await (joined token.span value.span) value)
  else power strtod r

/-- The first of the operators that comes next. -/
def matchOperator : List (TokenKind × α) → Parse (Option α)
  | [] => pure none
  | (kind, value) :: rest => do
    if ← matchKind kind then pure (some value) else matchOperator rest

def binaryRound (operation : Parse (Option BinaryOperator)) (next : Parse Expression)
    (left : Expression) : Parse (Round Expression Expression) := do
  match ← operation with
  | none => pure (.last left)
  | some operation =>
    let right ← next
    pure (.again (.binary (joined left.span right.span) operation left right))

def binaryLoop (operation : Parse (Option BinaryOperator)) (next : Parse Expression) :
    Parse Expression := do
  let left ← next
  loop (binaryRound operation next) left

def leftAssociative (next : Parse Expression) (operators : List (TokenKind × BinaryOperator)) :
    Parse Expression :=
  binaryLoop (matchOperator operators) next

def multiplicative : Parse Expression :=
  leftAssociative (unary strtod r) [(.star, .multiply), (.slash, .divide),
    (.floorDivide, .floorDivide), (.percent, .modulo)]

def additive : Parse Expression :=
  leftAssociative (multiplicative strtod r) [(.plus, .add), (.minus, .subtract)]

/-- One of the operators, or `not` with a second word. -/
def matchOrNot (operators : List (TokenKind × BinaryOperator)) (word : TokenKind)
    (negated : BinaryOperator) : Parse (Option BinaryOperator) := do
  match ← matchOperator operators with
  | some operation => pure (some operation)
  | none =>
    if (← check .kwNot) && (← checkNext word) then
      let _ ← advance
      let _ ← advance
      pure (some negated)
    else pure none

def ordering : Parse Expression :=
  binaryLoop (matchOrNot [(.less, .less), (.lessEqual, .lessEqual), (.greater, .greater),
    (.greaterEqual, .greaterEqual), (.kwIn, .in)] .kwIn .notIn) (additive strtod r)

def equality : Parse Expression :=
  binaryLoop (matchOrNot [(.equalEqual, .equal), (.bangEqual, .notEqual), (.kwIs, .is)]
    .kwIs .notIs) (ordering strtod r)

def logicalAnd : Parse Expression := leftAssociative (equality strtod r) [(.kwAnd, .and)]

def logicalOr : Parse Expression := leftAssociative (logicalAnd strtod r) [(.kwOr, .or)]

def assignmentOperators : List (TokenKind × AssignmentOperator) :=
  [(.equal, .assign), (.plusEqual, .add), (.minusEqual, .subtract), (.starEqual, .multiply),
    (.slashEqual, .divide), (.floorDivideEqual, .floorDivide), (.percentEqual, .modulo)]

/-- `assignment`, which is `expression`. -/
def expression : Parse Expression := do
  let target ← logicalOr strtod r
  match ← matchOperator assignmentOperators with
  | none => pure target
  | some operation =>
    let operatorSpan := (← previous).span
    let value ← r.expression
    runIf (target.assignable = false)
      (error "PAR003" "invalid assignment target" (joined target.span operatorSpan))
    pure (.assignment (joined target.span value.span) operation target value)

/-! Statements. -/

def letStatement (start : Token) : Parse Statement := do
  let name ← consume .identifier "expected binding name after 'let'"
  let _ ← consume .equal "expected '=' after binding name"
  let initializer ← r.expression
  let close ← consume .semicolon "expected ';' after binding"
  pure (.letStatement (joined start.span close.span) name.lexeme initializer)

def parenthesizedCondition (construct : String) : Parse Expression := do
  let _ ← consume .leftParen construct
  let result ← r.expression
  let _ ← consume .rightParen "expected ')' after condition"
  pure result

def ifStatement (start : Token) : Parse Statement := do
  let condition ← parenthesizedCondition r "expected '(' after 'if'"
  let consequent ← r.statement
  let alternate ← if ← matchKind .kwElse then some <$> r.statement else pure none
  let endSpan := (alternate.getD consequent).span
  pure (.ifStatement (joined start.span endSpan) condition consequent alternate)

def whileStatement (start : Token) : Parse Statement := do
  let condition ← parenthesizedCondition r "expected '(' after 'while'"
  let body ← loopContext r.statement
  pure (.whileStatement (joined start.span body.span) condition body)

def forStatement (start : Token) : Parse Statement := do
  let _ ← consume .leftParen "expected '(' after 'for'"
  let binding ← consume .identifier "expected loop binding"
  let _ ← consume .kwIn "expected 'in' after loop binding"
  let iterable ← r.expression
  let _ ← consume .rightParen "expected ')' after for iterable"
  let body ← loopContext r.statement
  pure (.forStatement (joined start.span body.span) binding.lexeme iterable body)

def functionDeclaration (start : Token) (isAsync : Bool) : Parse Statement := do
  let name ← consume .identifier "expected function name"
  let parameters ← parameters r
  let body ← functionBody r isAsync
  pure (.functionDeclaration (joined start.span body.span) name.lexeme isAsync parameters body)

def returnStatement (start : Token) : Parse Statement := do
  runIf ((← read).functionDepth = 0)
    (error "PAR010" "'return' is only valid inside a function" start.span)
  let value ← expressionUnless r [.semicolon]
  let close ← consume .semicolon "expected ';' after return"
  pure (.returnStatement (joined start.span close.span) value)

/-- `break` and `continue`. -/
def loopExit (code outside incomplete : String) (start : Token) : Parse SourceSpan := do
  runIf ((← read).loopDepth = 0) (error code outside start.span)
  let close ← consume .semicolon incomplete
  pure (joined start.span close.span)

def breakStatement (start : Token) : Parse Statement := do
  pure (.breakStatement (← loopExit "PAR008" "'break' is only valid inside a loop"
    "expected ';' after break" start))

def continueStatement (start : Token) : Parse Statement := do
  pure (.continueStatement (← loopExit "PAR009" "'continue' is only valid inside a loop"
    "expected ';' after continue" start))

def importStatement (start : Token) : Parse Statement := do
  let moduleName ← consume .string "expected module string after 'import'"
  let _ ← consume .kwAs "expected 'as' after import path"
  let aliasName ← consume .identifier "expected import alias"
  let close ← consume .semicolon "expected ';' after import"
  pure (.importStatement (joined start.span close.span) moduleName.value aliasName.lexeme)

def throwStatement (start : Token) : Parse Statement := do
  let value ← r.expression
  let close ← consume .semicolon "expected ';' after throw"
  pure (.throwStatement (joined start.span close.span) value)

def tryStatement (start : Token) : Parse Statement := do
  let tryBlock ← requiredBlock r "expected '\x7b' after 'try'"
  let _ ← consume .kwCatch "expected 'catch' after try block"
  let parenthesized ← matchKind .leftParen
  let binding ← consume .identifier "expected catch binding"
  if parenthesized then let _ ← consume .rightParen "expected ')' after catch binding"
  let catchBlock ← requiredBlock r "expected '\x7b' after catch binding"
  pure (.tryCatchStatement (joined start.span catchBlock.span) tryBlock binding.lexeme catchBlock)

def deferStatement (start : Token) : Parse Statement := do
  runIf ((← read).functionDepth = 0)
    (error "PAR014" "'defer' is only valid inside a function" start.span)
  let deferred ← r.statement
  pure (.deferStatement (joined start.span deferred.span) deferred)

def expressionStatement : Parse Statement := do
  let value ← expression strtod r
  let close ← consume .semicolon "expected ';' after expression"
  pure (.expressionStatement (joined value.span close.span) value)

def declaresAsync (e : Engine) : Bool :=
  e.check .kwAsync && e.checkNext .kwFn && (e.peekAt 2).kind = .identifier

def declaresFunction (e : Engine) : Bool := e.check .kwFn && e.checkNext .identifier

/-- The statements that a keyword other than `let`, `if`, `while`, `for`, `async` and `fn`
starts, and expressions. -/
def otherStatement : Parse Statement := do
  if ← matchKind .kwReturn then returnStatement r (← previous)
  else if ← matchKind .kwBreak then breakStatement (← previous)
  else if ← matchKind .kwContinue then continueStatement (← previous)
  else if ← matchKind .kwImport then importStatement (← previous)
  else if ← matchKind .kwThrow then throwStatement r (← previous)
  else if ← matchKind .kwTry then tryStatement r (← previous)
  else if ← matchKind .kwDefer then deferStatement r (← previous)
  else expressionStatement strtod r

def statement : Parse Statement := do
  if ← matchKind .leftBrace then pure (.block (← block r (← previous)))
  else if ← matchKind .kwLet then letStatement r (← previous)
  else if ← matchKind .kwIf then ifStatement r (← previous)
  else if ← matchKind .kwWhile then whileStatement r (← previous)
  else if ← matchKind .kwFor then forStatement r (← previous)
  else if declaresAsync (← read) then
    let start ← advance
    let _ ← advance
    functionDeclaration r start true
  else if declaresFunction (← read) then
    let start ← advance
    functionDeclaration r start false
  else otherStatement strtod r

end Constructs

/-- The calls that nest at most so deep. -/
def calls (strtod : Bytes → Binary64 × Nat) : Nat → Calls
  | 0 => ⟨raise .outOfFuel, raise .outOfFuel, raise .outOfFuel⟩
  | n + 1 =>
    let r := calls strtod n
    ⟨statement strtod r, expression strtod r, unary strtod r⟩

/-! Programs. -/

def runRound (r : Calls) (statements : List Statement) :
    Parse (Round (List Statement) (List Statement)) := do
  let before ← read
  if before.atEnd then pure (.last statements)
  else
    let statements ← recovering r.statement statements
    force before.current Engine.atEnd
    pure (.again statements)

def run (r : Calls) : Parse Ast.Program := do
  let statements ← loop (runRound r) []
  let last ← peek
  let start := (statements.head?.map fun first => first.span.start).getD last.span.start
  pure ⟨statements, ⟨start, last.span.stop⟩⟩

/-- What the constructor of `Parser` makes of its tokens. -/
def ended (tokens : List Token) : List Token :=
  match tokens.getLast? with
  | none => [noToken]
  | some last =>
    if last.kind = .endOfFile then tokens
    else tokens ++ [⟨.endOfFile, [], [], ⟨last.span.stop, last.span.stop⟩⟩]

def initial (tokens : List Token) (diagnostics : List Diagnostic) : Engine :=
  ⟨tokens, diagnostics, 0, 0, 0, false⟩

/-- How `parse_program` ends, with the state of its engine. -/
def parseProgram (strtod : Bytes → Binary64 × Nat) (tokens : List Token) :
    Except Stop Ast.Program × Engine :=
  run (calls strtod ((ended tokens).length + 1)) (initial (ended tokens) [])

/-- `parse`. -/
def parse (strtod : Bytes → Binary64 × Nat) (source : Bytes) :
    Except Stop Ast.Program × Engine :=
  let lexed := Lexer.lex source
  run (calls strtod (lexed.tokens.length + 1)) (initial lexed.tokens lexed.diagnostics)

end Baas.Parser
