import Baas.Script.Lexer
import Baas.Script.Syntax

/-! The semantic analyzer of the script language.
A tree of the parser has no missing nodes. A node that a result points at is kept by its span. -/
namespace Baas.Semantics

open Baas.Script (Bytes SourceSpan)
open Baas.Lexer (Diagnostic)
open Baas.Ast (Expression MapEntry Parameter CallArgument Block Statement spelled)

abbrev BindingId := Nat
abbrev FunctionId := Nat

inductive BindingKind
  | letBinding | parameter | function | importBinding | forBinding | catchBinding
deriving DecidableEq

inductive AccessMode
  | read | write | readWrite
deriving DecidableEq

structure SemanticOptions where
  maxAstNodes : Nat
  maxNestingDepth : Nat

structure BindingInfo where
  id : BindingId
  name : Bytes
  kind : BindingKind
  declarationSpan : SourceSpan
  scopeDepth : Nat
  ownerFunction : Option FunctionId
  initialized : Bool
  captured : Bool
deriving DecidableEq

structure ReferenceResolution where
  reference : SourceSpan
  binding : BindingId
  lexicalDistance : Nat
  isWrite : Bool
  requiresRead : Bool
  captured : Bool
deriving DecidableEq

structure FunctionInfo where
  id : FunctionId
  node : SourceSpan
  parent : Option FunctionId
  captures : List BindingId
deriving DecidableEq

structure SemanticResult where
  diagnostics : List Diagnostic
  bindings : List BindingInfo
  references : List ReferenceResolution
  functions : List FunctionInfo
  imports : List SourceSpan
  visitedAstNodes : Nat
deriving DecidableEq

/-- The innermost scope stands first. -/
structure Engine where
  options : SemanticOptions
  result : SemanticResult
  scopes : List (List (Bytes × BindingId))
  currentFunction : Option FunctionId
  cleanupBodyDepth : Nat
  visitedNodes : Nat
  nodeLimitReported : Bool
  depthLimitReported : Bool

def implementationDepthCeiling : Nat := 1024

/-- A name in the innermost scope that has it, and how many scopes lie inside of that. -/
def findFrom (name : Bytes) : List (List (Bytes × BindingId)) → Nat → Option (BindingId × Nat)
  | [], _ => none
  | scope :: scopes, distance =>
    match scope.lookup name with
    | some id => some (id, distance)
    | none => findFrom name scopes (distance + 1)

/-- `add_capture`: from a function to the owner of the binding. A parent is an earlier function,
so the number of a function bounds the way to the top. -/
def captureFrom (binding : BindingId) (owner : Option FunctionId) :
    Nat → Option FunctionId → List FunctionInfo → List FunctionInfo
  | 0, _, functions => functions
  | _ + 1, none, functions => functions
  | fuel + 1, some id, functions =>
    if some id = owner then functions
    else match functions[id]? with
      | none => functions
      | some function =>
        let captures := if binding ∈ function.captures then function.captures
          else function.captures ++ [binding]
        captureFrom binding owner fuel function.parent
          (functions.set id { function with captures })

namespace Engine

variable (s : Engine)

def diagnose (code message : String) (span : SourceSpan) : Engine :=
  { s with result := { s.result with
      diagnostics := s.result.diagnostics ++ [⟨.error, code, message, span⟩] } }

def effectiveMaxDepth : Nat := min s.options.maxNestingDepth implementationDepthCeiling

def enter (span : SourceSpan) (depth : Nat) : Bool × Engine :=
  if s.visitedNodes ≥ s.options.maxAstNodes then
    (false, if s.nodeLimitReported then s
      else { s.diagnose "SEM006" "maximum AST node count exceeded" span with
        nodeLimitReported := true })
  else
    let s := { s with visitedNodes := s.visitedNodes + 1 }
    if depth > s.effectiveMaxDepth then
      (false, if s.depthLimitReported then s
        else { s.diagnose "SEM007" "maximum semantic nesting depth exceeded" span with
          depthLimitReported := true })
    else (true, s)

/-- Visits a node that may be entered. -/
def entering (span : SourceSpan) (depth : Nat) (visit : Engine → Engine) : Engine :=
  match s.enter span depth with
  | (true, s) => visit s
  | (false, s) => s

def openScope : Engine := { s with scopes := [] :: s.scopes }

def closeScope : Engine := { s with scopes := s.scopes.tail }

/-- `FunctionGuard`. -/
def openFunction (node : SourceSpan) : Engine :=
  let id := s.result.functions.length
  { s with
    result := { s.result with
      functions := s.result.functions ++ [⟨id, node, s.currentFunction, []⟩] }
    currentFunction := some id
    cleanupBodyDepth := 0
    scopes := [] :: s.scopes }

/-- Its end, with what it has kept from before. -/
def closeFunction (previous : Engine) : Engine :=
  { s with
    scopes := s.scopes.tail
    currentFunction := previous.currentFunction
    cleanupBodyDepth := previous.cleanupBodyDepth }

/-- `CleanupBodyGuard`. -/
def openCleanup : Engine := { s with cleanupBodyDepth := s.cleanupBodyDepth + 1 }

def closeCleanup : Engine := { s with cleanupBodyDepth := s.cleanupBodyDepth - 1 }

def declare (name : Bytes) (kind : BindingKind) (span : SourceSpan) (initialized parameter : Bool) :
    Option BindingId × Engine :=
  if ((s.scopes.headD []).lookup name).isSome then
    (none, if parameter then
        s.diagnose "SEM004" ("duplicate parameter '" ++ spelled name ++ "'") span
      else s.diagnose "SEM002" ("duplicate declaration of '" ++ spelled name ++ "'") span)
  else
    let id := s.result.bindings.length
    (some id, { s with
      scopes := ((name, id) :: s.scopes.headD []) :: s.scopes.tail
      result := { s.result with bindings := s.result.bindings ++ [⟨id, name, kind, span,
        s.scopes.length - 1, s.currentFunction, initialized, false⟩] } })

/-- `result_.bindings[*id].initialized = true` -/
def setInitialized (id : Option BindingId) : Engine :=
  match id with
  | none => s
  | some id => { s with result := { s.result with
      bindings := s.result.bindings.modify id fun info => { info with initialized := true } } }

def find (name : Bytes) : Option (BindingId × Nat) := findFrom name s.scopes 0

def addCapture (binding : BindingId) : Engine :=
  match s.currentFunction with
  | none => s
  | some id =>
    let owner := s.result.bindings[binding]?.bind BindingInfo.ownerFunction
    { s with result := { s.result with
      functions := captureFrom binding owner (id + 1) (some id) s.result.functions
      bindings := s.result.bindings.modify binding fun info => { info with captured := true } } }

/-- What a found name is recorded as. -/
def refer (span : SourceSpan) (access : AccessMode) (id : BindingId) (distance : Nat)
    (owner : Option FunctionId) : Engine :=
  let captured : Bool := s.currentFunction.isSome && owner.isSome &&
    decide (s.currentFunction ≠ owner)
  let s := if captured then s.addCapture id else s
  { s with result := { s.result with references := s.result.references ++
    [⟨span, id, distance, decide (access ≠ .read), decide (access ≠ .write), captured⟩] } }

def resolve (span : SourceSpan) (name : Bytes) (access : AccessMode) : Engine :=
  match s.find name with
  | none => s.diagnose "SEM001" ("unknown name '" ++ spelled name ++ "'") span
  | some (id, distance) =>
    match s.result.bindings[id]? with
    | none => s
    | some binding =>
      let s := if access ≠ .write ∧ binding.initialized = false then
          s.diagnose "SEM003"
            ("binding '" ++ spelled name ++ "' is read before initialization") span
        else s
      s.refer span access id distance binding.ownerFunction

def rejectCleanupControl (operation : String) (span : SourceSpan) : Engine :=
  if s.cleanupBodyDepth = 0 then s
  else s.diagnose "SEM009" (operation ++ " is not allowed in a defer cleanup body") span

def addImport (span : SourceSpan) : Engine :=
  { s with result := { s.result with imports := s.result.imports ++ [span] } }

end Engine

open Engine

mutual

def visitExpression : Expression → Nat → AccessMode → Engine → Engine
  | .literal span _, depth, _, s => s.entering span depth id
  | .identifier span name, depth, access, s =>
    s.entering span depth fun s => s.resolve span name access
  | .list span elements, depth, _, s =>
    s.entering span depth fun s => visitExpressions elements (depth + 1) s
  | .map span entries, depth, _, s =>
    s.entering span depth fun s => visitEntries entries (depth + 1) s
  | .function span _ parameters (.mk bodySpan statements), depth, _, s =>
    s.entering span depth fun s =>
      -- `analyze_function`
      (((visitParameters parameters (depth + 1) (s.openFunction span)).entering bodySpan (depth + 1)
        fun s => visitStatements statements (depth + 2) s).closeFunction s)
  | .unary span _ operand, depth, _, s =>
    s.entering span depth fun s => visitExpression operand (depth + 1) .read s
  | .binary span _ left right, depth, _, s =>
    s.entering span depth fun s =>
      visitExpression right (depth + 1) .read (visitExpression left (depth + 1) .read s)
  | .assignment span operation target value, depth, _, s =>
    s.entering span depth fun s =>
      -- `visit_assignment_target`: only an identifier is more than read
      let access : AccessMode := match target with
        | .identifier .. => if operation = .assign then .write else .readWrite
        | _ => .read
      visitExpression value (depth + 1) .read (visitExpression target (depth + 1) access s)
  | .member span object _, depth, _, s =>
    s.entering span depth fun s => visitExpression object (depth + 1) .read s
  | .index span object position, depth, _, s =>
    s.entering span depth fun s =>
      visitExpression position (depth + 1) .read (visitExpression object (depth + 1) .read s)
  | .slice span object start stop step, depth, _, s =>
    s.entering span depth fun s =>
      visitOptional step (depth + 1) (visitOptional stop (depth + 1)
        (visitOptional start (depth + 1) (visitExpression object (depth + 1) .read s)))
  | .call span callee arguments, depth, _, s =>
    s.entering span depth fun s =>
      visitArguments arguments (depth + 1) (visitExpression callee (depth + 1) .read s)
  | .await span value, depth, _, s =>
    s.entering span depth fun s =>
      visitExpression value (depth + 1) .read (s.rejectCleanupControl "await" span)

def visitExpressions : List Expression → Nat → Engine → Engine
  | [], _, s => s
  | expression :: rest, depth, s =>
    visitExpressions rest depth (visitExpression expression depth .read s)

def visitOptional : Option Expression → Nat → Engine → Engine
  | none, _, s => s
  | some expression, depth, s => visitExpression expression depth .read s

def visitEntries : List MapEntry → Nat → Engine → Engine
  | [], _, s => s
  | .mk key value _ :: rest, depth, s =>
    visitEntries rest depth (visitExpression value depth .read (visitExpression key depth .read s))

def visitArguments : List CallArgument → Nat → Engine → Engine
  | [], _, s => s
  | .mk _ value _ :: rest, depth, s =>
    visitArguments rest depth (visitExpression value depth .read s)

def visitParameters : List Parameter → Nat → Engine → Engine
  | [], _, s => s
  | .mk name defaultValue span :: rest, depth, s =>
    let declared := s.declare name .parameter span defaultValue.isNone true
    visitParameters rest depth ((visitOptional defaultValue depth declared.2).setInitialized declared.1)

def visitStatement : Statement → Nat → Engine → Engine
  | .block (.mk span statements), depth, s => s.entering span depth fun s =>
    (visitStatements statements (depth + 1) s.openScope).closeScope
  | .letStatement span name initializer, depth, s => s.entering span depth fun s =>
    let declared := s.declare name .letBinding span false false
    (visitExpression initializer (depth + 1) .read declared.2).setInitialized declared.1
  | .expressionStatement span expression, depth, s => s.entering span depth fun s =>
    visitExpression expression (depth + 1) .read s
  | .ifStatement span condition consequent alternate, depth, s => s.entering span depth fun s =>
    visitAlternate alternate (depth + 1) (visitStatement consequent (depth + 1)
      (visitExpression condition (depth + 1) .read s))
  | .whileStatement span condition body, depth, s => s.entering span depth fun s =>
    visitStatement body (depth + 1) (visitExpression condition (depth + 1) .read s)
  | .forStatement span binding iterable body, depth, s => s.entering span depth fun s =>
    let s := (visitExpression iterable (depth + 1) .read s).openScope
    (visitStatement body (depth + 1) (s.declare binding .forBinding span true false).2).closeScope
  | .functionDeclaration span name _ parameters (.mk bodySpan statements), depth, s =>
    s.entering span depth fun s =>
      let s := (s.declare name .function span true false).2
      -- `analyze_function`
      (((visitParameters parameters (depth + 1) (s.openFunction span)).entering bodySpan (depth + 1)
        fun s => visitStatements statements (depth + 2) s).closeFunction s)
  | .returnStatement span value, depth, s => s.entering span depth fun s =>
    visitOptional value (depth + 1) (s.rejectCleanupControl "return" span)
  | .breakStatement span, depth, s => s.entering span depth fun s =>
    s.rejectCleanupControl "break" span
  | .continueStatement span, depth, s => s.entering span depth fun s =>
    s.rejectCleanupControl "continue" span
  | .importStatement span _ aliasName, depth, s => s.entering span depth fun s =>
    ((s.addImport span).declare aliasName .importBinding span true false).2
  | .throwStatement span value, depth, s => s.entering span depth fun s =>
    visitExpression value (depth + 1) .read s
  | .tryCatchStatement span (.mk trySpan attempted) binding (.mk catchSpan caught), depth, s =>
    s.entering span depth fun s =>
      -- both blocks are statements of their own
      let s := (s.entering trySpan (depth + 1) fun s =>
        (visitStatements attempted (depth + 2) s.openScope).closeScope).openScope
      ((s.declare binding .catchBinding catchSpan true false).2.entering catchSpan (depth + 1)
        fun s => (visitStatements caught (depth + 2) s.openScope).closeScope).closeScope
  | .deferStatement span statement, depth, s => s.entering span depth fun s =>
    (visitStatement statement (depth + 1)
      (s.rejectCleanupControl "nested defer" span).openCleanup).closeCleanup

def visitAlternate : Option Statement → Nat → Engine → Engine
  | none, _, s => s
  | some statement, depth, s => visitStatement statement depth s

def visitStatements : List Statement → Nat → Engine → Engine
  | [], _, s => s
  | statement :: rest, depth, s => visitStatements rest depth (visitStatement statement depth s)

end

def Engine.initial (options : SemanticOptions) : Engine :=
  ⟨options, ⟨[], [], [], [], [], 0⟩, [[]], none, 0, 0, false, false⟩

/-- `run`, with the engine it ends in. -/
def run (options : SemanticOptions) (program : Ast.Program) : Engine :=
  visitStatements program.statements 1 (.initial options)

def analyzeSemantics (options : SemanticOptions) (program : Ast.Program) : SemanticResult :=
  let s := run options program
  { s.result with visitedAstNodes := s.visitedNodes }

end Baas.Semantics
