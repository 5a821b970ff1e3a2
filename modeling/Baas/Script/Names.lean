import Baas.Lib.Ancestry
import Baas.Script.SemanticAnalyzer

/-! What the names of a program stand for, read in the order of its source: the purpose of the
semantic analyzer, without its limits, its diagnostics and its records. -/
namespace Baas.Semantics

open Baas.Script (Bytes)
open Baas.Ast (Expression MapEntry Parameter CallArgument Block Statement)

/-- The names that are visible and the function they are read in; the function that owns each
binding, the function around each function, and who has referred to what. -/
structure Names where
  scopes : List (List (Bytes × BindingId))
  current : Option FunctionId
  owners : List (Option FunctionId)
  parents : List (Option FunctionId)
  uses : List (Option FunctionId × BindingId)

namespace Names

variable (n : Names)

/-- The innermost binding of a name. -/
def look (name : Bytes) : Option BindingId := n.scopes.findSome? fun scope => scope.lookup name

/-- A name that stands for nothing refers to nothing. -/
def use (name : Bytes) : Names :=
  match n.look name with
  | none => n
  | some id => { n with uses := n.uses ++ [(n.current, id)] }

/-- A name is bound once in a scope, the first time. -/
def bind (name : Bytes) : Names :=
  if ((n.scopes.headD []).lookup name).isSome then n
  else { n with
    scopes := ((name, n.owners.length) :: n.scopes.headD []) :: n.scopes.tail
    owners := n.owners ++ [n.current] }

def inScope (inside : Names → Names) : Names :=
  { inside { n with scopes := [] :: n.scopes } with scopes := n.scopes }

def inFunction (inside : Names → Names) : Names :=
  { inside { n with
      scopes := [] :: n.scopes
      current := some n.parents.length
      parents := n.parents ++ [n.current] } with
    scopes := n.scopes
    current := n.current }

end Names

mutual

def nameExpression : Expression → Names → Names
  | .literal .., n => n
  | .identifier _ name, n => n.use name
  | .list _ elements, n => nameExpressions elements n
  | .map _ entries, n => nameEntries entries n
  | .function _ _ parameters (.mk _ statements), n =>
    n.inFunction fun n => nameStatements statements (nameParameters parameters n)
  | .unary _ _ operand, n => nameExpression operand n
  | .binary _ _ left right, n => nameExpression right (nameExpression left n)
  | .assignment _ _ target value, n => nameExpression value (nameExpression target n)
  | .member _ object _, n => nameExpression object n
  | .index _ object position, n => nameExpression position (nameExpression object n)
  | .slice _ object start stop step, n =>
    nameOptional step (nameOptional stop (nameOptional start (nameExpression object n)))
  | .call _ callee arguments, n => nameArguments arguments (nameExpression callee n)
  | .await _ value, n => nameExpression value n

def nameExpressions : List Expression → Names → Names
  | [], n => n
  | expression :: rest, n => nameExpressions rest (nameExpression expression n)

def nameOptional : Option Expression → Names → Names
  | none, n => n
  | some expression, n => nameExpression expression n

def nameEntries : List MapEntry → Names → Names
  | [], n => n
  | .mk key value _ :: rest, n => nameEntries rest (nameExpression value (nameExpression key n))

def nameArguments : List CallArgument → Names → Names
  | [], n => n
  | .mk _ value _ :: rest, n => nameArguments rest (nameExpression value n)

/-- A default is read behind its own parameter and in front of the next one. -/
def nameParameters : List Parameter → Names → Names
  | [], n => n
  | .mk name defaultValue _ :: rest, n =>
    nameParameters rest (nameOptional defaultValue (n.bind name))

def nameStatement : Statement → Names → Names
  | .block (.mk _ statements), n => n.inScope (nameStatements statements)
  | .letStatement _ name initializer, n => nameExpression initializer (n.bind name)
  | .expressionStatement _ expression, n => nameExpression expression n
  | .ifStatement _ condition consequent alternate, n =>
    nameAlternate alternate (nameStatement consequent (nameExpression condition n))
  | .whileStatement _ condition body, n => nameStatement body (nameExpression condition n)
  | .forStatement _ binding iterable body, n =>
    (nameExpression iterable n).inScope fun n => nameStatement body (n.bind binding)
  | .functionDeclaration _ name _ parameters (.mk _ statements), n =>
    (n.bind name).inFunction fun n => nameStatements statements (nameParameters parameters n)
  | .returnStatement _ value, n => nameOptional value n
  | .breakStatement _, n => n
  | .continueStatement _, n => n
  | .importStatement _ _ aliasName, n => n.bind aliasName
  | .throwStatement _ value, n => nameExpression value n
  | .tryCatchStatement _ (.mk _ attempted) binding (.mk _ caught), n =>
    (n.inScope (nameStatements attempted)).inScope fun n =>
      (n.bind binding).inScope (nameStatements caught)
  | .deferStatement _ statement, n => nameStatement statement n

def nameAlternate : Option Statement → Names → Names
  | none, n => n
  | some statement, n => nameStatement statement n

def nameStatements : List Statement → Names → Names
  | [], n => n
  | statement :: rest, n => nameStatements rest (nameStatement statement n)

end

/-- In front of the program. -/
def noNames : Names := ⟨[[]], none, [], [], []⟩

def names (program : Ast.Program) : Names := nameStatements program.statements noNames

open Ancestry

/-- Referred to in a function or in one nested in it, and owned by a function around it. -/
def Names.Captured (n : Names) (f : FunctionId) (b : BindingId) : Prop :=
  ∃ u o, (some u, b) ∈ n.uses ∧ n.owners[b]? = some (some o) ∧ Below n.parents u f ∧
    Below n.parents f o ∧ f ≠ o

/-- Everything that is named is known, and what is visible belongs to a function around. -/
structure Names.Sane (n : Names) : Prop where
  ordered : Ordered n.parents
  current : ∀ u, n.current = some u → u < n.parents.length
  visible : ∀ scope ∈ n.scopes, ∀ name b, (name, b) ∈ scope → ∃ owner, n.owners[b]? = some owner ∧
    ∀ o, owner = some o → ∃ u, n.current = some u ∧ Below n.parents u o
  used : ∀ user b, (user, b) ∈ n.uses → b < n.owners.length ∧
    ∀ u, user = some u → u < n.parents.length

/-- What reading on leaves: the outer scopes, and all that is known already. -/
structure Names.Grows (n m : Names) : Prop where
  outer : m.scopes.tail = n.scopes.tail
  current : m.current = n.current
  owners : n.owners <+: m.owners
  parents : n.parents <+: m.parents

end Baas.Semantics
