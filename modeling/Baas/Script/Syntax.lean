import Baas.Lib.Binary64
import Baas.Script.HeapData

/-! The syntax trees of the script language. -/
namespace Baas.Ast

open Baas.Script (Bytes SourceLocation SourceSpan)

inductive LiteralValue
  | null
  | boolean (value : Bool)
  | integer (value : Int)
  | float (value : Binary64)
  | string (value : Bytes)
deriving DecidableEq

inductive UnaryOperator
  | plus | minus | not
deriving DecidableEq

inductive BinaryOperator
  | or | and | equal | notEqual | is | notIs | less | lessEqual | greater | greaterEqual
  | in | notIn | add | subtract | multiply | divide | floorDivide | modulo | power
deriving DecidableEq

inductive AssignmentOperator
  | assign | add | subtract | multiply | divide | floorDivide | modulo
deriving DecidableEq

mutual

inductive Expression
  | literal (span : SourceSpan) (value : LiteralValue)
  | identifier (span : SourceSpan) (name : Bytes)
  | list (span : SourceSpan) (elements : List Expression)
  | map (span : SourceSpan) (entries : List MapEntry)
  | function (span : SourceSpan) (isAsync : Bool) (parameters : List Parameter) (body : Block)
  | unary (span : SourceSpan) (operation : UnaryOperator) (operand : Expression)
  | binary (span : SourceSpan) (operation : BinaryOperator) (left right : Expression)
  | assignment (span : SourceSpan) (operation : AssignmentOperator) (target value : Expression)
  | member (span : SourceSpan) (object : Expression) (name : Bytes)
  | index (span : SourceSpan) (object position : Expression)
  | slice (span : SourceSpan) (object : Expression) (start stop step : Option Expression)
  | call (span : SourceSpan) (callee : Expression) (arguments : List CallArgument)
  | await (span : SourceSpan) (value : Expression)

inductive MapEntry
  | mk (key value : Expression) (span : SourceSpan)

inductive Parameter
  | mk (name : Bytes) (defaultValue : Option Expression) (span : SourceSpan)

inductive CallArgument
  | mk (name : Option Bytes) (value : Expression) (span : SourceSpan)

inductive Block
  | mk (span : SourceSpan) (statements : List Statement)

inductive Statement
  | block (body : Block)
  | letStatement (span : SourceSpan) (name : Bytes) (initializer : Expression)
  | expressionStatement (span : SourceSpan) (expression : Expression)
  | ifStatement (span : SourceSpan) (condition : Expression) (consequent : Statement)
      (alternate : Option Statement)
  | whileStatement (span : SourceSpan) (condition : Expression) (body : Statement)
  | forStatement (span : SourceSpan) (binding : Bytes) (iterable : Expression) (body : Statement)
  | functionDeclaration (span : SourceSpan) (name : Bytes) (isAsync : Bool)
      (parameters : List Parameter) (body : Block)
  | returnStatement (span : SourceSpan) (value : Option Expression)
  | breakStatement (span : SourceSpan)
  | continueStatement (span : SourceSpan)
  | importStatement (span : SourceSpan) (moduleName aliasName : Bytes)
  | throwStatement (span : SourceSpan) (value : Expression)
  | tryCatchStatement (span : SourceSpan) (tryBlock : Block) (binding : Bytes) (catchBlock : Block)
  | deferStatement (span : SourceSpan) (statement : Statement)

end

def Expression.span : Expression → SourceSpan
  | .literal span _ | .identifier span _ | .list span _ | .map span _ | .function span _ _ _
  | .unary span _ _ | .binary span _ _ _ | .assignment span _ _ _ | .member span _ _
  | .index span _ _ | .slice span _ _ _ _ | .call span _ _ | .await span _ => span

def Block.span : Block → SourceSpan
  | .mk span _ => span

def Statement.span : Statement → SourceSpan
  | .block body => body.span
  | .letStatement span _ _ | .expressionStatement span _ | .ifStatement span _ _ _
  | .whileStatement span _ _ | .forStatement span _ _ _ | .functionDeclaration span _ _ _ _
  | .returnStatement span _ | .breakStatement span | .continueStatement span
  | .importStatement span _ _ | .throwStatement span _ | .tryCatchStatement span _ _ _
  | .deferStatement span _ => span

/-- What an assignment may stand for. -/
def Expression.assignable : Expression → Bool
  | .identifier .. | .member .. | .index .. => true
  | _ => false

/-- A message is made of bytes, and each is one character here. -/
def spelled (bytes : Bytes) : String :=
  String.ofList (bytes.map fun byte => Char.ofNat byte.toNat)

structure Program where
  statements : List Statement
  span : SourceSpan

end Baas.Ast
