import Bindery.Template.ExprReader
import Bindery.Template.Token.Stretch

/-
  This file defines how templates are read.

  Key definitions include:
    * `readTarget`
    * `readBody`
    * `readStmt`
    * `Stmt.ofTemplate`
-/

namespace Bindery.Template

open TokenReader

------------------------------------------------------------
-- Targets
------------------------------------------------------------

/- Names that nothing can be assigned to. -/
def reservedNames : List String :=
  ["true", "True", "False", "false", "none", "None", "loop", "self"]

/- Read a name that something can be assigned to. -/
def readTargetName : TokenReader String := do
  let word ← readName
  if reservedNames.contains word then fail else pure word

/- Whether a token ends a list of targets. -/
def endsTargets (token : Token) : Bool :=
  isSymbol .closeParen token || isEndOutput token ||
    isEndBlock token || isName ["in"] token

/-
  Read names with commas between them.  The state holds the
  targets so far and whether the last step ended the list.
-/
def readTargetsWith
    (group : TokenReader Target) :
    TokenReader Target := do
  let (targets, several) ←
    repeatWhile
      (fun (targets, more) => do
        if !more then pure none
        else if ← looksAt endsTargets then pure none
        else
          let target ←
            (do
              if ← skipSymbol .openParen then
                let inner ← group
                expectSymbol .closeParen
                pure inner
              else
                let word ← readTargetName
                pure (Target.name word))
          let next ← skipSymbol .comma
          pure (some (targets ++ [target], next)))
      (([], true) : List Target × Bool)
  match targets, several with
  | [target], false => pure target
  | _, _ => pure (.tuple targets)

/- Read a target in which targets are nested up to some depth. -/
def readTargets : Nat → TokenReader Target
| 0 => fail
| depth + 1 => readTargetsWith (readTargets depth)

/- Read the target of a loop or of an assignment in parentheses. -/
def readTarget : TokenReader Target := do
  let tokens ← get
  readTargets (tokens.length + 1)

/- The target after one more attribute. -/
def Target.attributeOf (target : Target) (word : String) : Target :=
  match target with
  | .name subject => .attribute (.name subject) word
  | .attribute subject last => .attribute (.attribute subject last) word
  | .tuple targets => .tuple targets

/- Read a name and attributes after it. -/
def readDottedTarget : TokenReader Target := do
  let word ← readTargetName
  repeatWhile
    (fun target => do
      if ← skipSymbol .dot then
        let last ← readName
        pure (some (target.attributeOf last))
      else
        pure none)
    (.name word)

------------------------------------------------------------
-- Bodies
------------------------------------------------------------

/- The readers of what stands in a body. -/
structure Readers where
  whole : TokenReader Expr
  operand : TokenReader Expr
  stmt : TokenReader (List Stmt)

/-
  Read statements up to a block that begins with one of some
  words.  The block's opening mark is taken, the word is not.
-/
def readBody
    (readers : Readers)
    (ends : List String) : TokenReader (List Stmt) :=
  repeatWhile
    (fun stmts => do
      match ← take with
      | none => pure none
      | some (.text s) => pure (some (stmts ++ [.text s]))
      | some .beginOutput => do
          let expr ← readers.whole
          expect isEndOutput
          pure (some (stmts ++ [.emit expr]))
      | some .beginBlock => do
          let token ← peek
          if token.isNone then fail
          else if token.any (isName ends) then pure none
          else
            let more ← readers.stmt
            expect isEndBlock
            pure (some (stmts ++ more))
      | some _ => fail)
    []

/- Read the body after the end of an opening block. -/
def readBlockBody
    (readers : Readers)
    (ends : List String) : TokenReader (List Stmt) := do
  expect isEndBlock
  readBody readers ends

/- Read a condition, its bodies and those of further conditions. -/
def readCond (readers : Readers) : Nat → TokenReader Stmt
| 0 => fail
| fuel + 1 => do
    let test ← readers.whole
    let yes ← readBlockBody readers ["endif", "else", "elif"]
    match ← take with
    | some (.name "else") => do
        let no ← readBlockBody readers ["endif"]
        let _ ← take
        pure (.cond test yes no)
    | some (.name "elif") => do
        let no ← readCond readers fuel
        pure (.cond test yes [no])
    | _ => pure (.cond test yes [])

/- Read a loop. -/
def readLoop (readers : Readers) : TokenReader Stmt := do
  let target ← readTarget
  expectName "in"
  let source ← readers.operand
  let guard ←
    (do
      if ← skipName ["if"] then
        let expr ← readers.whole
        pure (some expr)
      else pure none)
  let _ ← skipName ["recursive"]
  let body ← readBlockBody readers ["endfor", "else"]
  let orElse ←
    (do
      if ← skipName ["else"] then readBlockBody readers ["endfor"]
      else pure [])
  let _ ← take
  pure (.loop target source guard body orElse)

/- Read the filters of a captured body. -/
def readCaptureFilters
    (readers : Readers)
    (captured : Expr) : TokenReader Expr := do
  let chain ← repeatWhile
    (fun (expr, count) => do
      if ← looksAt isEndBlock then pure none
      else
        if count == 0 then pure () else expectSymbol .pipe
        let word ← readName
        let args ← readOptionalArgs readers.whole readers.operand
        pure (some
          (Expr.filter word expr args.exprs args.keywords, count + 1)))
    (captured, 0)
  if chain.2 == 0 then fail else pure chain.1

/- The expression that reads a target. -/
def Target.expr : Target → Expr
| .name word => .name word
| .attribute subject word => .attribute subject word
| .tuple _ => .const .undefined

/- Read an assignment of a body after its target. -/
def readCapture
    (readers : Readers)
    (target : Target) : TokenReader (List Stmt) := do
  let filtered ←
    (do
      if ← skipSymbol .pipe then
        let expr ← readCaptureFilters readers target.expr
        pure [Stmt.assign target expr]
      else pure [])
  let body ← readBlockBody readers ["endset"]
  let _ ← take
  pure (.capture target body :: filtered)

/- Read an assignment. -/
def readAssignment (readers : Readers) : TokenReader (List Stmt) := do
  let grouped ← skipSymbol .openParen
  let target ←
    (do
      if grouped then
        let target ← readTarget
        expectSymbol .closeParen
        pure target
      else readDottedTarget)
  let captures ←
    looksAt (fun t => isEndBlock t || isSymbol .pipe t)
  if !grouped && captures then readCapture readers target
  else
    expectSymbol .assign
    let value ← readers.whole
    pure [.assign target value]

/- Skip a note on the context of an included template. -/
def skipContextNote : TokenReader Unit := do
  if ← skipName ["without", "with"] then expectName "context"
  else pure ()

/- Read what is included. -/
def readEmbed (readers : Readers) : TokenReader Stmt := do
  let templates ← readers.whole
  skipContextNote
  if ← skipName ["ignore"] then
    expectName "missing"
    skipContextNote
    pure (.embed templates true)
  else
    pure (.embed templates false)

/- Read a statement after the opening mark of its block. -/
def readStmtWith (readers : Readers) : TokenReader (List Stmt) := do
  match ← take with
  | some (.name "if") => do
      let tokens ← get
      let stmt ← readCond readers (tokens.length + 1)
      pure [stmt]
  | some (.name "for") => do
      let stmt ← readLoop readers
      pure [stmt]
  | some (.name "set") => readAssignment readers
  | some (.name "include") => do
      let stmt ← readEmbed readers
      pure [stmt]
  | _ => fail

------------------------------------------------------------
-- Templates
------------------------------------------------------------

/- The readers of expressions at a depth. -/
def readersAt
    (depth : Nat)
    (stmt : TokenReader (List Stmt)) : Readers where
  whole := readExpr depth
  operand := readOperand (readExpr depth) (readPrimary depth)
  stmt := stmt

/- Read a statement in which others are nested up to a depth. -/
def readStmt : Nat → TokenReader (List Stmt)
| 0 => fail
| depth + 1 => readStmtWith (readersAt depth (readStmt depth))

/- Read all statements of a template. -/
def readTemplate : TokenReader (List Stmt) :=
  readBody (readersAt maxNesting (readStmt maxNesting)) []

/- The statements of a template. -/
def Stmt.ofTemplate (text : String) : Except TemplateError (List Stmt) := do
  let (stmts, _) ← readTemplate.run (Token.ofTemplate text)
  pure stmts

end Bindery.Template
