import Bindery.Template.Constant
import Bindery.Template.TokenReader

/-
  This file defines how expressions are read.

  From the loosest to the tightest binding: `if`, `or`, `and`,
  `not`, comparisons, sums, `~`, products, filters and tests,
  attributes and items, minus signs, powers.

  Expressions within brackets are read by the reader of whole
  expressions; the number that readers take says how deep
  expressions may still be nested.

  Key definitions include:
    * `readArgs`
    * `readPostfix`
    * `readFilters`
    * `readOperand`
    * `readExpr`
-/

namespace Bindery.Template

open TokenReader

------------------------------------------------------------
-- Arguments
------------------------------------------------------------

/- Arguments of a call, the named ones last. -/
structure Args where
  positional : List Expr
  named : List (String × Expr)

/- All arguments in order. -/
def Args.exprs (args : Args) : List Expr :=
  args.positional ++ args.named.map Prod.snd

/- The names of the last arguments. -/
def Args.keywords (args : Args) : List String :=
  args.named.map Prod.fst

/- An argument, with its name if it has one. -/
abbrev Arg :=
  Option String × Expr

/-
  Read an argument after the ones before it.  A name before an
  equals sign names the argument; after a named argument all
  others are named.
-/
def readArg
    (whole operand : TokenReader Expr)
    (before : List Arg) : TokenReader Arg := do
  let expr ← whole
  let named ←
    match expr with
    | .name _ => skipSymbol .assign
    | _ => pure false
  match named, expr with
  | true, .name word =>
      let value ← operand
      pure (some word, value)
  | _, _ =>
      if before.any (fun arg => arg.1.isSome) then fail
      else pure (none, expr)

/- Arguments sorted by whether they are named. -/
def Args.ofList (args : List Arg) : Args where
  positional :=
    (args.filter (fun arg => arg.1.isNone)).map Prod.snd
  named :=
    args.filterMap (fun arg => arg.1.map (fun word => (word, arg.2)))

/- Read arguments in parentheses. -/
def readArgs (whole operand : TokenReader Expr) : TokenReader Args := do
  expectSymbol .openParen
  let args ← readItems .closeParen (readArg whole operand) []
  pure (Args.ofList args)

/- Read arguments in parentheses if there are any. -/
def readOptionalArgs
    (whole operand : TokenReader Expr) : TokenReader Args := do
  if ← looksAt (isSymbol .openParen) then readArgs whole operand
  else pure ⟨[], []⟩

------------------------------------------------------------
-- Attributes, Items and Calls
------------------------------------------------------------

/- Read a bound of a slice unless one of some symbols follows. -/
def readBound
    (whole : TokenReader Expr)
    (stops : List Symbol) : TokenReader (Option Expr) := do
  if ← looksAt (fun t => stops.any (isSymbol · t)) then pure none
  else
    let expr ← whole
    pure (some expr)

/- A bound of a slice, which may be missing. -/
def boundOf (bound : Option Expr) : Expr :=
  bound.getD (.const .none)

/- Read a key or a slice in brackets after the opening bracket. -/
def readSubscript
    (whole : TokenReader Expr)
    (subject : Expr) : TokenReader Expr := do
  let start ← readBound whole [.colon]
  if ← skipSymbol .colon then
    let stop ← readBound whole [.closeBracket, .colon]
    let step ←
      (do
        if ← skipSymbol .colon then readBound whole [.closeBracket]
        else pure none)
    expectSymbol .closeBracket
    pure (.slice subject (boundOf start) (boundOf stop) (boundOf step))
  else
    expectSymbol .closeBracket
    match start with
    | some key => pure (.item subject key)
    | none => fail

/- Read the attributes, items and calls after an expression. -/
def readPostfix
    (whole operand : TokenReader Expr) : Expr → TokenReader Expr :=
  repeatWhile fun subject => do
    if ← skipSymbol .dot then
      let word ← readName
      pure (some (.attribute subject word))
    else if ← skipSymbol .openBracket then
      let expr ← readSubscript whole subject
      pure (some expr)
    else if ← looksAt (isSymbol .openParen) then
      let args ← readArgs whole operand
      pure (some (.call subject args.exprs args.keywords))
    else
      pure none

------------------------------------------------------------
-- Filters and Tests
------------------------------------------------------------

/- Whether a token may begin the bare argument of a test. -/
def startsBareArgument : Token → Bool
| .name word => !(["and", "or", "else", "is"].contains word)
| .string _ => true
| .int _ => true
| .float _ => true
| .symbol s =>
    [Symbol.plus, .minus, .openBracket, .openBrace].contains s
| _ => false

/-
  Read the arguments of a test: in parentheses, or one bare
  argument without filters.
-/
def readTestArgs
    (whole operand bare : TokenReader Expr) : TokenReader Args := do
  if ← looksAt (isSymbol .openParen) then readArgs whole operand
  else if ← looksAt startsBareArgument then
    let first ← bare
    let arg ← readPostfix whole operand first
    pure ⟨[arg], []⟩
  else
    pure ⟨[], []⟩

/- Read the filters and tests after an expression. -/
def readFilters
    (whole operand bare : TokenReader Expr) :
    Expr → TokenReader Expr :=
  repeatWhile fun subject => do
    if ← skipSymbol .pipe then
      let word ← readName
      let args ← readOptionalArgs whole operand
      pure (some (.filter word subject args.exprs args.keywords))
    else if ← skipName ["is"] then
      let negated ← skipName ["not"]
      let word ← readName
      let args ← readTestArgs whole operand bare
      let test := Expr.test word subject args.exprs args.keywords
      pure (some (if negated then .unary .not test else test))
    else
      pure none

------------------------------------------------------------
-- Operators
------------------------------------------------------------

/- How an operator combines its operands. -/
abbrev Combination :=
  Expr → Expr → Expr

/-
  Read operands with operators of one strength between them;
  the operators on the left are applied first.
-/
def readChain
    (operator? : TokenReader (Option Combination))
    (operand : TokenReader Expr) : TokenReader Expr := do
  let first ← operand
  repeatWhile
    (fun left => do
      match ← operator? with
      | some combine => do
          let right ← operand
          pure (some (combine left right))
      | none => pure none)
    first

/- Take the operator that the next token stands for. -/
def takeOperator
    (meaning : Token → Option Combination) :
    TokenReader (Option Combination) := do
  match (← peek).bind meaning with
  | some combine =>
      modify List.tail
      pure (some combine)
  | none => pure none

/- Binary operators by their symbols. -/
def symbolMeaning
    (operators : List (Symbol × BinaryOperator)) :
    Token → Option Combination
| .symbol s => (operators.lookup s).map Expr.binary
| _ => none

/- Read operands with symbols of one strength between them. -/
def readSymbolChain
    (operators : List (Symbol × BinaryOperator))
    (operand : TokenReader Expr) : TokenReader Expr :=
  readChain (takeOperator (symbolMeaning operators)) operand

/- Read operands with a word between them. -/
def readWordChain
    (word : String)
    (combine : Combination)
    (operand : TokenReader Expr) : TokenReader Expr :=
  readChain
    (takeOperator
      (fun t => if isName [word] t then some combine else none))
    operand

/- Read an operand with words or symbols before it. -/
def readMarked
    (skipMark : TokenReader Bool)
    (operator : UnaryOperator)
    (operand : TokenReader Expr) : Nat → TokenReader Expr
| 0 => fail
| fuel + 1 => do
    if ← skipMark then
      let expr ← readMarked skipMark operator operand fuel
      pure (.unary operator expr)
    else
      operand

/- Read an operand with any number of marks before it. -/
def readUnary
    (skipMark : TokenReader Bool)
    (operator : UnaryOperator)
    (operand : TokenReader Expr) : TokenReader Expr := do
  let tokens ← get
  readMarked skipMark operator operand (tokens.length + 1)

/- The symbols of comparisons. -/
def comparisons : List (Symbol × BinaryOperator) :=
  [(.equal, .equal), (.different, .different), (.less, .less),
    (.lessOrEqual, .lessOrEqual), (.greater, .greater),
    (.greaterOrEqual, .greaterOrEqual)]

/- Whether a value is not part of another. -/
def notIn : Combination :=
  fun left right => .unary .not (.binary .isIn left right)

/- Take a comparison: a symbol, `in` or `not in`. -/
def takeComparison : TokenReader (Option Combination) := do
  if ← skipName ["not"] then
    expectName "in"
    pure (some notIn)
  else if ← skipName ["in"] then
    pure (some (.binary .isIn))
  else
    takeOperator (symbolMeaning comparisons)

------------------------------------------------------------
-- Levels
------------------------------------------------------------

/- Read powers with minus signs before them. -/
def readNegation (primary : TokenReader Expr) : TokenReader Expr :=
  readUnary (skipSymbol .minus) .negate
    (readSymbolChain [(.doubleStar, .power)] primary)

/- Read a factor with all that stands after it. -/
def readFactor
    (whole operand primary : TokenReader Expr) : TokenReader Expr := do
  let bare := readNegation primary
  let first ← bare
  let subject ← readPostfix whole operand first
  readFilters whole operand bare subject

/- Read sums of concatenations of products. -/
def readSum (factor : TokenReader Expr) : TokenReader Expr :=
  readSymbolChain [(.plus, .add), (.minus, .subtract)]
    (readSymbolChain [(.tilde, .concatenate)]
      (readSymbolChain
        [(.star, .multiply), (.slash, .divide),
          (.doubleSlash, .floorDivide), (.percent, .remainder)]
        factor))

/- Read alternatives of conjunctions of comparisons. -/
def readOr (factor : TokenReader Expr) : TokenReader Expr :=
  readWordChain "or" .or
    (readWordChain "and" Expr.conjunction
      (readUnary (skipName ["not"]) .not
        (readChain takeComparison (readSum factor))))

/- Read a choice between operands. -/
def readChoice (operand : TokenReader Expr) : Nat → TokenReader Expr
| 0 => fail
| fuel + 1 => do
    let first ← operand
    repeatWhile
      (fun yes => do
        if ← skipName ["if"] then
          let test ← operand
          if ← skipName ["else"] then
            let no ← readChoice operand fuel
            pure (some (.cond test yes no))
          else
            pure (some (.cond test yes (.const .undefined)))
        else
          pure none)
      first

/-
  Read an expression without `if` on the outside.  Keyword
  arguments are such expressions too; how many tokens are left
  bounds how often one stands in another.
-/
def readOperandWith
    (whole primary : TokenReader Expr) : Nat → TokenReader Expr
| 0 => fail
| fuel + 1 =>
    readOr (readFactor whole (readOperandWith whole primary fuel) primary)

/- Read an expression without `if` on the outside. -/
def readOperand (whole primary : TokenReader Expr) : TokenReader Expr := do
  let tokens ← get
  readOperandWith whole primary (tokens.length + 1)

------------------------------------------------------------
-- Primary Expressions
------------------------------------------------------------

/- Read what follows an opening parenthesis. -/
def readGroup (whole : TokenReader Expr) : TokenReader Expr := do
  if ← skipSymbol .closeParen then pure (.list [])
  else
    let first ← whole
    if ← looksAt (isSymbol .comma) then
      let items ← readItems .closeParen (fun _ => whole) [first]
      pure (.list items)
    else
      expectSymbol .closeParen
      pure first

/- Read an entry of a map. -/
def readEntry (whole : TokenReader Expr) : TokenReader (Expr × Expr) := do
  let key ← whole
  expectSymbol .colon
  let value ← whole
  pure (key, value)

/- The expression that a name stands for. -/
def wordExpr (word : String) : Expr :=
  if word = "true" || word = "True" then .const (.bool true)
  else if word = "false" || word = "False" then .const (.bool false)
  else if word = "none" || word = "None" then .const .none
  else .name word

/- Read an expression that is not made of operators. -/
def readPrimaryWith (whole : TokenReader Expr) : TokenReader Expr := do
  match ← take with
  | some (.name word) => pure (wordExpr word)
  | some (.string s) => pure (.const (.plain s))
  | some (.int n) => pure (.const (.int n))
  | some (.float x) => pure (.const (.float x))
  | some (.symbol .openParen) => readGroup whole
  | some (.symbol .openBracket) => do
      let items ← readItems .closeBracket (fun _ => whole) []
      pure (.list items)
  | some (.symbol .openBrace) => do
      let entries ← readItems .closeBrace (fun _ => readEntry whole) []
      pure (.map entries)
  | _ => fail

mutual

/- Read an expression. -/
def readExpr : Nat → TokenReader Expr
| 0 => fail
| depth + 1 => do
    let tokens ← get
    readChoice (readOperand (readExpr depth) (readPrimary depth))
      (tokens.length + 1)

/- Read an expression that is not made of operators. -/
def readPrimary : Nat → TokenReader Expr
| 0 => fail
| depth + 1 => readPrimaryWith (readExpr depth)

end

/- How deep expressions and statements may be nested. -/
def maxNesting : Nat :=
  150

end Bindery.Template
