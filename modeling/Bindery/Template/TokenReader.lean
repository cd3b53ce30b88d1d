import Bindery.Template.Token

/-
  This file defines readers of tokens: computations that take
  tokens from the front of a list, or fail.

  Key definitions include:
    * `TokenReader`
    * `TokenReader.peek`
    * `TokenReader.take`
    * `TokenReader.skipSymbol`
    * `TokenReader.skipName`
    * `TokenReader.repeatWhile`
    * `TokenReader.readItems`
-/

namespace Bindery.Template

/- A computation that takes tokens from the front of a list. -/
abbrev TokenReader :=
  StateT (List Token) (Except TemplateError)

namespace TokenReader

variable {α : Type}

/- Fail because the tokens do not follow the grammar. -/
def fail : TokenReader α :=
  throw .grammar

------------------------------------------------------------
-- Single Tokens
------------------------------------------------------------

/- Look at the next token; there is none at the end. -/
def peek : TokenReader (Option Token) := fun tokens =>
  match tokens with
  | [] => .ok (none, tokens)
  | .unreadable e :: _ => .error e
  | token :: _ => .ok (some token, tokens)

/- Take the next token. -/
def take : TokenReader (Option Token) := do
  let token ← peek
  modify List.tail
  pure token

/- Whether the next token satisfies a condition. -/
def looksAt (condition : Token → Bool) : TokenReader Bool := do
  let token ← peek
  pure (token.any condition)

/- Take the next token if it satisfies a condition. -/
def skip (condition : Token → Bool) : TokenReader Bool := do
  if ← looksAt condition then
    modify List.tail
    pure true
  else
    pure false

/- Take a token that has to satisfy a condition. -/
def expect (condition : Token → Bool) : TokenReader Unit := do
  if ← skip condition then pure () else fail

/- Whether a token is a symbol. -/
def isSymbol (s : Symbol) : Token → Bool
| .symbol t => s = t
| _ => false

/- Whether a token is one of some names. -/
def isName (words : List String) : Token → Bool
| .name word => words.contains word
| _ => false

/- Whether a token ends a block. -/
def isEndBlock : Token → Bool
| .endBlock => true
| _ => false

/- Whether a token ends an output tag. -/
def isEndOutput : Token → Bool
| .endOutput => true
| _ => false

/- Take the next token if it is a symbol. -/
def skipSymbol (s : Symbol) : TokenReader Bool :=
  skip (isSymbol s)

/- Take a symbol that has to be there. -/
def expectSymbol (s : Symbol) : TokenReader Unit :=
  expect (isSymbol s)

/- Take the next token if it is one of some names. -/
def skipName (words : List String) : TokenReader Bool :=
  skip (isName words)

/- Take a name that has to be there. -/
def expectName (word : String) : TokenReader Unit :=
  expect (isName [word])

/- Take a name, whatever it is. -/
def readName : TokenReader String := do
  match ← take with
  | some (.name word) => pure word
  | _ => fail

------------------------------------------------------------
-- Repetition
------------------------------------------------------------

/- Repeat a step at most a number of times. -/
def repeatUpTo
    (step : α → TokenReader (Option α)) : Nat → α → TokenReader α
| 0, _ => fail
| fuel + 1, a => do
    match ← step a with
    | some next => repeatUpTo step fuel next
    | none => pure a

/-
  Repeat a step until it declines to go on.  A step that goes
  on takes a token, so there are no more steps than tokens.
-/
def repeatWhile
    (step : α → TokenReader (Option α))
    (a : α) : TokenReader α := do
  let tokens ← get
  repeatUpTo step (tokens.length + 1) a

/-
  Read items with commas between them up to a closing symbol,
  after the items that were read before.  A comma may stand
  before the closing symbol.
-/
def readItems
    (close : Symbol)
    (item : List α → TokenReader α)
    (before : List α) : TokenReader (List α) :=
  repeatWhile
    (fun items => do
      if ← skipSymbol close then pure none
      else if items.isEmpty then
        let next ← item items
        pure (some (items ++ [next]))
      else
        expectSymbol .comma
        if ← skipSymbol close then pure none
        else
          let next ← item items
          pure (some (items ++ [next])))
    before

end TokenReader

end Bindery.Template
