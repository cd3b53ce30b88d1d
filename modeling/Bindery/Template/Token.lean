import Bindery.Template.TemplateError

/-
  This file defines the tokens of a template: stretches of
  plain text, the marks around tags, and what stands in tags.

  Key definitions include:
    * `Symbol`
    * `Token`
-/

namespace Bindery.Template

/- An operator or a bracket. -/
inductive Symbol where
| plus
| minus
| star
| slash
| doubleSlash
| doubleStar
| percent
| dot
| comma
| colon
| tilde
| pipe
| assign
| equal
| different
| less
| lessOrEqual
| greater
| greaterOrEqual
| openParen
| closeParen
| openBracket
| closeBracket
| openBrace
| closeBrace
deriving DecidableEq, Repr

/-
  A token of a template.  What cannot be read is a token too:
  it is an error only when a reader comes to it.
-/
inductive Token where
| text : String → Token
| beginOutput
| endOutput
| beginBlock
| endBlock
| name : String → Token
| string : String → Token
| int : Nat → Token
| float : Float → Token
| symbol : Symbol → Token
| unreadable : TemplateError → Token
deriving Repr, Inhabited

end Bindery.Template
