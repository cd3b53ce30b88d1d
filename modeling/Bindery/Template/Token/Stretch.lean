import Bindery.Template.Token.Word
import Bindery.Text.Blank

/-
  This file defines how a template is cut into tokens.

  Plain text goes on until a tag, a block or a comment begins.
  A tag ends at its end mark outside of all brackets.  A minus
  sign at the inner side of a mark removes the blanks beyond
  the mark.  What stands between `raw` and `endraw`
  blocks is plain text.

  Key definitions include:
    * `Mark`
    * `beforeMark`
    * `scan`
    * `Token.ofTemplate`
-/

namespace Bindery.Template

------------------------------------------------------------
-- Marks
------------------------------------------------------------

/- What the mark at the end of a piece of plain text begins. -/
inductive Mark where
| output
| block
| comment
deriving DecidableEq, Repr

/- The mark that a text starts with. -/
def mark? : List Char → Option Mark
| '{' :: '{' :: _ => some .output
| '{' :: '%' :: _ => some .block
| '{' :: '#' :: _ => some .comment
| _ => none

/- What stands before the first mark, and the text from there on. -/
def beforeMark : List Char → List Char × List Char
| [] => ([], [])
| c :: rest =>
    if (mark? (c :: rest)).isSome then ([], c :: rest)
    else
      let later := beforeMark rest
      (c :: later.1, later.2)

/-
  Whether a text starts with a minus sign, and the text without
  a sign at its start.
-/
def takeSign : List Char → Bool × List Char
| '-' :: rest => (true, rest)
| '+' :: rest => (false, rest)
| text => (false, text)

/- A text, without the blanks at its start if that is asked for. -/
def trimStartIf
    (asked : Bool)
    (text : List Char) : List Char :=
  if asked then Text.trimStart text else text

/- A text, without the blanks at its end if that is asked for. -/
def trimEndIf
    (asked : Bool)
    (text : List Char) : List Char :=
  if asked then Text.trimEnd text else text

------------------------------------------------------------
-- Comments and Raw Blocks
------------------------------------------------------------

/- The text of a comment, and what follows the comment. -/
def commentEnd? : List Char → Option (List Char × List Char)
| [] => none
| '#' :: '}' :: rest => some ([], rest)
| c :: rest =>
    (commentEnd? rest).map (fun (s, r) => (c :: s, r))

/-
  Read the rest of a block that holds one word only: whether
  blanks after the block are removed, and what follows it.
-/
def bareBlock?
    (word : String)
    (text : List Char) : Option (Bool × List Char) :=
  let text := text.dropWhile Text.isAsciiBlank
  if word.toList.isPrefixOf text then
    let after :=
      (text.drop word.toList.length).dropWhile Text.isAsciiBlank
    let (trim, after) := takeSign after
    match after with
    | '%' :: '}' :: rest => some (trim, rest)
    | _ => none
  else
    none

/- The content of a raw block and what follows it. -/
structure RawBlock where
  content : List Char
  trimContent : Bool
  trimRest : Bool
  rest : List Char

/- Find the end of a raw block. -/
def rawEnd? : List Char → Option RawBlock
| [] => none
| c :: rest =>
    let later := fun _ : Unit =>
      (rawEnd? rest).map (fun b => { b with content := c :: b.content })
    match c, rest with
    | '{', '%' :: inner =>
        let (trim, body) := takeSign inner
        match bareBlock? "endraw" body with
        | some (trimRest, after) => some ⟨[], trim, trimRest, after⟩
        | none => later ()
    | _, _ => later ()

------------------------------------------------------------
-- Tokens
------------------------------------------------------------

/- Where the reader of a template is. -/
inductive Place where
| outside
| inOutput
| inBlock
deriving DecidableEq, Repr

/- The token that ends what a place is in. -/
def Place.endToken : Place → Token
| .inBlock => .endBlock
| _ => .endOutput

/- Whether a text starts with the end mark of a place. -/
def Place.endsAt : Place → List Char → Bool
| .inOutput, '}' :: '}' :: _ => true
| .inBlock, '%' :: '}' :: _ => true
| _, _ => false

/-
  The end mark at the start of a text: whether blanks after it
  are removed, and what follows it.
-/
def Place.end?
    (place : Place)
    (text : List Char) : Option (Bool × List Char) :=
  let signed := takeSign text
  if place.endsAt text then some (false, text.drop 2)
  else if place.endsAt signed.2 then some (signed.1, signed.2.drop 2)
  else none

/- By how much a token changes the number of open brackets. -/
def Token.opening : Token → Int
| .symbol .openParen => 1
| .symbol .openBracket => 1
| .symbol .openBrace => 1
| .symbol .closeParen => -1
| .symbol .closeBracket => -1
| .symbol .closeBrace => -1
| _ => 0

/- A piece of plain text as tokens; no token for no text. -/
def textTokens (text : List Char) : List Token :=
  if text.isEmpty then [] else [.text (String.ofList text)]

/-
  The tokens of a text, read with a number of open brackets.
  Every step passes a character, so a step more than there are
  characters is enough.
-/
def scan : Nat → Place → Int → List Char → List Token
| 0, _, _, _ => []
| fuel + 1, .outside, _, text =>
    let (before, rest) := beforeMark text
    match mark? rest with
    | none => textTokens before
    | some mark =>
        let (trim, body) := takeSign (rest.drop 2)
        textTokens (trimEndIf trim before) ++
          match mark with
          | .output => .beginOutput :: scan fuel .inOutput 0 body
          | .comment =>
              match commentEnd? body with
              | none => [.unreadable .grammar]
              | some (comment, after) =>
                  scan fuel .outside 0
                    (trimStartIf (comment.getLast? = some '-') after)
          | .block =>
              match bareBlock? "raw" body with
              | none => .beginBlock :: scan fuel .inBlock 0 body
              | some (trimStart, inner) =>
                  match rawEnd? inner with
                  | none => [.unreadable .grammar]
                  | some raw =>
                      textTokens
                          (trimEndIf raw.trimContent
                            (trimStartIf trimStart raw.content)) ++
                        scan fuel .outside 0
                          (trimStartIf raw.trimRest raw.rest)
| fuel + 1, place, depth, text =>
    let text := text.dropWhile Text.isAsciiBlank
    match if depth = 0 then place.end? text else none with
    | some (trim, after) =>
        place.endToken :: scan fuel .outside 0 (trimStartIf trim after)
    | none =>
        if text.isEmpty then []
        else
          match readWord text with
          | .ok (token, after) =>
              token :: scan fuel place (depth + token.opening) after
          | .error e => [.unreadable e]

/- The tokens of a template. -/
def Token.ofTemplate (text : String) : List Token :=
  scan (text.toList.length + 1) .outside 0 text.toList

end Bindery.Template
