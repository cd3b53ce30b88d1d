import Bindery.Toml.Quoted

/-
  This file defines how TOML documents are read.

  Key definitions include:
    * `TextReader`
    * `readKey`
    * `readValue`
    * `Toml.parse?`
-/

namespace Bindery.Toml

/- A computation that takes characters from the front of a text. -/
abbrev TextReader :=
  StateT (List Char) Option

namespace TextReader

variable {α : Type}

/- Skip the characters that satisfy a condition. -/
def skipWhile (condition : Char → Bool) : TextReader Unit :=
  modify (List.dropWhile condition)

/- Skip blanks within a line. -/
def skipBlanks : TextReader Unit :=
  skipWhile (fun c => c = ' ' || c = '\t')

/- Take a character if it comes next. -/
def skip (c : Char) : TextReader Bool := do
  let rest ← get
  if rest.head? = some c then
    set rest.tail
    pure true
  else
    pure false

/- Take a character that has to come next. -/
def expect (c : Char) : TextReader Unit := do
  if ← skip c then pure () else failure

/- Repeat a step at most a number of times. -/
def repeatUpTo
    (step : α → TextReader (Option α)) : Nat → α → TextReader α
| 0, _ => failure
| fuel + 1, a => do
    match ← step a with
    | some next => repeatUpTo step fuel next
    | none => pure a

/-
  Repeat a step until it declines to go on.  A step that goes
  on takes a character, so there are no more steps than
  characters.
-/
def repeatWhile
    (step : α → TextReader (Option α))
    (a : α) : TextReader α := do
  let rest ← get
  repeatUpTo step (rest.length + 1) a

/- Take the characters that satisfy a condition. -/
def takeWhile (condition : Char → Bool) : TextReader (List Char) := do
  let rest ← get
  set (rest.dropWhile condition)
  pure (rest.takeWhile condition)

end TextReader

open TextReader

------------------------------------------------------------
-- Lines
------------------------------------------------------------

/- Take a line break if one comes next. -/
def skipLineBreak : TextReader Bool := do
  match ← get with
  | '\n' :: rest => do
      set rest
      pure true
  | '\r' :: '\n' :: rest => do
      set rest
      pure true
  | _ => pure false

/- Take a comment up to the end of its line if one comes next. -/
def skipComment : TextReader Unit := do
  if ← skip '#' then
    let comment ← TextReader.takeWhile (fun c => c != '\n' && c != '\r')
    if comment.any isControl then failure else pure ()
  else
    pure ()

/- Take the rest of a line, which holds no more than a comment. -/
def readLineEnd : TextReader Unit := do
  skipBlanks
  skipComment
  let rest ← get
  if rest.isEmpty then pure ()
  else if ← skipLineBreak then pure ()
  else failure

/- Skip blanks, comments and line breaks. -/
def skipGaps : TextReader Unit :=
  repeatWhile
    (fun _ => do
      skipBlanks
      skipComment
      if ← skipLineBreak then pure (some ()) else pure none)
    ()

------------------------------------------------------------
-- Keys
------------------------------------------------------------

/- Whether a character may stand in a key without quotes. -/
def isBareKeyChar (c : Char) : Bool :=
  c.isAlphanum || c = '_' || c = '-'

/- Read a text in quotes on one line. -/
def readQuotedKey (inner : QuotedText) : TextReader String := do
  match inner with
  | some (key, rest) => do
      set rest
      pure (String.ofList key)
  | none => failure

/- Read a key without dots. -/
def readSimpleKey : TextReader String := do
  match ← get with
  | '"' :: rest => readQuotedKey (basicText rest)
  | '\'' :: rest => readQuotedKey (literalText rest)
  | _ => do
      let key ← TextReader.takeWhile isBareKeyChar
      if key.isEmpty then failure else pure (String.ofList key)

/- Read a key with dots: its parts but the last, and the last. -/
def readKey : TextReader (List String × String) := do
  skipBlanks
  let first ← readSimpleKey
  skipBlanks
  repeatWhile
    (fun (path, key) => do
      if ← skip '.' then
        skipBlanks
        let next ← readSimpleKey
        skipBlanks
        pure (some (path ++ [key], next))
      else
        pure none)
    ([], first)

------------------------------------------------------------
-- Values
------------------------------------------------------------

/- Whether a character may stand in a scalar. -/
def isScalarChar (c : Char) : Bool :=
  c.isAlphanum || ['+', '-', '_', '.', ':'].contains c

/-
  Take the characters of a scalar.  A blank may stand between a
  date and a time.
-/
def readScalarChars : TextReader (List Char) := do
  let first ← TextReader.takeWhile isScalarChar
  match ← get with
  | ' ' :: c :: rest =>
      if isDate first && c.isDigit then do
        set (c :: rest)
        let second ← TextReader.takeWhile isScalarChar
        pure (first ++ ' ' :: second)
      else
        pure first
  | _ => pure first

/- Read a scalar. -/
def readScalar : TextReader Toml := do
  let chars ← readScalarChars
  match scalar? chars with
  | some value => pure value
  | none => failure

/- Read the elements of an array up to its end. -/
def readElements (value : TextReader Toml) : TextReader (List Toml) := do
  let (items, _) ← repeatWhile
    (fun (items, more) => do
      if !more then pure none
      else
        skipGaps
        if ← skip ']' then pure (some (items, false))
        else
          let item ← value
          skipGaps
          if ← skip ',' then pure (some (items ++ [item], true))
          else
            expect ']'
            pure (some (items ++ [item], false)))
    (([], true) : List Toml × Bool)
  pure items

/- Read a pair into a table. -/
def readPair
    (value : TextReader Toml)
    (change : List String → String → Toml → Option Toml) :
    TextReader Toml := do
  let (path, key) ← readKey
  expect '='
  skipBlanks
  let v ← value
  match change path key v with
  | some longer => pure longer
  | none => failure

/- Read the pairs of an inline table up to its end. -/
def readInlinePairs (value : TextReader Toml) : TextReader Toml := do
  let (pairs, _) ← repeatWhile
    (fun (pairs, more) => do
      if !more then pure none
      else
        skipGaps
        if ← skip '}' then pure (some (pairs, false))
        else
          let longer ← readPair value
            (fun path key v => changeTable (insertPair path key v) pairs)
          skipGaps
          if ← skip ',' then pure (some (longer, true))
          else
            expect '}'
            pure (some (longer, false)))
    ((empty, true) : Toml × Bool)
  pure pairs

/- A table as an inline one. -/
def asInline : Toml → Toml
| .table _ entries => .table .inline entries
| value => value

/- Read a value in which others are nested up to some depth. -/
def readValue : Nat → TextReader Toml
| 0 => do
    match ← get with
    | '[' :: _ => failure
    | '{' :: _ => failure
    | _ => readScalarOrText
| depth + 1 => do
    match ← get with
    | '[' :: rest => do
        set rest
        let items ← readElements (readValue depth)
        pure (.array items false)
    | '{' :: rest => do
        set rest
        let pairs ← readInlinePairs (readValue depth)
        pure (asInline pairs)
    | _ => readScalarOrText
where
  readScalarOrText : TextReader Toml := do
    let rest ← get
    if rest.head? = some '"' || rest.head? = some '\'' then
      match quoted? rest with
      | some (s, rest) => do
          set rest
          pure (.text (String.ofList s))
      | none => failure
    else
      readScalar

/- How deep values may be nested. -/
def maxDepth : Nat :=
  80

------------------------------------------------------------
-- Documents
------------------------------------------------------------

/-
  A document so far, and the path of the table that pairs are
  inserted into.
-/
structure Draft where
  root : Toml
  path : List String

/- Read a header after its first bracket. -/
def readHeader (draft : Draft) : TextReader Draft := do
  let element ← skip '['
  let (path, key) ← readKey
  expect ']'
  if element then expect ']' else pure ()
  let change := if element then openElement key else openTable key
  match changeTable (changeAt false change path) draft.root with
  | some root => pure ⟨root, path ++ [key]⟩
  | none => failure

/- Read a pair into the table of the last header. -/
def readTopPair (draft : Draft) : TextReader Draft := do
  let root ← readPair (readValue maxDepth)
    (fun path key v =>
      changeTable
        (changeAt false (insertPair path key v) draft.path) draft.root)
  pure ⟨root, draft.path⟩

/- Read the next header or pair of a document. -/
def readLine (draft : Draft) : TextReader (Option Draft) := do
  skipGaps
  let rest ← get
  if rest.isEmpty then pure none
  else
    let next ←
      (do
        if ← skip '[' then readHeader draft else readTopPair draft)
    readLineEnd
    pure (some next)

/- Read a document, which a byte order mark may precede. -/
def parse? (text : String) : Option Toml := do
  let chars :=
    match text.toList with
    | '\ufeff' :: rest => rest
    | other => other
  let (draft, _) ← (repeatWhile readLine ⟨empty, []⟩).run chars
  some draft.root

end Bindery.Toml
