import JourneyTimes.Text.WholeNumber
import JourneyTimes.Yaml.Gap

/-!
# Scalars in quotes

Between single quotes a quote is written twice, and everything else stands
for itself.  Between double quotes a backslash begins an escape: a letter for
a control character, a code point in hexadecimal, or a break of a line that
does not count.
-/

namespace JourneyTimes.Yaml

/-- The letters behind a backslash that stand for one character. -/
def escapes : List (Char × Char) :=
  [('0', '\x00'), ('a', '\x07'), ('b', '\x08'), ('t', '\t'), ('\t', '\t'),
    ('n', '\n'), ('v', '\x0b'), ('f', '\x0c'), ('r', '\r'), ('e', '\x1b'),
    (' ', ' '), ('"', '"'), ('\'', '\''), ('\\', '\\'), ('N', '\u0085'),
    ('_', '\u00a0'), ('L', '\u2028'), ('P', '\u2029')]

/-- The letters behind a backslash that begin a code point, with the number of
its digits. -/
def codePointLengths : List (Char × Nat) := [('x', 2), ('u', 4), ('U', 8)]

/-- The last code point. -/
def lastCodePoint : Nat := 0x10ffff

/-- The character with a code point of so many hexadecimal digits. -/
def readCodePoint (length : Nat) (cursor : Cursor) :
    Option (Char × Cursor) :=
  let digits := cursor.rest.take length
  match WholeNumber.readDigits 16 lastCodePoint 0 digits with
  | .ok code =>
    if digits.length = length ∧ code.isValidChar then
      some (Char.ofNat code, cursor.advance length)
    else none
  | .error _ => none

/-- The character of an escape, from its backslash on. -/
def readEscape (cursor : Cursor) : Option (Char × Cursor) :=
  let letter := cursor.peek 1
  let behind := cursor.advance 2
  match escapes.lookup letter with
  | some character => some (character, behind)
  | none =>
    match codePointLengths.lookup letter with
    | some length => readCodePoint length behind
    | none => none

/-- A word in quotes. -/
structure QuotedWord where
  /-- The text up to the end of the word, the latest character first. -/
  read : List Char
  /-- Whether an escaped break of a line ends the word. -/
  isEscaped : Bool
  cursor : Cursor

/-- Read a word up to a blank, to the quote at the end of the scalar, or
behind a break of a line that is escaped; `fuel` bounds the number of
characters. -/
def readQuotedWord (quote : Char) :
    Nat → List Char → Cursor → Option QuotedWord
  | 0, _, _ => none
  | fuel + 1, read, cursor =>
    let character := cursor.current
    if isWordEnd character then some ⟨read, false, cursor⟩
    else if character = quote then
      if quote = '\'' ∧ cursor.peek 1 = quote then
        readQuotedWord quote fuel (quote :: read) (cursor.advance 2)
      else some ⟨read, false, cursor⟩
    else if character = '\\' ∧ quote = '"' then
      if isBreak (cursor.peek 1) then
        some ⟨read, true, (cursor.advance 1).skipBreak⟩
      else
        match readEscape cursor with
        | some (character, cursor) =>
          readQuotedWord quote fuel (character :: read) cursor
        | none => none
    else readQuotedWord quote fuel (character :: read) (cursor.advance 1)

/-- Read words up to the quote at the end of the scalar.  A line that begins
or ends a document must not stand inside. -/
def readQuotedWords (quote : Char) :
    Nat → List Char → Cursor → Option (String × Cursor)
  | 0, _, _ => none
  | fuel + 1, read, cursor =>
    if cursor.isAtDocumentMark ∨ cursor.isOver then none
    else do
      let word ← readQuotedWord quote (cursor.rest.length + 1) read cursor
      if word.cursor.current = quote then
        pure (String.ofList word.read.reverse, word.cursor.advance 1)
      else
        let (gap, cursor) ← Gap.read word.isEscaped 0 word.cursor
        let text := if word.isEscaped then gap.textBehindEscape else gap.text
        readQuotedWords quote fuel (text.reverse ++ word.read) cursor

/-- Read a scalar in quotes, from the quote at its beginning on. -/
def readQuoted (cursor : Cursor) : Option (String × Cursor) :=
  readQuotedWords cursor.current (cursor.rest.length + 1) []
    (cursor.advance 1)

end JourneyTimes.Yaml
