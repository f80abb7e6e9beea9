-- Blanks, line ends, strings and keys of TOML. A reader gives what it read and the rest, or
-- nothing where the text is no TOML.
import Thrift.Json.Quoted

namespace Thrift.Toml

/-! ## Between values -/

def isBlank (c : Char) : Bool := c = ' ' || c = '\t'

def skipBlank (cs : List Char) : List Char := cs.dropWhile isBlank

/-- A character that may stand neither in a comment nor in a string. -/
def isControl (c : Char) : Bool := (c.toNat < 0x20 && c != '\t') || c.toNat = 0x7F

/-- Goes to the next character that is part of no blank, line end or comment. -/
def skipLines (inComment : Bool) : List Char → Option (List Char)
  | [] => some []
  | c :: cs =>
    if c = '\n' then skipLines false cs
    else if c = '\r' then if cs.head? = some '\n' then skipLines false cs else none
    else if inComment then if isControl c then none else skipLines true cs
    else if isBlank c then skipLines false cs
    else if c = '#' then skipLines true cs
    else some (c :: cs)

/-- Goes to the next line that has something on it; nothing more may follow on this one. -/
def lineEnd (cs : List Char) : Option (List Char) :=
  match skipBlank cs with
  | [] => some []
  | c :: rest => if c = '\n' || c = '\r' || c = '#' then skipLines false (c :: rest) else none

/-! ## Strings -/

/-- The character that some hexadecimal digits number. -/
def numbered (digits : List Char) : Option Char := do
  let n := (← digits.mapM Json.hexValue).foldl (fun n d => n * 16 + d) 0
  if n.isValidChar then some (Char.ofNat n) else none

/-- The character that exactly `count` digits number. -/
def readNumbered (count : Nat) (cs : List Char) : Option (Char × List Char) := do
  let digits := cs.take count
  if digits.length < count then none
  else return (← numbered digits, cs.drop count)

/-- The character of an escape, after its backslash. -/
def readEscape : List Char → Option (Char × List Char)
  | [] => none
  | c :: rest =>
    match c with
    | '"' => some ('"', rest)
    | '\\' => some ('\\', rest)
    | 'b' => some ('\x08', rest)
    | 'f' => some ('\x0c', rest)
    | 'n' => some ('\n', rest)
    | 'r' => some ('\r', rest)
    | 't' => some ('\t', rest)
    | 'u' => readNumbered 4 rest
    | 'U' => readNumbered 8 rest
    | _ => none

/-- How a string is written: with escapes in it or not, on one line or on several. -/
structure Style where
  quote : Char
  long : Bool

def Style.escapes (s : Style) : Bool := s.quote = '"'

/-- The rest after blanks and line ends that follow a backslash at the end of a line. -/
def joinLines : List Char → Option (List Char)
  | [] => some []
  | c :: cs =>
    if isBlank c || c = '\n' then joinLines cs
    else if c = '\r' then if cs.head? = some '\n' then joinLines cs else none
    else some (c :: cs)

/-- A backslash that ends a line. -/
def endsLine (cs : List Char) : Bool :=
  match skipBlank cs with
  | '\n' :: _ => true
  | '\r' :: '\n' :: _ => true
  | _ => false

/-- What a run of quotes means inside a long string: two may stand in it, and two more
before the three that close it. -/
def closingRun (run : Nat) : Option (Nat × Bool) :=
  if run < 3 then some (run, false)
  else if run ≤ 5 then some (run - 3, true)
  else none

/-- The characters up to the closing quotes, after those `read` so far, last first; the budget
bounds their number. -/
def readCharacters (style : Style) : Nat → List Char → List Char →
    Option (List Char × List Char)
  | 0, _, _ => none
  | _ + 1, _, [] => none
  | budget + 1, read, c :: rest =>
    if c = style.quote then
      if style.long then
        let more := rest.takeWhile (· = c)
        let rest := rest.dropWhile (· = c)
        match closingRun (more.length + 1) with
        | none => none
        | some (kept, true) => some ((List.replicate kept c ++ read).reverse, rest)
        | some (kept, false) => readCharacters style budget (List.replicate kept c ++ read) rest
      else some (read.reverse, rest)
    else if c = '\\' && style.escapes then
      if style.long && endsLine rest then
        match joinLines rest with
        | some rest => readCharacters style budget read rest
        | none => none
      else match readEscape rest with
        | some (c, rest) => readCharacters style budget (c :: read) rest
        | none => none
    else if c = '\r' && style.long && rest.head? = some '\n' then
      readCharacters style budget read rest
    else if c = '\n' && style.long then readCharacters style budget (c :: read) rest
    else if isControl c then none
    else readCharacters style budget (c :: read) rest

/-- A line end right after the quotes that open a long string is not part of it. -/
def dropFirstBreak : List Char → List Char
  | '\n' :: cs => cs
  | '\r' :: '\n' :: cs => cs
  | cs => cs

/-- A string on one line, after its quote. -/
def readShort (quote : Char) (cs : List Char) : Option (String × List Char) := do
  let (read, rest) ← readCharacters ⟨quote, false⟩ (cs.length + 1) [] cs
  return (String.ofList read, rest)

/-- A string, after its first quote. -/
def readString (quote : Char) (cs : List Char) : Option (String × List Char) :=
  match cs with
  | a :: b :: rest =>
    if a = quote && b = quote then do
      let cs := dropFirstBreak rest
      let (read, rest) ← readCharacters ⟨quote, true⟩ (cs.length + 1) [] cs
      return (String.ofList read, rest)
    else readShort quote cs
  | cs => readShort quote cs

/-! ## Keys -/

def isBare (c : Char) : Bool := c.isAlphanum || c = '_' || c = '-'

/-- One part of a key, bare or quoted. -/
def readKey : List Char → Option (String × List Char)
  | '"' :: rest => readShort '"' rest
  | '\'' :: rest => readShort '\'' rest
  | cs =>
    let key := cs.takeWhile isBare
    if key.isEmpty then none else some (String.ofList key, cs.dropWhile isBare)

/-- A key of at most so many parts, with dots between them. The last part stands by itself. -/
def readParts : Nat → List Char → Option ((List String × String) × List Char)
  | 0, _ => none
  | parts + 1, cs => do
    let (key, rest) ← readKey (skipBlank cs)
    match skipBlank rest with
    | '.' :: rest =>
      let ((path, last), rest) ← readParts parts rest
      return ((key :: path, last), rest)
    | rest => return (([], key), rest)

/-- How many arrays and tables may be nested in a value, and how many parts a key may have. -/
def maxNesting : Nat := 79

/-- A key with dots between its parts. -/
def readPath (cs : List Char) : Option ((List String × String) × List Char) :=
  readParts maxNesting cs

end Thrift.Toml
