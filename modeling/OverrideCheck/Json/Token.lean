import OverrideCheck.Json.Number

/-!
# Tokens of JSON text

A text is cut into tokens: brackets, commas and colons, strings, and the literals (words and
numbers). Each token keeps the bytes it covers. Cutting goes on until the text ends, a token breaks
off, or a character is met that starts none.

* `TokenKind`, `Token` — what a token is and which bytes it covers;
* `scanString` — the characters of a string, from the one after its opening quote;
* `scanWord` — the words `null`, `true` and `false`;
* `tokenize` — the tokens of a text.

A token that breaks off is listed all the same, as the last one, because a value of the wrong kind
is refused by its first character alone. A string that is well formed but cannot be decoded, such
as one that holds half of a surrogate pair, is a token that carries the fault, and so is a number
that is out of range: these are faults only for someone who reads the value.
-/

namespace OverrideCheck.Json

/-- A value without structure, other than a string. -/
inductive Literal
  | null
  | boolean (value : Bool)
  | number (value : Number)

/-- The kinds of tokens. -/
inductive TokenKind
  | openObject
  | closeObject
  | openArray
  | closeArray
  | comma
  | colon
  | string (text : Except Fault String)
  | literal (value : Except Fault Literal)
  /-- A string that breaks off; no token follows it. -/
  | cutString (breach : Breach)
  /-- A word or a number that breaks off; no token follows it. -/
  | cutLiteral (breach : Breach)
  /-- A character that starts no token; no token follows it. -/
  | stray

/-- A token and the bytes it covers. -/
structure Token where
  start : Nat
  stop : Nat
  kind : TokenKind

/-- The number of bytes of a text. -/
def byteCount (cs : List Char) : Nat := cs.foldl (fun count c => count + c.utf8Size) 0

/-! ### Strings -/

/-- The value of a hexadecimal digit. -/
def hexDigit? (c : Char) : Option Nat :=
  if '0' ≤ c ∧ c ≤ '9' then some (c.toNat - 48)
  else if 'a' ≤ c ∧ c ≤ 'f' then some (c.toNat - 87)
  else if 'A' ≤ c ∧ c ≤ 'F' then some (c.toNat - 55)
  else none

/-- The value of four hexadecimal digits. -/
def hexUnit? (a b c d : Char) : Option Nat := do
  return (((← hexDigit? a) * 16 + (← hexDigit? b)) * 16 + (← hexDigit? c)) * 16 + (← hexDigit? d)

/-- The first half of a surrogate pair. -/
def isLeadingSurrogate (n : Nat) : Bool := 0xD800 ≤ n && n ≤ 0xDBFF

/-- The second half of a surrogate pair. -/
def isTrailingSurrogate (n : Nat) : Bool := 0xDC00 ≤ n && n ≤ 0xDFFF

/-- The character of a surrogate pair. -/
def pairedChar (leading trailing : Nat) : Char :=
  Char.ofNat (0x10000 + (leading - 0xD800) * 0x400 + (trailing - 0xDC00))

/-- The character a one-letter escape stands for. -/
def escapedChar? : Char → Option Char
  | '"' => some '"'
  | '\\' => some '\\'
  | '/' => some '/'
  | 'b' => some '\x08'
  | 'f' => some '\x0c'
  | 'n' => some '\n'
  | 'r' => some '\r'
  | 't' => some '\t'
  | _ => none

/-- What was read of a string so far: its characters, last one first; the first half of a
surrogate pair that waits for its second; and the first thing that keeps it from being decoded. -/
structure StringDraft where
  chars : List Char := []
  leading : Option Nat := none
  fault : Option Fault := none

namespace StringDraft

/-- Notes a fault, unless there was one before. -/
def blame (p : StringDraft) (offset : Nat) (cause : FaultCause) : StringDraft :=
  { p with leading := none, fault := p.fault <|> some ⟨offset, cause⟩ }

/-- The string is found not to go on with the second half of a pair it has begun; what comes
instead ends at `offset`. -/
def expectNoTrailing (p : StringDraft) (offset : Nat) : StringDraft :=
  match p.leading with
  | none => p
  | some _ => p.blame offset .unexpectedEndOfHexEscape

/-- One more character. -/
def push (p : StringDraft) (c : Char) : StringDraft := { p with chars := c :: p.chars }

/-- One more unit, written as four hexadecimal digits that end at `offset`. -/
def pushUnit (p : StringDraft) (unit : Nat) (offset : Nat) : StringDraft :=
  match p.leading with
  | some leading =>
    if isTrailingSurrogate unit then { p with leading := none }.push (pairedChar leading unit)
    else p.blame offset .loneSurrogate
  | none =>
    if isLeadingSurrogate unit then { p with leading := some unit }
    else if isTrailingSurrogate unit then p.blame offset .loneSurrogate
    else p.push (Char.ofNat unit)

/-- The string read, or what keeps it from being decoded. -/
def finish (p : StringDraft) : Except Fault String :=
  match p.fault with
  | some fault => .error fault
  | none => .ok (String.ofList p.chars.reverse)

/-- A breach of the text inside the string. Whoever reads it may have stopped before. -/
def breach (p : StringDraft) (b : Breach) : Breach := { b with read := p.fault.getD b.read }

end StringDraft

/-- The rest of a string, from `offset` on: what it holds, the place after its closing quote and
the text after that; or where it breaks off. -/
def scanString (p : StringDraft) (offset : Nat) :
    List Char → Except Breach (Except Fault String × Nat × List Char)
  | [] => .error (p.breach (.both offset .endInString))
  | '"' :: rest => .ok ((p.expectNoTrailing (offset + 1)).finish, offset + 1, rest)
  | '\\' :: 'u' :: a :: b :: c :: d :: rest =>
    match hexUnit? a b c d with
    | some unit => scanString (p.pushUnit unit (offset + 6)) (offset + 6) rest
    | none => .error (p.breach (.both (offset + 6) .invalidEscape))
  | '\\' :: 'u' :: rest =>
    -- fewer than four characters are left, which may still be four bytes
    let count := byteCount rest
    .error (p.breach
      (if count < 4 then .both (offset + 2 + count) .endInString
        else .both (offset + 6) .invalidEscape))
  | ['\\'] => .error (p.breach (.both (offset + 1) .endInString))
  | '\\' :: c :: rest =>
    let p := p.expectNoTrailing (offset + 2)
    match escapedChar? c with
    | some escaped => scanString (p.push escaped) (offset + 2) rest
    | none => .error (p.breach (.both (offset + 2) .invalidEscape))
  | c :: rest =>
    let p := p.expectNoTrailing (offset + 1)
    if c.toNat < 0x20 then
      .error (p.breach ⟨⟨offset + 1, .controlCharacter⟩, ⟨offset, .controlCharacter⟩⟩)
    else scanString (p.push c) (offset + c.utf8Size) rest

/-! ### Words -/

/-- Takes the remaining characters of a word, from `offset` on. -/
def scanWord (offset : Nat) : List Char → List Char → Except Breach (Nat × List Char)
  | [], cs => .ok (offset, cs)
  | _ :: _, [] => .error (.both offset .endInValue)
  | w :: word, c :: cs =>
    if w = c then scanWord (offset + 1) word cs else .error (.both (offset + 1) .expectedWord)

/-! ### Tokens -/

/-- What a single token leads to: the token, and the text after it unless it is the last one. -/
structure TokenStep where
  token : Token
  rest? : Option (List Char)

/-- A token of one character. -/
def punctuation (offset : Nat) (kind : TokenKind) (rest : List Char) : TokenStep :=
  ⟨⟨offset, offset + 1, kind⟩, some rest⟩

/-- A word, of which the first character is taken. -/
def wordStep (offset : Nat) (value : Literal) (word : List Char) (rest : List Char) : TokenStep :=
  match scanWord (offset + 1) word rest with
  | .ok (stop, rest) => ⟨⟨offset, stop, .literal (.ok value)⟩, some rest⟩
  | .error breach => ⟨⟨offset, breach.read.offset, .cutLiteral breach⟩, none⟩

/-- A number. -/
def numberStep (offset : Nat) (cs : List Char) : TokenStep :=
  match scanNumeral offset cs with
  | .ok (numeral, rest) =>
    ⟨⟨offset, numeral.stop, .literal (numeral.evaluate.map .number)⟩, some rest⟩
  | .error breach => ⟨⟨offset, breach.read.offset, .cutLiteral breach⟩, none⟩

/-- A string, of which the opening quote is taken. -/
def stringStep (offset : Nat) (rest : List Char) : TokenStep :=
  match scanString {} (offset + 1) rest with
  | .ok (text, stop, rest) => ⟨⟨offset, stop, .string text⟩, some rest⟩
  | .error breach => ⟨⟨offset, breach.read.offset, .cutString breach⟩, none⟩

/-- The token that starts with the character `c`. -/
def tokenStep (offset : Nat) (c : Char) (rest : List Char) : TokenStep :=
  match c with
  | '{' => punctuation offset .openObject rest
  | '}' => punctuation offset .closeObject rest
  | '[' => punctuation offset .openArray rest
  | ']' => punctuation offset .closeArray rest
  | ',' => punctuation offset .comma rest
  | ':' => punctuation offset .colon rest
  | '"' => stringStep offset rest
  | 'n' => wordStep offset .null ['u', 'l', 'l'] rest
  | 't' => wordStep offset (.boolean true) ['r', 'u', 'e'] rest
  | 'f' => wordStep offset (.boolean false) ['a', 'l', 's', 'e'] rest
  | c =>
    if c = '-' || c.isDigit then numberStep offset (c :: rest)
    else ⟨⟨offset, offset + 1, .stray⟩, none⟩

/-- The blank characters between tokens. -/
def isSpace (c : Char) : Bool := c = ' ' || c = '\n' || c = '\t' || c = '\r'

/-- The tokens of a text, from `offset` on, and the place at which they end: the end of the text,
unless the last token breaks off. Every token takes at least one character, so `fuel` tokens are
enough for a text of that length. -/
def tokenizeFrom (fuel : Nat) (offset : Nat) (cs : List Char) : List Token × Nat :=
  match fuel, cs with
  | _, [] => ([], offset)
  | 0, _ => ([], offset)
  | fuel + 1, c :: rest =>
    if isSpace c then tokenizeFrom fuel (offset + 1) rest
    else
      let step := tokenStep offset c rest
      match step.rest? with
      | none => ([step.token], step.token.stop)
      | some rest =>
        let (tokens, stop) := tokenizeFrom fuel step.token.stop rest
        (step.token :: tokens, stop)

/-- The tokens of a text and the place at which they end. -/
def tokenize (text : String) : List Token × Nat :=
  let cs := text.toList
  tokenizeFrom cs.length 0 cs

end OverrideCheck.Json
