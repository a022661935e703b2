import ScriptHost.Script.Numeral
import ScriptHost.Script.SyntaxError

set_option autoImplicit false

namespace ScriptHost.Script

/-- A fault is a token too, the last one, so that it counts only once all before it is read. -/
inductive Token where
  /-- A reserved word, an operator or a separator. -/
  | fixed (text : String)
  | name (text : Bytes)
  | string (value raw : Bytes)
  | number (value : Datum) (raw : Bytes)
  /-- A byte that begins no token. -/
  | stray (byte : UInt8)
  | eof
  | fault (fault : SyntaxFault) (near : Option Bytes)
deriving DecidableEq, Repr

/-- A token with the line on which it ends. -/
structure Lexeme where
  token : Token
  line : Nat
deriving DecidableEq, Repr

def singleQuoted (text : Bytes) : Bytes := 39 :: text ++ [39]

/-- The text of the end of a script, as messages show it. -/
def eofText : Bytes := utf8 "<eof>"

/-- A token as messages show it, without the quotes of texts that are cut at a zero byte. -/
def Token.shown : Token → Bytes
  | fixed text => singleQuoted (utf8 text)
  | name text | string _ text | number _ text => singleQuoted (text.takeWhile (· != 0))
  | stray byte =>
      if 32 ≤ byte && byte ≤ 126 then singleQuoted [byte]
      else utf8 ("'<\\" ++ toString byte.toNat ++ ">'")
  | eof | fault _ _ => eofText

def reservedWords : List String :=
  ["and", "break", "do", "else", "elseif", "end", "false", "for", "function", "goto", "if", "in",
    "local", "nil", "not", "or", "repeat", "return", "then", "true", "until", "while"]

/-- The operators and separators, each before those that it begins with. -/
def symbols : List String :=
  ["...", "..", "==", "<=", ">=", "~=", "<<", ">>", "//", "::", "+", "-", "*", "/", "%", "^", "#",
    "&", "~", "|", "<", ">", "=", "(", ")", "\x7b", "\x7d", "[", "]", ";", ":", ",", "."]

def isNameStart (byte : UInt8) : Bool :=
  (65 ≤ byte && byte ≤ 90) || (97 ≤ byte && byte ≤ 122) || byte == 95

def isNameByte (byte : UInt8) : Bool := isNameStart byte || isDigit byte

def isLineEnd (byte : UInt8) : Bool := byte == 10 || byte == 13

/-- What follows the end of a line: two different bytes of line ends are one end. -/
def afterLineEnd (first : UInt8) : Bytes → Bytes
  | second :: rest => if isLineEnd second && second != first then rest else second :: rest
  | [] => []

/-- What follows a text that some bytes begin with. -/
def strip? : Bytes → Bytes → Option Bytes
  | [], s => some s
  | _ :: _, [] => none
  | expected :: more, byte :: s => if byte = expected then strip? more s else none

/-- A part of a token that was read, with the input and the line behind it; or a fault, the token
so far, and its line. -/
abbrev Scan (α : Type) := Except Lexeme (α × Bytes × Nat)

def scanFault {α : Type} (fault : SyntaxFault) (near : Bytes) (line : Nat) : Scan α :=
  .error ⟨.fault fault (some near), line⟩

/-- The level of a long bracket behind its first byte, and what follows its second one. -/
def longBracket? (bracket : UInt8) (s : Bytes) : Option (Nat × Bytes) :=
  match s.dropWhile (· == 61) with
  | byte :: rest => if byte = bracket then some ((s.takeWhile (· == 61)).length, rest) else none
  | [] => none

/-- Reads a long text to its closing bracket; the bytes read so far are given in reverse. -/
def longText (what : String) (start level : Nat) : Nat → Nat → Bytes → Bytes → Scan Bytes
  | _, line, _, [] => scanFault (.unfinishedLong what start) eofText line
  | 0, line, _, _ => scanFault (.unfinishedLong what start) eofText line
  | fuel + 1, line, read, byte :: s =>
      if byte = 93 then
        match longBracket? 93 s with
        | some (found, rest) =>
            if found = level then .ok (read.reverse, rest, line)
            else longText what start level fuel line (byte :: read) s
        | none => longText what start level fuel line (byte :: read) s
      else if isLineEnd byte then
        longText what start level fuel (line + 1) (10 :: read) (afterLineEnd byte s)
      else longText what start level fuel line (byte :: read) s

/-- Reads a long text behind its opening bracket; a line end right there is left out. -/
def longBody (what : String) (level line : Nat) : Bytes → Scan Bytes
  | byte :: s =>
      if isLineEnd byte then
        longText what line level (s.length + 1) (line + 1) [] (afterLineEnd byte s)
      else longText what line level (s.length + 1) line [] (byte :: s)
  | [] => longText what line level 0 line [] []

/-- A fault in an escape: the token so far is shown with the byte at which it fails. -/
def escapeFault {α : Type} (fault : SyntaxFault) (seen s : Bytes) (line : Nat) : Scan α :=
  scanFault fault (singleQuoted ((seen.reverse ++ s.take 1).takeWhile (· != 0))) line

/-- Reads two hexadecimal digits; the token so far is given in reverse. -/
def hexEscape (seen : Bytes) (line : Nat) : Bytes → Scan Bytes
  | [] => escapeFault .hexDigitExpected seen [] line
  | a :: s =>
      match hexValue? a, s with
      | none, _ => escapeFault .hexDigitExpected seen (a :: s) line
      | some _, [] => escapeFault .hexDigitExpected (a :: seen) [] line
      | some high, b :: rest =>
          match hexValue? b with
          | none => escapeFault .hexDigitExpected (a :: seen) (b :: rest) line
          | some low => .ok ([UInt8.ofNat (16 * high + low)], rest, line)

/-- The bytes of a code of up to thirty-one bits, by the scheme of UTF-8. -/
def extendedUtf8 (code : Nat) : Bytes :=
  if code < 0x80 then [UInt8.ofNat code]
  else
    let count := if code < 0x800 then 1 else if code < 0x10000 then 2 else if code < 0x200000 then 3
      else if code < 0x4000000 then 4 else 5
    let mark := 256 - Nat.pow 2 (7 - count)
    let tail := (List.range count).reverse.map fun i =>
      UInt8.ofNat (0x80 + code / Nat.pow 2 (6 * i) % 64)
    UInt8.ofNat (mark + code / Nat.pow 2 (6 * count)) :: tail

/-- Reads the digits of a code to the closing brace, behind the first of them. -/
def codeDigits (line : Nat) : Bytes → Nat → Bytes → Scan Bytes
  | seen, _, [] => escapeFault .closeBraceMissing seen [] line
  | seen, code, byte :: s =>
      match hexValue? byte with
      | some digit =>
          if 0x7FFFFFF < code then escapeFault .codeTooLarge seen (byte :: s) line
          else codeDigits line (byte :: seen) (16 * code + digit) s
      | none =>
          if byte = 125 then .ok (extendedUtf8 code, s, line)
          else escapeFault .closeBraceMissing seen (byte :: s) line

/-- Reads a code between braces. -/
def codeEscape (seen : Bytes) (line : Nat) : Bytes → Scan Bytes
  | [] => escapeFault .openBraceMissing seen [] line
  | brace :: s =>
      if brace = 123 then
        match s with
        | [] => escapeFault .hexDigitExpected (brace :: seen) [] line
        | byte :: s =>
            match hexValue? byte with
            | some digit => codeDigits line (byte :: brace :: seen) digit s
            | none => escapeFault .hexDigitExpected (brace :: seen) (byte :: s) line
      else escapeFault .openBraceMissing seen (brace :: s) line

/-- Reads up to three decimal digits. -/
def decimalEscape (seen s : Bytes) (line : Nat) : Scan Bytes :=
  let digits := (s.take 3).takeWhile isDigit
  let rest := s.drop digits.length
  let code := digitsValue 0 digits
  if digits.isEmpty then escapeFault .escapeSequence seen s line
  else if 255 < code then escapeFault .decimalTooLarge (digits.reverse ++ seen) rest line
  else .ok ([UInt8.ofNat code], rest, line)

/-- The byte that a letter stands for behind a backslash. -/
def letterEscape? (letter : UInt8) : Option UInt8 :=
  [(97, 7), (98, 8), (102, 12), (110, 10), (114, 13), (116, 9), (118, 11), (92, 92), (34, 34),
    (39, 39)].lookup letter

/-- Skips blanks and line ends, and counts the latter. -/
def skipSpaces : Nat → Nat → Bytes → Bytes × Nat
  | 0, line, s => (s, line)
  | _, line, [] => ([], line)
  | fuel + 1, line, byte :: s =>
      if isLineEnd byte then skipSpaces fuel (line + 1) (afterLineEnd byte s)
      else if isSpace byte then skipSpaces fuel line s
      else (byte :: s, line)

/-- Reads an escape behind its backslash, which the token so far begins with, in reverse. -/
def escape (seen : Bytes) (line : Nat) : Bytes → Scan Bytes
  | [] => .ok ([], [], line)
  | letter :: s =>
      match letterEscape? letter with
      | some byte => .ok ([byte], s, line)
      | none =>
          if letter = 120 then hexEscape (letter :: seen) line s
          else if letter = 117 then codeEscape (letter :: seen) line s
          else if letter = 122 then
            let (rest, line) := skipSpaces s.length line s
            .ok ([], rest, line)
          else if isLineEnd letter then .ok ([10], afterLineEnd letter s, line + 1)
          else decimalEscape seen (letter :: s) line

/-- Reads a string to its closing quote. The token so far, opening quote included, is given in
reverse. -/
def quotedText (quote : UInt8) : Nat → Nat → Bytes → Bytes → Scan Bytes
  | _, line, _, [] => scanFault .unfinishedString eofText line
  | 0, line, _, _ => scanFault .unfinishedString eofText line
  | fuel + 1, line, seen, byte :: s =>
      if byte = quote then .ok (seen.reverse.drop 1, s, line)
      else if isLineEnd byte then
        scanFault .unfinishedString (singleQuoted (seen.reverse.takeWhile (· != 0))) line
      else if byte = 92 then
        match escape (byte :: seen) line s with
        | .error lexeme => .error lexeme
        | .ok (bytes, rest, line) => quotedText quote fuel line (bytes.reverse ++ seen) rest
      else quotedText quote fuel line (byte :: seen) s

/-- Splits off what may belong to a numeral: digits of either base, points, and exponents with
their signs. -/
def numeralSpan (isMark : UInt8 → Bool) : Nat → Bytes → Bytes × Bytes
  | 0, s => ([], s)
  | _, [] => ([], [])
  | fuel + 1, byte :: s =>
      if isMark byte then
        match s with
        | sign :: rest =>
            if sign = 43 ∨ sign = 45 then
              let (read, rest) := numeralSpan isMark fuel rest
              (byte :: sign :: read, rest)
            else
              let (read, rest) := numeralSpan isMark fuel s
              (byte :: read, rest)
        | [] => ([byte], [])
      else if isHexDigit byte || byte == 46 then
        let (read, rest) := numeralSpan isMark fuel s
        (byte :: read, rest)
      else ([], byte :: s)

/-- Splits off a numeral, with one letter behind it, which spoils it. -/
def numeralText (s : Bytes) : Bytes × Bytes :=
  let (read, rest) := match afterHexMark? s with
    | some rest =>
        let (read, rest) := numeralSpan (fun b => b == 112 || b == 80) rest.length rest
        (s.take 2 ++ read, rest)
    | none => numeralSpan (fun b => b == 101 || b == 69) s.length s
  match rest with
  | byte :: rest => if isNameStart byte then (read ++ [byte], rest) else (read, byte :: rest)
  | [] => (read, [])

/-- Reads a token that begins with the given byte. -/
def scanToken (line : Nat) (byte : UInt8) (s : Bytes) : Scan Token :=
  let input := byte :: s
  if isNameStart byte then
    let text := input.takeWhile isNameByte
    let rest := input.dropWhile isNameByte
    match reservedWords.find? (utf8 · == text) with
    | some word => .ok (.fixed word, rest, line)
    | none => .ok (.name text, rest, line)
  else if isDigit byte || (byte == 46 && (s.head?.map isDigit).getD false) then
    let (text, rest) := numeralText input
    match numberOf? text with
    | some value => .ok (.number value text, rest, line)
    | none => scanFault .malformedNumber (singleQuoted text) line
  else if byte = 34 ∨ byte = 39 then
    match quotedText byte (s.length + 1) line [byte] s with
    | .error lexeme => .error lexeme
    | .ok (value, rest, line) => .ok (.string value (byte :: value ++ [byte]), rest, line)
  else
    match if byte = 91 then longBracket? 91 s else none with
    | some (level, rest) =>
        match longBody "string" level line rest with
        | .error lexeme => .error lexeme
        | .ok (value, rest, line) =>
            let bars := List.replicate level 61
            .ok (.string value (91 :: bars ++ 91 :: value ++ 93 :: bars ++ [93]), rest, line)
    | none =>
        if byte = 91 ∧ s.head? = some 61 then
          scanFault .longDelimiter (singleQuoted (byte :: s.takeWhile (· == 61))) line
        else
          match symbols.findSome? fun symbol => (strip? (utf8 symbol) input).map (symbol, ·) with
          | some (symbol, rest) => .ok (.fixed symbol, rest, line)
          | none => .ok (.stray byte, s, line)

/-- What follows a comment, behind its two bars. -/
def skipComment (line : Nat) (s : Bytes) : Scan Unit :=
  match s with
  | 91 :: rest =>
      match longBracket? 91 rest with
      | some (level, rest) => (longBody "comment" level line rest).map fun (_, rest) => ((), rest)
      | none => .ok ((), s.dropWhile (!isLineEnd ·), line)
  | _ => .ok ((), s.dropWhile (!isLineEnd ·), line)

/-- The tokens from a line on, to the end or to a fault. The fuel is more than the bytes left. -/
def lexemes : Nat → Nat → Bytes → List Lexeme
  | 0, line, _ => [⟨.eof, line⟩]
  | _, line, [] => [⟨.eof, line⟩]
  | fuel + 1, line, byte :: s =>
      if isLineEnd byte then lexemes fuel (line + 1) (afterLineEnd byte s)
      else if isSpace byte then lexemes fuel line s
      else if byte = 45 ∧ s.head? = some 45 then
        match skipComment line (s.drop 1) with
        | .error lexeme => [lexeme]
        | .ok (_, rest, line) => lexemes fuel line rest
      else
        match scanToken line byte s with
        | .error lexeme => [lexeme]
        | .ok (token, rest, line) => ⟨token, line⟩ :: lexemes fuel line rest

/-- The tokens of a script. -/
def tokens (source : Bytes) : List Lexeme := lexemes (source.length + 1) 1 source

end ScriptHost.Script
