import ScriptHost.Script.Library.Argument

set_option autoImplicit false

namespace ScriptHost.Script.Format

/-- A directive: its flags, width and precision as written, and its conversion. -/
structure Directive where
  options : Bytes
  conversion : UInt8

namespace Directive

/-- A directive as it is written. -/
def text (d : Directive) : Bytes := 37 :: d.options ++ [d.conversion]

def isFlag (byte : UInt8) : Bool := [45, 43, 32, 35, 48].contains byte

def has (d : Directive) (flag : Char) : Bool :=
  (d.options.takeWhile isFlag).contains (UInt8.ofNat flag.toNat)

def width (d : Directive) : Nat :=
  digitsValue 0 ((d.options.dropWhile isFlag).takeWhile isDigit)

def precision? (d : Directive) : Option Nat :=
  match (d.options.dropWhile isFlag).dropWhile isDigit with
  | 46 :: digits => some (digitsValue 0 (digits.takeWhile isDigit))
  | _ => none

/-- What is left of options behind a number of up to two digits. -/
def afterNumber (options : Bytes) : Bytes :=
  options.drop ((options.take 2).takeWhile isDigit).length

/-- Whether the options are those that a conversion takes: some flags, a width that does not begin
with zero, and for some a precision. -/
def isValid (d : Directive) (flags : String) (precise : Bool) : Bool :=
  let options := d.options.dropWhile ((utf8 flags).contains ·)
  match options with
  | 48 :: _ => false
  | _ =>
      match afterNumber options with
      | [] => true
      | 46 :: rest => precise && (afterNumber rest).isEmpty
      | _ => false

/-- Fills a text up to the width: with blanks on either side, or with zeros behind the sign. -/
def fill (d : Directive) (sign body : Bytes) (zeros : Bool) : Bytes :=
  let missing := d.width - (sign.length + body.length)
  if d.has '-' then sign ++ body ++ List.replicate missing 32
  else if zeros then sign ++ List.replicate missing 48 ++ body
  else List.replicate missing 32 ++ sign ++ body

/-- The sign of a number, as the flags ask for it. -/
def sign (d : Directive) (negative : Bool) : Bytes :=
  if negative then [45] else if d.has '+' then [43] else if d.has ' ' then [32] else []

end Directive

/-- Digits with zeros before them up to a least count. -/
def atLeast (count : Nat) (digits : List Char) : List Char :=
  List.replicate (count - digits.length) '0' ++ digits

/-- The digits of a natural; a zero with no digits asked for has none. -/
def digitsOf (d : Directive) (base n : Nat) : List Char :=
  match d.precision? with
  | some 0 => if n = 0 then [] else Nat.toDigits base n
  | some least => atLeast least (Nat.toDigits base n)
  | none => Nat.toDigits base n

def signedText (d : Directive) (n : Int) : Bytes :=
  d.fill (d.sign (n < 0)) (ascii (digitsOf d 10 n.natAbs)) (d.has '0' && d.precision?.isNone)

/-- An integer as the natural with the same bits, in a base. -/
def unsignedText (d : Directive) (base : Nat) (upper : Bool) (mark : String) (n : Int) : Bytes :=
  let value := (bitsOf n).toNat
  let digits := digitsOf d base value
  let digits := if upper then digits.map Char.toUpper else digits
  let mark := if d.has '#' && value != 0 then utf8 mark else []
  d.fill mark (ascii digits) (d.has '0' && d.precision?.isNone)

/-- Digits with a point before the last ones. -/
def withPoint (places : Nat) (digits : List Char) (keepPoint : Bool) : List Char :=
  let digits := atLeast (places + 1) digits
  let front := digits.take (digits.length - places)
  let back := digits.drop (digits.length - places)
  if places = 0 ∧ !keepPoint then front else front ++ '.' :: back

/-- A number with a count of decimal places. -/
def fixed (places : Nat) (keepPoint : Bool) (x : Binary64) : List Char :=
  withPoint places (Nat.toDigits 10 (Decimal.withPlaces .double x.unsigned places)) keepPoint

/-- The first digits of a number, rounded, and the exponent of the first one. -/
def leadingDigits (count : Nat) (x : Binary64) : List Char × Int :=
  if x.unsigned = 0 then (List.replicate count '0', 0)
  else
    let d := Decimal.rounded .double x.unsigned count
    ((Nat.toDigits 10 d.coefficient).take count, d.leading)

/-- A number as one digit, decimal places and an exponent. -/
def exponential (places : Nat) (keepPoint : Bool) (x : Binary64) : List Char :=
  let (digits, exponent) := leadingDigits (places + 1) x
  withPoint places digits keepPoint ++
    'e' :: (if exponent < 0 then '-' else '+') :: atLeast 2 (Nat.toDigits 10 exponent.natAbs)

/-- A text of a number without the zeros at the end of its decimal places. -/
def withoutZeros (text : List Char) : List Char :=
  let front := text.takeWhile (· != 'e')
  let rest := text.dropWhile (· != 'e')
  if front.contains '.' then
    let short := (front.reverse.dropWhile (· == '0'))
    (if short.head? = some '.' then short.drop 1 else short).reverse ++ rest
  else text

/-- A number in the shorter of both forms, by its exponent. -/
def general (digits : Nat) (keepZeros : Bool) (x : Binary64) : List Char :=
  let digits := max digits 1
  let (_, exponent) := leadingDigits digits x
  let text :=
    if -4 ≤ exponent ∧ exponent < digits then fixed (digits - 1 - exponent).toNat keepZeros x
    else exponential (digits - 1) keepZeros x
  if keepZeros then text else withoutZeros text

/-- A number with the bits of its fraction in hexadecimal. -/
def hexadecimal (x : Binary64) : List Char :=
  let fraction := x.unsigned % 0x10000000000000
  let exponent : Nat := x.unsigned / 0x10000000000000
  let digits := ((atLeast 13 (Nat.toDigits 16 fraction)).reverse.dropWhile (· == '0')).reverse
  let power : Int :=
    if x.unsigned = 0 then 0 else if exponent = 0 then -1022 else (exponent : Int) - 1023
  let point := if digits.isEmpty then [] else '.' :: digits
  "0x".toList ++ (if exponent = 0 then '0' else '1') :: point
    ++ 'p' :: (if power < 0 then '-' else '+') :: Nat.toDigits 10 power.natAbs

def floatText (d : Directive) (x : Binary64) : Bytes :=
  let precision := d.precision?.getD 6
  let letter := Char.ofNat d.conversion.toNat
  let upper := letter.isUpper
  let body :=
    if !x.isFinite then if x.isNaN then "nan".toList else "inf".toList
    else match letter.toLower with
      | 'f' => fixed precision (d.has '#') x
      | 'e' => exponential precision (d.has '#') x
      | 'a' => hexadecimal x
      | _ => general precision (d.has '#') x
  let body := if upper then body.map Char.toUpper else body
  d.fill (d.sign x.isNegative) (ascii body) (d.has '0' && x.isFinite)

/-- A text between quotes, as a script would spell it. -/
def quotedBody : Bytes → Bytes
  | [] => []
  | byte :: rest =>
      let spelled :=
        if byte = 34 ∨ byte = 92 ∨ byte = 10 then [92, byte]
        else if byte < 32 ∨ byte = 127 then
          let digits := Nat.toDigits 10 byte.toNat
          let followed := (rest.head?.map isDigit).getD false
          92 :: ascii (if followed then atLeast 3 digits else digits)
        else [byte]
      spelled ++ quotedBody rest

/-- A value as a script would spell it. -/
def literal? : Datum → Option Bytes
  | .string bytes => some (34 :: quotedBody bytes ++ [34])
  | .integer n =>
      if n = -Binary64.wordLimit then some (utf8 "0x8000000000000000")
      else some (ascii (decimalText n))
  | .float x =>
      if x.isNaN then some (utf8 "(0/0)")
      else if x.isInfinite then some (utf8 (if x.isNegative then "-1e9999" else "1e9999"))
      else some (ascii (x.signText ++ hexadecimal x))
  | .nil => some (utf8 "nil")
  | .bool b => some (utf8 (if b then "true" else "false"))
  | _ => none

/-- A text with a width, cut to a precision. -/
def plainText (d : Directive) (text : Bytes) : Bytes :=
  if d.options.isEmpty || (d.precision?.isNone && 100 ≤ text.length) then text
  else d.fill [] (text.take (d.precision?.getD text.length)) false

/-- Requires that a directive is valid. -/
def check (a : Activation) (d : Directive) (flags : String) (precise : Bool) : Run Unit := do
  if !d.isValid flags precise then
    a.fail (utf8 "invalid conversion specification: '" ++ d.text.takeWhile (· != 0) ++ utf8 "'")

/-- What a directive stands for, with the position of its argument. -/
def convert (a : Activation) (d : Directive) (n : Nat) : Run Bytes := do
  let integer (flags : String) (write : Int → Bytes) : Run Bytes := do
    let value ← a.integer n
    check a d flags true
    return write value
  match Char.ofNat d.conversion.toNat with
  | 'c' =>
      check a d "-" false
      return d.fill [] [UInt8.ofNat ((← a.integer n) % 256).toNat] false
  | 'd' | 'i' => integer "-+0 " (signedText d)
  | 'u' => integer "-0" (unsignedText d 10 false "")
  | 'o' => integer "-#0" (unsignedText d 8 false "0")
  | 'x' => integer "-#0" (unsignedText d 16 false "0x")
  | 'X' => integer "-#0" (unsignedText d 16 true "0X")
  | 'a' | 'A' | 'e' | 'E' | 'f' | 'g' | 'G' =>
      let value ← a.float n
      check a d "-+ #0" true
      return floatText d value
  | 'q' =>
      if !d.options.isEmpty then a.fail (utf8 "specifier '%q' cannot have modifiers")
      match literal? (a.arg n) with
      | some text => return text
      | none => a.badArgument n (utf8 "value has no literal form")
  | 's' =>
      let text ← a.context.textOf (a.arg n)
      if !d.options.isEmpty then
        if text.contains 0 then a.badArgument n (utf8 "string contains zeros")
        check a d "-" true
      return plainText d text
  | 'p' =>
      check a d "-" false
      let shown := match a.arg n with
        | .nil | .bool _ | .integer _ | .float _ => utf8 "(null)"
        | value => Context.addressText value
      return d.fill [] shown false
  | _ => a.fail (utf8 "invalid conversion '" ++ d.text.takeWhile (· != 0) ++ utf8 "' to 'format'")

/-- How long the options of a directive may be. -/
def optionLimit : Nat := 20

/-- Whether a byte can stand between the mark of a directive and its letter. -/
def isOption (byte : UInt8) : Bool := Directive.isFlag byte || isDigit byte || byte == 46

/-- Fills in a template; the next argument has the given position. -/
def fillIn (a : Activation) : Nat → Nat → Bytes → Run Bytes
  | 0, _, _ => return []
  | _, _, [] => return []
  | fuel + 1, n, byte :: rest => do
      if byte != 37 then return byte :: (← fillIn a fuel n rest)
      else if rest.head? = some 37 then return 37 :: (← fillIn a fuel n (rest.drop 1))
      else
        if a.args.length < n then a.badArgument n (utf8 "no value")
        let options := rest.takeWhile isOption
        if optionLimit < options.length then a.fail (utf8 "invalid format string to 'format'")
        let after := rest.drop options.length
        let text ← convert a ⟨options, after.headD 0⟩ n
        return text ++ (← fillIn a fuel (n + 1) (after.drop 1))

/-- The text that the first argument is the template of. -/
def run (a : Activation) : Run (List Datum) := do
  let template ← a.text 1
  return [.string (← fillIn a template.length 2 template)]

end ScriptHost.Script.Format
