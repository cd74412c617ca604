import Lowering.Toml.Value

/-!
# TOML strings, numbers and dates

Readers for everything in a TOML document that holds no other value. A reader
takes characters from the front of its input, or fails.
-/

namespace Lowering.Toml

/-- A reader of characters. -/
abbrev Reader := StateT (List Char) Option

namespace Reader

/-- Fails. -/
def refuse {α : Type} : Reader α := fun _ => none

/-- The characters still to be read. -/
def rest : Reader (List Char) := fun cs => some (cs, cs)

/-- Reads one character of a class. -/
def one (p : Char → Bool) : Reader Char
  | [] => none
  | c :: cs => if p c then some (c, cs) else none

/-- Reads a given character. -/
def char (c : Char) : Reader Unit := fun cs => do
  let (_, cs) ← one (· == c) cs
  return ((), cs)

/-- Reads a given text. -/
def word (s : String) : Reader Unit := fun cs => do
  let cs ← (s.toList).isPrefixOf? cs
  return ((), cs)

/-- Reads the longest run of characters of a class. -/
def span (p : Char → Bool) : Reader (List Char) := fun cs =>
  some (cs.takeWhile p, cs.dropWhile p)

/-- Reads `r` if it can be read. -/
def optional {α : Type} (r : Reader α) : Reader (Option α) := fun cs =>
  match r cs with
  | none => some (none, cs)
  | some (a, cs) => some (some a, cs)

/-- Reads with `r` and gives the characters that it took. -/
def written {α : Type} (r : Reader α) : Reader String := fun cs => do
  let (_, after) ← r cs
  return (String.ofList (cs.take (cs.length - after.length)), after)

/-- Reads with `r` and requires its result to pass a test. -/
def verify {α : Type} (r : Reader α) (p : α → Bool) : Reader α := do
  let a ← r
  if p a then return a else refuse

end Reader

/-! ## Characters -/

/-- A blank: a space or a tab. -/
def isBlank (c : Char) : Bool := c == ' ' || c == '\t'

/-- A character that may stand in text: no control other than a tab. -/
def isPrinted (c : Char) : Bool := c == '\t' || (' ' ≤ c && c != '\x7f')

/-- A hexadecimal digit. -/
def isHex (c : Char) : Bool :=
  c.isDigit || ('a' ≤ c && c ≤ 'f') || ('A' ≤ c && c ≤ 'F')

/-- The value of a digit in any base up to sixteen. -/
def digitValue (c : Char) : Nat :=
  if c.isDigit then c.toNat - '0'.toNat
  else if 'a' ≤ c then c.toNat - 'a'.toNat + 10
  else c.toNat - 'A'.toNat + 10

/-- The number that digits in a base stand for; underscores are skipped. -/
def number (base : Nat) (cs : List Char) : Nat :=
  (cs.filter (· != '_')).foldl (fun n c => n * base + digitValue c) 0

/-- The end of a line: a line feed, or a carriage return and a line feed. -/
def newline : Reader Unit
  | '\n' :: cs => some ((), cs)
  | '\r' :: '\n' :: cs => some ((), cs)
  | _ => none

/-! ## Strings -/

/-- The character of a one-letter escape. -/
def shortEscape : Char → Option Char
  | 'b' => some '\x08'
  | 't' => some '\t'
  | 'n' => some '\n'
  | 'f' => some '\x0c'
  | 'r' => some '\r'
  | '"' => some '"'
  | '\\' => some '\\'
  | _ => none

/-- The character with a number in hexadecimal, if it is one. -/
def numberedEscape (digits : List Char) : Option Char :=
  let n := number 16 digits
  if digits.all isHex && n.isValidChar then some (Char.ofNat n) else none

/-- Reads a quoted string of one line after its opening quote. -/
def basicRest : List Char → Option (List Char × List Char)
  | [] => none
  | '"' :: cs => some ([], cs)
  | '\\' :: 'u' :: a :: b :: c :: d :: cs => do
    let x ← numberedEscape [a, b, c, d]
    let (xs, cs) ← basicRest cs
    return (x :: xs, cs)
  | '\\' :: 'U' :: a :: b :: c :: d :: e :: f :: g :: h :: cs => do
    let x ← numberedEscape [a, b, c, d, e, f, g, h]
    let (xs, cs) ← basicRest cs
    return (x :: xs, cs)
  | '\\' :: e :: cs => do
    let x ← shortEscape e
    let (xs, cs) ← basicRest cs
    return (x :: xs, cs)
  | c :: cs => do
    if isPrinted c && c != '\\' then
      let (xs, cs) ← basicRest cs
      return (c :: xs, cs)
    else none

/-- Whether only blanks stand before the next line. -/
def blankToLineEnd (cs : List Char) : Bool :=
  (newline (cs.dropWhile isBlank)).isSome

/-- Reads a quoted string of several lines after its opening quotes. Up to two
quotes may stand before the closing ones. A backslash at the end of a line skips
all blanks and line ends after it; `skipping` says that one has been read. -/
def basicLines : (skipping : Bool) → List Char → Option (List Char × List Char)
  | _, [] => none
  | true, ' ' :: cs => basicLines true cs
  | true, '\t' :: cs => basicLines true cs
  | true, '\n' :: cs => basicLines true cs
  | true, '\r' :: '\n' :: cs => basicLines true cs
  | _, '"' :: '"' :: '"' :: '"' :: '"' :: cs => some (['"', '"'], cs)
  | _, '"' :: '"' :: '"' :: '"' :: cs => some (['"'], cs)
  | _, '"' :: '"' :: '"' :: cs => some ([], cs)
  | _, '\r' :: '\n' :: cs => do
    let (xs, cs) ← basicLines false cs
    return ('\n' :: xs, cs)
  | _, '\\' :: 'u' :: a :: b :: c :: d :: cs => do
    let x ← numberedEscape [a, b, c, d]
    let (xs, cs) ← basicLines false cs
    return (x :: xs, cs)
  | _, '\\' :: 'U' :: a :: b :: c :: d :: e :: f :: g :: h :: cs => do
    let x ← numberedEscape [a, b, c, d, e, f, g, h]
    let (xs, cs) ← basicLines false cs
    return (x :: xs, cs)
  | _, '\\' :: e :: cs =>
    if blankToLineEnd (e :: cs) then basicLines true (e :: cs)
    else do
      let x ← shortEscape e
      let (xs, cs) ← basicLines false cs
      return (x :: xs, cs)
  | _, c :: cs =>
    if c == '\n' || (isPrinted c && c != '\\') then do
      let (xs, cs) ← basicLines false cs
      return (c :: xs, cs)
    else none

/-- Reads a literal string of one line after its opening quote. -/
def literalRest : List Char → Option (List Char × List Char)
  | [] => none
  | '\'' :: cs => some ([], cs)
  | c :: cs =>
    if isPrinted c then do
      let (xs, cs) ← literalRest cs
      return (c :: xs, cs)
    else none

/-- Reads a literal string of several lines after its opening quotes. -/
def literalLines : List Char → Option (List Char × List Char)
  | [] => none
  | '\'' :: '\'' :: '\'' :: '\'' :: '\'' :: cs => some (['\'', '\''], cs)
  | '\'' :: '\'' :: '\'' :: '\'' :: cs => some (['\''], cs)
  | '\'' :: '\'' :: '\'' :: cs => some ([], cs)
  | '\r' :: '\n' :: cs => do
    let (xs, cs) ← literalLines cs
    return ('\n' :: xs, cs)
  | c :: cs =>
    if c == '\n' || isPrinted c then do
      let (xs, cs) ← literalLines cs
      return (c :: xs, cs)
    else none

/-- A string of several lines starts after a line end that follows its opening
quotes. -/
def afterFirstNewline (cs : List Char) : List Char :=
  match newline cs with
  | some (_, cs) => cs
  | none => cs

/-- Reads a string of one line, the only kind that can be a key. -/
def lineString : Reader String
  | '"' :: cs => (basicRest cs).map fun (xs, cs) => (String.ofList xs, cs)
  | '\'' :: cs => (literalRest cs).map fun (xs, cs) => (String.ofList xs, cs)
  | _ => none

/-- Reads a string. -/
def string : Reader String
  | '"' :: '"' :: '"' :: cs =>
    (basicLines false (afterFirstNewline cs)).map fun (xs, cs) => (String.ofList xs, cs)
  | '\'' :: '\'' :: '\'' :: cs =>
    (literalLines (afterFirstNewline cs)).map fun (xs, cs) => (String.ofList xs, cs)
  | cs => lineString cs

/-! ## Numbers -/

/-- Splits off digits of a class; an underscore may stand between two digits. -/
def splitDigits (p : Char → Bool) : List Char → List Char × List Char
  | [] => ([], [])
  | [c] => if p c then ([c], []) else ([], [c])
  | c :: d :: cs =>
    if p c then
      let (xs, cs) := splitDigits p (d :: cs)
      (c :: xs, cs)
    else if c == '_' && p d then
      let (xs, cs) := splitDigits p (d :: cs)
      (c :: xs, cs)
    else ([], c :: d :: cs)

/-- Reads one digit of a class and the digits after it. -/
def digits (p : Char → Bool) : Reader (List Char) := do
  let c ← Reader.one p
  let cs ← Reader.rest
  let (xs, cs) := splitDigits p cs
  set cs
  return c :: xs

/-- Reads a sign, if there is one. -/
def sign : Reader (List Char) := fun cs =>
  match cs with
  | '+' :: cs => some (['+'], cs)
  | '-' :: cs => some (['-'], cs)
  | cs => some ([], cs)

/-- Reads a decimal integer without leading zeros. -/
def decimal : Reader (List Char) := fun cs =>
  match cs with
  | '0' :: cs => some (['0'], cs)
  | cs => digits Char.isDigit cs

/-- Whether an integer fits 64 bits. -/
def fits (n : Int) : Bool :=
  -9223372036854775808 ≤ n && n ≤ 9223372036854775807

/-- Reads an integer in a base that its mark announces. -/
def basedInteger (mark : String) (base : Nat) (p : Char → Bool) : Reader Int := do
  Reader.word mark
  let ds ← digits p
  return number base ds

/-- Reads a decimal integer with its sign. -/
def signedInteger : Reader Int := do
  let s ← sign
  let ds ← decimal
  return if s == ['-'] then -(number 10 ds : Int) else number 10 ds

/-- Reads an integer. -/
def integer : Reader Int :=
  (basedInteger "0x" 16 isHex
    <|> basedInteger "0o" 8 (fun c => '0' ≤ c && c ≤ '7')
    <|> basedInteger "0b" 2 (fun c => c == '0' || c == '1')
    <|> signedInteger).verify fits

/-- Reads the exponent of a float: its sign and its digits. -/
def exponent : Reader (List Char × List Char) := do
  let _ ← Reader.one fun c => c == 'e' || c == 'E'
  let s ← sign
  let ds ← digits Char.isDigit
  return (s, ds)

/-- Whether `m * 10 ^ e` is at or above the midpoint between the largest 64-bit
binary float and the next power of two, and so rounds to infinity. -/
def overflows (m : Nat) (e : Int) : Bool :=
  let limit := Nat.pow 2 1024 - Nat.pow 2 970
  let size : Int := (Nat.toDigits 10 m).length + e
  if m = 0 || size < 300 then false
  else if 310 < size then true
  else if 0 ≤ e then limit ≤ m * Nat.pow 10 e.toNat
  else limit * Nat.pow 10 (-e).toNat ≤ m

/-- Reads a float with a fraction, an exponent or both. A positive one must not
round to infinity. -/
def finiteFloat : Reader Unit := do
  let s ← sign
  let whole ← decimal
  let fraction ← Reader.optional do
    Reader.char '.'
    digits Char.isDigit
  let power ← match fraction with
    | none => some <$> exponent
    | some _ => Reader.optional exponent
  let places := (fraction.getD []).filter (· != '_')
  let (powerSign, powerDigits) := power.getD ([], [])
  let power10 : Int :=
    if powerSign == ['-'] then -(number 10 powerDigits : Int) else number 10 powerDigits
  if s != ['-'] && overflows (number 10 (whole ++ places)) (power10 - places.length) then
    Reader.refuse

/-- Reads an infinity or a not-a-number. -/
def specialFloat : Reader Unit := do
  let _ ← sign
  Reader.word "inf" <|> Reader.word "nan"

/-! ## Dates and times -/

/-- Reads exactly `n` digits. -/
def fixedDigits : (n : Nat) → Reader (List Char)
  | 0 => return []
  | n + 1 => do
    let c ← Reader.one Char.isDigit
    return c :: (← fixedDigits n)

/-- Reads a number of exactly `n` digits between two bounds. -/
def bounded (n low high : Nat) : Reader Nat :=
  Reader.verify (do return number 10 (← fixedDigits n)) fun k => low ≤ k && k ≤ high

/-- The number of days in a month. -/
def daysIn (year month : Nat) : Nat :=
  if month = 2 then
    if year % 4 = 0 && (year % 100 != 0 || year % 400 = 0) then 29 else 28
  else if month = 4 || month = 6 || month = 9 || month = 11 then 30
  else 31

/-- Reads a date that exists. -/
def date : Reader Unit := do
  let year ← bounded 4 0 9999
  Reader.char '-'
  let month ← bounded 2 1 12
  Reader.char '-'
  let _ ← bounded 2 1 (daysIn year month)

/-- Reads a time of day; the last minute may have a leap second. -/
def time : Reader Unit := do
  let _ ← bounded 2 0 23
  Reader.char ':'
  let _ ← bounded 2 0 59
  Reader.char ':'
  let _ ← bounded 2 0 60
  let _ ← Reader.optional do
    Reader.char '.'
    let _ ← Reader.one Char.isDigit
    Reader.span Char.isDigit

/-- Reads the offset of a time from the universal one. -/
def offset : Reader Unit :=
  (do let _ ← Reader.one fun c => c == 'Z' || c == 'z')
    <|> (do
      let _ ← Reader.one fun c => c == '+' || c == '-'
      let _ ← bounded 2 0 23
      Reader.char ':'
      let _ ← bounded 2 0 59)

/-- Reads a time after a date. -/
def timeAfterDate : Reader Unit := do
  let _ ← Reader.one fun c => c == 'T' || c == 't' || c == ' '
  time
  let _ ← Reader.optional offset

/-- Reads a date, a time, or a date with a time. -/
def datetime : Reader Unit :=
  (do date; let _ ← Reader.optional timeAfterDate) <|> time

/-- Reads a value that holds no other value. -/
def scalar : Reader Value :=
  (return .string (← string))
    <|> (return .datetime (← datetime.written))
    <|> (return .float (← (finiteFloat <|> specialFloat).written))
    <|> (return .integer (← integer))
    <|> (do Reader.word "true"; return .bool true)
    <|> (do Reader.word "false"; return .bool false)

end Lowering.Toml
