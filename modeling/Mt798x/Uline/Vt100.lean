import Mt798x.Uline.LineBuf

/-!
# Escape sequences from the terminal

`vt100_esc_decode` of `vt100.c`: what the bytes typed behind an ESC mean.  The string ends with a
NUL, so a byte that is missing reads as 0.
-/

namespace Uline

open Bytes

/-- Types of escape codes. -/
inductive Vt100Escape
  | incomplete | unknown | ignore
  | cursorUp | cursorDown | cursorLeft | cursorWordLeft | cursorRight | cursorWordRight
  | cursorPos | home | toEnd | insert | delete | deleteLeft | deleteLeftWord | pageUp | pageDown
  deriving DecidableEq, Repr

/-- A decimal digit. -/
def isDigit (c : Byte) : Bool := 48 ≤ c && c ≤ 57

/-- The digits at the start of a string, appended to the number `acc`, and the rest. -/
def takeDigits (acc : ℕ) : List Byte → ℕ × List Byte
  | [] => (acc, [])
  | c :: str => if isDigit c then takeDigits (acc * 10 + (c.toNat - 48)) str else (acc, c :: str)

/-- `strtoul(str, &err, 10)`: the number, saturated at `ULONG_MAX`, and what `err` points to. -/
def strtoul (str : List Byte) : ℕ × List Byte :=
  let body := str.dropWhile isSpace
  let neg := body.headD 0 = 45
  let digits := if body.headD 0 = 43 ∨ body.headD 0 = 45 then body.drop 1 else body
  if isDigit (digits.headD 0) then
    let (n, rest) := takeDigits 0 digits
    let n := if 2 ^ 64 ≤ n then 2 ^ 64 - 1 else if neg then (2 ^ 64 - n) % 2 ^ 64 else n
    (n, rest)
  else (0, str)

/-- A sequence with a number: what follows the number decides. -/
def decodeNumber (str : List Byte) : Vt100Escape × ℕ :=
  let (code, err) := strtoul str
  match err.headD 0 with
  | 0 => (.incomplete, 0)
  | 126 => match code with
    | 1 => (.home, 0)
    | 3 => (.delete, 0)
    | 4 => (.toEnd, 0)
    | 200 => (.ignore, 0)
    | 201 => (.ignore, 0)
    | _ => (.unknown, 0)
  | 59 =>
    let (code2, err) := strtoul (err.drop 1)
    match err.headD 0 with
    | 0 => (.incomplete, 0)
    | 82 => (.cursorPos, (code2 <<< 16 ||| code &&& 0xffff) % 2 ^ 32)
    | _ => (.unknown, 0)
  | _ => (.unknown, 0)

/-- The meaning of a sequence, and the data of a cursor position. -/
def vt100EscDecode (str : List Byte) : Vt100Escape × ℕ :=
  let c := str.headD 0
  if c = 0 then (.incomplete, 0)
  else if c = 91 ∨ c = 79 then
    let str := str.drop 1
    match str.headD 0 with
    | 0 => (.incomplete, 0)
    | 65 => (.cursorUp, 0)
    | 66 => (.cursorDown, 0)
    | 67 => (.cursorRight, 0)
    | 68 => (.cursorLeft, 0)
    | 70 => (.toEnd, 0)
    | 72 => (.home, 0)
    | 53 => match (str.drop 1).headD 0 with
      | 67 => (.cursorWordRight, 0)
      | 68 => (.cursorWordLeft, 0)
      | _ => decodeNumber str
    | d => if isDigit d then decodeNumber str else (.unknown, 0)
  else (.unknown, 0)

end Uline
