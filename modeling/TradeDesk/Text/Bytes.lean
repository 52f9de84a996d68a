import TradeDesk.Text.Quote

/-!
# Byte strings

A configuration file may hold a byte string (a base64 scalar). This module gives the three things the
library does with one: its source-text form (`Text.bytesQuote`), its reading as UTF-8 text
(`Text.utf8?`), and the decoding of base64 data (`Text.base64`).

`Text.utf8?` accepts exactly the well-formed UTF-8 sequences: no overlong forms, no surrogate codes
and nothing above `0x10ffff`.

`Text.base64` is the lenient decoding: characters outside the base64 alphabet are skipped, a `=`
counts only after two characters of a group, and two pads (or one after three characters) end the
data. Data that stops inside a group is refused: with one character over, as an impossible length;
with two or three, as a padding error.
-/

namespace TradeDesk.Text

/-- The source-text form of a byte string: `b` and the bytes between quotes, chosen as for texts,
with the quote and the backslash escaped, tab, line feed and carriage return by name, and every other
byte outside the printable ASCII range as `\xhh`. -/
def bytesQuote (bs : List UInt8) : String :=
  let has := fun (c : Nat) => bs.any (·.toNat == c)
  let q := if has 39 && !has 34 then '"' else '\''
  let esc := fun (b : UInt8) =>
    let n := b.toNat
    if n == q.toNat || n == 92 then "\\" ++ String.singleton (Char.ofNat n)
    else if n == 9 then "\\t"
    else if n == 10 then "\\n"
    else if n == 13 then "\\r"
    else if n < 32 || n ≥ 127 then "\\x" ++ hex 2 n
    else String.singleton (Char.ofNat n)
  "b" ++ String.singleton q ++ String.join (bs.map esc) ++ String.singleton q

/-- Whether a byte continues a UTF-8 sequence, and the six bits it carries. -/
def continuation? (b : UInt8) : Option Nat :=
  if 0x80 ≤ b.toNat && b.toNat < 0xc0 then some (b.toNat - 0x80) else none

/-- The characters of well-formed UTF-8 data. -/
def utf8Chars : List UInt8 → Option (List Char)
  | [] => some []
  | b :: rest =>
    let n := b.toNat
    if n < 0x80 then (Char.ofNat n :: ·) <$> utf8Chars rest
    else if 0xc2 ≤ n && n < 0xe0 then
      match rest with
      | c1 :: more => do
        let x ← continuation? c1
        (Char.ofNat ((n - 0xc0) * 64 + x) :: ·) <$> utf8Chars more
      | [] => none
    else if 0xe0 ≤ n && n < 0xf0 then
      match rest with
      | c1 :: c2 :: more => do
        let x ← continuation? c1
        let y ← continuation? c2
        let code := ((n - 0xe0) * 64 + x) * 64 + y
        if code < 0x800 || (0xd800 ≤ code && code < 0xe000) then none
        else (Char.ofNat code :: ·) <$> utf8Chars more
      | _ => none
    else if 0xf0 ≤ n && n < 0xf5 then
      match rest with
      | c1 :: c2 :: c3 :: more => do
        let x ← continuation? c1
        let y ← continuation? c2
        let z ← continuation? c3
        let code := (((n - 0xf0) * 64 + x) * 64 + y) * 64 + z
        if code < 0x10000 || code > 0x10ffff then none
        else (Char.ofNat code :: ·) <$> utf8Chars more
      | _ => none
    else none

/-- Well-formed UTF-8 data as text. -/
def utf8? (bs : List UInt8) : Option String := String.ofList <$> utf8Chars bs

/-- The value of a character of the base64 alphabet. -/
def base64Digit (b : UInt8) : Option Nat :=
  let n := b.toNat
  if 65 ≤ n && n ≤ 90 then some (n - 65)
  else if 97 ≤ n && n ≤ 122 then some (n - 71)
  else if 48 ≤ n && n ≤ 57 then some (n + 4)
  else if n == 43 then some 62
  else if n == 47 then some 63
  else none

/-- Why base64 data does not decode. -/
inductive Base64Error where
  /-- The data stops one character into a group; the count is of the characters read. -/
  | overByOne (count : Nat)
  /-- The data stops two or three characters into a group. -/
  | padding

/-- The wording of a base64 error. -/
def Base64Error.message : Base64Error → String
  | .overByOne n => "Invalid base64-encoded string: number of data characters (" ++ toString n ++
      ") cannot be 1 more than a multiple of 4"
  | .padding => "Incorrect padding"

/-- Decodes the rest of base64 data: `group` characters of the current group are read, `carry` holds
their bits not yet written, `pads` counts the pads met since, and `out` is the bytes so far,
last first. -/
def base64From : List UInt8 → Nat → Nat → Nat → List UInt8 → Except Base64Error (List UInt8)
  | [], group, _, _, out =>
    if group == 0 then .ok out.reverse
    else if group == 1 then .error (.overByOne (out.length / 3 * 4 + 1))
    else .error .padding
  | b :: rest, group, carry, pads, out =>
    if b.toNat == 61 then
      if group ≥ 2 then
        if group + (pads + 1) ≥ 4 then .ok out.reverse
        else base64From rest group carry (pads + 1) out
      else base64From rest group carry pads out
    else match base64Digit b with
      | none => base64From rest group carry pads out
      | some v =>
        match group with
        | 0 => base64From rest 1 v 0 out
        | 1 => base64From rest 2 (v % 16) 0 (UInt8.ofNat (carry * 4 + v / 16) :: out)
        | 2 => base64From rest 3 (v % 4) 0 (UInt8.ofNat (carry * 16 + v / 4) :: out)
        | _ => base64From rest 0 0 0 (UInt8.ofNat (carry * 64 + v) :: out)

/-- The bytes of base64 data (see the module note). -/
def base64 (data : List UInt8) : Except Base64Error (List UInt8) := base64From data 0 0 0 []

end TradeDesk.Text
