import Grunt.Foundation.Bytes

/-! # Media types

`mime.ParseMediaType`, for the type alone: of the parameters it says only whether
they can be read.
-/

namespace Grunt.Foundation

namespace MediaType

/-! ## White space -/

def spaceWidth : ByteString → Nat
  | 0xC2 :: 0x85 :: _ => 2
  | 0xC2 :: 0xA0 :: _ => 2
  | 0xE1 :: 0x9A :: 0x80 :: _ => 3
  | 0xE2 :: 0x80 :: last :: _ =>
      if last ≤ 0x8A && 0x80 ≤ last || last = 0xA8 || last = 0xA9 || last = 0xAF then 3 else 0
  | 0xE2 :: 0x81 :: 0x9F :: _ => 3
  | 0xE3 :: 0x80 :: 0x80 :: _ => 3
  | byte :: _ => if 9 ≤ byte && byte ≤ 13 || byte = 32 then 1 else 0
  | [] => 0

def spaceWidthReversed (text : ByteString) : Nat :=
  if spaceWidth (text.take 1) = 1 then 1
  else if spaceWidth (text.take 2).reverse = 2 then 2
  else if spaceWidth (text.take 3).reverse = 3 then 3
  else 0

def dropPieces (width : ByteString → Nat) : Nat → ByteString → ByteString
  | 0, text => text
  | fuel + 1, text =>
      if width text = 0 then text else dropPieces width fuel (text.drop (width text))

/-- `strings.TrimLeftFunc(text, unicode.IsSpace)` -/
def trimLeft (text : ByteString) : ByteString := dropPieces spaceWidth text.length text

/-- `strings.TrimSpace` -/
def trimSpace (text : ByteString) : ByteString :=
  let left := trimLeft text
  (dropPieces spaceWidthReversed left.length left.reverse).reverse

/-! ## Tokens -/

def isTSpecial (byte : UInt8) : Bool := (utf8 "()<>@,;:\\\"/[]?=").contains byte

def isTokenChar (byte : UInt8) : Bool := 0x20 < byte && byte < 0x7F && !isTSpecial byte

def consumeToken (text : ByteString) : ByteString × ByteString := text.span isTokenChar

/-- `checkMediaTypeDisposition` finds no error. -/
def checkMediaTypeDisposition (text : ByteString) : Bool :=
  let (type, rest) := consumeToken text
  match type, rest with
  | [], _ => false
  | _, [] => true
  | _, 47 :: rest =>
      let (subtype, rest) := consumeToken rest
      subtype ≠ [] && rest = []
  | _, _ => false

/-- A quoted string, from behind the quotation mark. A backslash is literal unless
it stands before a special character. -/
def consumeQuoted (escaped : Bool) : ByteString → Option (ByteString × ByteString)
  | [] => none
  | byte :: rest =>
      if escaped then (consumeQuoted false rest).map fun read => (byte :: read.1, read.2)
      else if byte = 34 then some ([], rest)
      else if byte = 92 && rest.head?.any isTSpecial then consumeQuoted true rest
      else if byte = 13 || byte = 10 then none
      else (consumeQuoted false rest).map fun read => (byte :: read.1, read.2)

def consumeValue : ByteString → Option (ByteString × ByteString)
  | [] => none
  | 34 :: rest => consumeQuoted false rest
  | text =>
      let (token, rest) := consumeToken text
      if token = [] then none else some (token, rest)

def consumeMediaParam (text : ByteString) : Option (ByteString × ByteString × ByteString) :=
  match trimLeft text with
  | 59 :: rest =>
      let (name, rest) := consumeToken (trimLeft rest)
      match name, trimLeft rest with
      | _ :: _, 61 :: rest =>
          (consumeValue (trimLeft rest)).map fun read => (Bytes.toLower name, read)
      | _, _ => none
  | _ => none

/-- The parameters can be read, and no name has two values. Each takes a semicolon
at least, so the length is fuel enough. -/
def parseParams : Nat → List (ByteString × ByteString) → ByteString → Bool
  | 0, _, text => text = []
  | fuel + 1, seen, text =>
      let text := trimLeft text
      if text = [] then true
      else match consumeMediaParam text with
        | none => trimSpace text = [59]
        | some (name, value, rest) =>
            match seen.lookup name with
            | some earlier => earlier = value && parseParams fuel seen rest
            | none => parseParams fuel ((name, value) :: seen) rest

/-- `mime.ParseMediaType`, where it finds no error. -/
def parse (text : ByteString) : Option ByteString :=
  let base := text.takeWhile (· ≠ 59)
  let mediaType := trimSpace (Bytes.toLower base)
  if checkMediaTypeDisposition mediaType && parseParams text.length [] (text.drop base.length)
  then some mediaType
  else none

example : parse (utf8 "Text/HTML ; charset=\"utf-8\";") = some (utf8 "text/html") := by
  decide +kernel

end MediaType

end Grunt.Foundation
