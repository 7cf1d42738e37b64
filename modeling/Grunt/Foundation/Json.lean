import Grunt.Foundation.Unicode

/-! # Reading JSON

The first JSON value of a text, and what is stored in a struct of strings from
an object. What follows the value is not looked at.
-/

namespace Grunt.Foundation

inductive Json
  | null
  | bool (value : Bool)
  | number
  | string (text : ByteString)
  | array (values : List Json)
  | object (members : List (ByteString × Json))

namespace Json

def isSpace (byte : UInt8) : Bool := byte = 32 || byte = 9 || byte = 10 || byte = 13

def skipSpace (text : ByteString) : ByteString := text.dropWhile isSpace

def hexValue (byte : UInt8) : Option Nat :=
  if 48 ≤ byte && byte ≤ 57 then some (byte.toNat - 48)
  else if 97 ≤ byte && byte ≤ 102 then some (byte.toNat - 87)
  else if 65 ≤ byte && byte ≤ 70 then some (byte.toNat - 55)
  else none

/-! ## Strings -/

/-- What stands between the quotes: a byte, or a code unit written in hex. -/
inductive Element
  | byte (value : UInt8)
  | unit (code : Nat)

def shortEscape (byte : UInt8) : Option UInt8 :=
  if byte = 34 ∨ byte = 92 ∨ byte = 47 then some byte
  else if byte = 98 then some 8
  else if byte = 102 then some 12
  else if byte = 110 then some 10
  else if byte = 114 then some 13
  else if byte = 116 then some 9
  else none

def readElements : ByteString → Option (List Element × ByteString)
  | [] => none
  | 34 :: rest => some ([], rest)
  | 92 :: 117 :: first :: second :: third :: fourth :: rest => do
      let code := (← hexValue first) * 4096 + (← hexValue second) * 256 +
        (← hexValue third) * 16 + (← hexValue fourth)
      let (elements, rest) ← readElements rest
      some (.unit code :: elements, rest)
  | 92 :: escaped :: rest => do
      let byte ← shortEscape escaped
      let (elements, rest) ← readElements rest
      some (.byte byte :: elements, rest)
  | byte :: rest =>
      if byte < 32 ∨ byte = 92 then none
      else do
        let (elements, rest) ← readElements rest
        some (.byte byte :: elements, rest)

def isHigh (code : Nat) : Bool := 0xD800 ≤ code && code < 0xDC00
def isLow (code : Nat) : Bool := 0xDC00 ≤ code && code < 0xE000

def encodeUnit (code : Nat) : ByteString :=
  if isHigh code || isLow code then Bytes.replacementRune else Unicode.encode code

def assemble : List Element → ByteString
  | [] => []
  | .byte value :: rest => value :: assemble rest
  | .unit high :: .unit low :: rest =>
      if isHigh high && isLow low then
        Unicode.encode ((high - 0xD800) * 1024 + (low - 0xDC00) + 0x10000) ++ assemble rest
      else encodeUnit high ++ assemble (.unit low :: rest)
  | .unit code :: rest => encodeUnit code ++ assemble rest

def readString (text : ByteString) : Option (ByteString × ByteString) := do
  let (elements, rest) ← readElements text
  some (Bytes.toValidUTF8 (assemble elements), rest)

/-! ## Values -/

def readExponent : ByteString → Option ByteString
  | 101 :: rest | 69 :: rest =>
      let digits := match rest with
        | 43 :: digits | 45 :: digits => digits
        | digits => digits
      if (digits.head?.any Bytes.isDigit) then some (digits.dropWhile Bytes.isDigit) else none
  | rest => some rest

def readFraction : ByteString → Option ByteString
  | 46 :: digits =>
      if digits.head?.any Bytes.isDigit then readExponent (digits.dropWhile Bytes.isDigit)
      else none
  | rest => readExponent rest

def readNumber (text : ByteString) : Option ByteString :=
  match (match text with
    | 45 :: digits => digits
    | digits => digits) with
  | 48 :: rest => readFraction rest
  | byte :: rest =>
      if Bytes.isDigit byte then readFraction (rest.dropWhile Bytes.isDigit) else none
  | [] => none

def readLiteral (text : ByteString) : Option (Json × ByteString) :=
  if Bytes.hasPrefix (utf8 "null") text then some (.null, text.drop 4)
  else if Bytes.hasPrefix (utf8 "true") text then some (.bool true, text.drop 4)
  else if Bytes.hasPrefix (utf8 "false") text then some (.bool false, text.drop 5)
  else (readNumber text).map fun rest => (.number, rest)

/- A value is read from a shorter text than the array or object it is in, so
twice the length is enough fuel. The depth is how far values may be nested. -/
mutual

def readValue : Nat → Nat → ByteString → Option (Json × ByteString)
  | 0, _, _ => none
  | fuel + 1, depth, text =>
      match skipSpace text, depth with
      | 34 :: rest, _ => do
          let (text, rest) ← readString rest
          some (.string text, rest)
      | 91 :: _, 0 | 123 :: _, 0 => none
      | 91 :: rest, depth + 1 =>
          match skipSpace rest with
          | 93 :: rest => some (.array [], rest)
          | rest => do
              let (values, rest) ← readValues fuel depth rest
              some (.array values, rest)
      | 123 :: rest, depth + 1 =>
          match skipSpace rest with
          | 125 :: rest => some (.object [], rest)
          | rest => do
              let (members, rest) ← readMembers fuel depth rest
              some (.object members, rest)
      | text, _ => readLiteral text

def readValues : Nat → Nat → ByteString → Option (List Json × ByteString)
  | 0, _, _ => none
  | fuel + 1, depth, text => do
      let (value, rest) ← readValue fuel depth text
      match skipSpace rest with
      | 44 :: rest => do
          let (values, rest) ← readValues fuel depth rest
          some (value :: values, rest)
      | 93 :: rest => some ([value], rest)
      | _ => none

def readMembers : Nat → Nat → ByteString → Option (List (ByteString × Json) × ByteString)
  | 0, _, _ => none
  | fuel + 1, depth, text =>
      match skipSpace text with
      | 34 :: rest => do
          let (name, rest) ← readString rest
          match skipSpace rest with
          | 58 :: rest => do
              let (value, rest) ← readValue fuel depth rest
              match skipSpace rest with
              | 44 :: rest => do
                  let (members, rest) ← readMembers fuel depth rest
                  some ((name, value) :: members, rest)
              | 125 :: rest => some ([(name, value)], rest)
              | _ => none
          | _ => none
      | _ => none

end

def maxNestingDepth : Nat := 10000

def read (text : ByteString) : Option (Json × ByteString) :=
  readValue (2 * text.length + 2) maxNestingDepth text

/-! ## Structs of strings -/

/-- Names are compared in upper case. Two characters beyond ASCII have an upper
case in it. -/
def foldName : ByteString → ByteString
  | 0xC5 :: 0xBF :: rest => 83 :: foldName rest
  | 0xE2 :: 0x84 :: 0xAA :: rest => 75 :: foldName rest
  | byte :: rest => (if 97 ≤ byte && byte ≤ 122 then byte - 32 else byte) :: foldName rest
  | [] => []

def fieldNamed (names : List ByteString) (name : ByteString) : Option ByteString :=
  if names.contains name then some name
  else names.find? fun field => foldName field = foldName name

def storeMember (names : List ByteString) (fields : ByteString → Option ByteString)
    (member : ByteString × Json) : Option (ByteString → Option ByteString) :=
  match fieldNamed names member.1, member.2 with
  | none, _ => some fields
  | some _, .null => some fields
  | some field, .string text =>
      some fun name => if name = field then some text else fields name
  | some _, _ => none

def decodeStrings (names : List ByteString) (text : ByteString) :
    Option (ByteString → Option ByteString) :=
  match read text with
  | some (.null, _) => some fun _ => none
  | some (.object members, _) => members.foldlM (storeMember names) fun _ => none
  | _ => none

/-! ## Texts without escapes -/

def Plain (byte : UInt8) : Prop := 32 ≤ byte ∧ byte < 0x80 ∧ byte ≠ 34 ∧ byte ≠ 92

instance : DecidablePred Plain := fun _ => inferInstanceAs (Decidable (_ ∧ _))

section Plain

variable {name text rest : ByteString}

theorem readElements_plain (plain : ∀ byte ∈ text, Plain byte) :
    readElements (text ++ 34 :: rest) = some (text.map .byte, rest) := by
  induction text with
  | nil => rfl
  | cons byte text induction =>
      rcases plain byte List.mem_cons_self with ⟨printable, -, unquoted, unescaped⟩
      have later := induction fun other member => plain other (List.mem_cons_of_mem byte member)
      rw [List.cons_append, readElements]
      · simp [UInt8.not_lt.mpr printable, unescaped, later]
      · exact unquoted
      · intro _ _ _ _ _ same
        exact absurd same unescaped
      · intro _ _ same
        exact absurd same unescaped

theorem assemble_plain (text : ByteString) : assemble (text.map .byte) = text := by
  induction text with
  | nil => rfl
  | cons byte text induction => rw [List.map_cons, assemble, induction]

theorem readString_plain (plain : ∀ byte ∈ text, Plain byte) :
    readString (text ++ 34 :: rest) = some (text, rest) := by
  have ascii : Bytes.toValidUTF8 text = text :=
    Bytes.toValidUTF8_of_ascii fun byte member => (plain byte member).2.1
  rw [readString, readElements_plain plain]
  simp [assemble_plain, ascii]

theorem skipSpace_cons {byte : UInt8} (solid : isSpace byte = false) :
    skipSpace (byte :: rest) = byte :: rest := by
  rw [skipSpace, List.dropWhile_cons_of_neg (by simp [solid])]

theorem quote_solid : isSpace 34 = false := by decide
theorem colon_solid : isSpace 58 = false := by decide
theorem brace_solid : isSpace 125 = false := by decide

end Plain

end Json

end Grunt.Foundation
