import Grunt.Foundation.Bytes

/-! # Paths

Lexical cleaning of slash-separated paths, and the percent-decoding of their
segments.
-/

namespace Grunt.Foundation.Path

def slash : UInt8 := 47

def dot : ByteString := [46]

def dotDot : ByteString := [46, 46]

def components (path : ByteString) : List ByteString := path.splitOn slash

def isRooted (path : ByteString) : Bool := path.head? = some slash

/-- One component of a path on top of the cleaned ones before it, the last of
which comes first. -/
def cleanStep (rooted : Bool) (stack : List ByteString) (component : ByteString) :
    List ByteString :=
  if component = [] ∨ component = dot then stack
  else if component = dotDot then
    match stack with
    | [] => if rooted then [] else [dotDot]
    | top :: rest => if top = dotDot then dotDot :: stack else rest
  else component :: stack

def cleanComponents (path : ByteString) : List ByteString :=
  ((components path).foldl (cleanStep (isRooted path)) []).reverse

/-- `path.Clean`, and `filepath.Clean` where the separator is a slash. -/
def clean (path : ByteString) : ByteString :=
  if isRooted path then slash :: [slash].intercalate (cleanComponents path)
  else
    match cleanComponents path with
    | [] => dot
    | parts => [slash].intercalate parts

/-- `filepath.Join` -/
def join (elements : List ByteString) : ByteString :=
  match elements.filter fun element => element ≠ [] with
  | [] => []
  | present => clean ([slash].intercalate present)

example : clean (utf8 "/a/./b/../../../c/") = utf8 "/c" := by decide

example : join [utf8 "grunt/emotes", utf8 "../a.png"] = utf8 "grunt/a.png" := by decide

/-- `filepath.Base` -/
def base (path : ByteString) : ByteString :=
  if path = [] then dot
  else
    match path.reverse.dropWhile fun byte => byte = slash with
    | [] => [slash]
    | trimmed => (trimmed.takeWhile fun byte => byte ≠ slash).reverse

example : base (utf8 "a/b.png//") = utf8 "b.png" := by decide

/-! ## Percent-decoding -/

def unhex (byte : UInt8) : Option UInt8 :=
  if 48 ≤ byte && byte ≤ 57 then some (byte - 48)
  else if 97 ≤ byte && byte ≤ 102 then some (byte - 87)
  else if 65 ≤ byte && byte ≤ 70 then some (byte - 55)
  else none

/-- `url.PathUnescape` -/
def unescape : ByteString → Option ByteString
  | [] => some []
  | 37 :: first :: second :: rest =>
      match unhex first, unhex second with
      | some high, some low => (unescape rest).map fun tail => (high * 16 + low) :: tail
      | _, _ => none
  | byte :: rest => if byte = 37 then none else (unescape rest).map fun tail => byte :: tail

example : unescape (utf8 "a%2Fb") = some (utf8 "a/b") := by decide

def isPathByte (byte : UInt8) : Bool :=
  (97 ≤ byte && byte ≤ 122) || (65 ≤ byte && byte ≤ 90) || (48 ≤ byte && byte ≤ 57) ||
    (utf8 "-_.~$&+,/:;=@").contains byte

def upperHexDigit (digit : UInt8) : UInt8 := if digit < 10 then 48 + digit else 55 + digit

/-- `EscapedPath` of a URL of which only the path is given. -/
def escape (path : ByteString) : ByteString :=
  path.flatMap fun byte =>
    if isPathByte byte then [byte]
    else [37, upperHexDigit (byte / 16), upperHexDigit (byte % 16)]

example : escape (utf8 "/é%41/b") = utf8 "/%C3%A9%2541/b" := by decide

end Grunt.Foundation.Path
