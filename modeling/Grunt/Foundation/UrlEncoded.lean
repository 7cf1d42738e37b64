import Grunt.Foundation.Json

/-! # Form encoding

The pairs of a text in `application/x-www-form-urlencoded`.
-/

namespace Grunt.Foundation

namespace UrlEncoded

def unescape : ByteString → Option ByteString
  | [] => some []
  | 37 :: high :: low :: rest => do
      let value := (← Json.hexValue high) * 16 + (← Json.hexValue low)
      some (UInt8.ofNat value :: (← unescape rest))
  | 37 :: _ => none
  | 43 :: rest => do some (32 :: (← unescape rest))
  | byte :: rest => do some (byte :: (← unescape rest))

def readPair (text : ByteString) : Option (ByteString × ByteString) :=
  if 59 ∈ text then none
  else do
    let name ← unescape (text.takeWhile (· ≠ 61))
    let value ← unescape (text.dropWhile (· ≠ 61)).tail
    some (name, value)

/-- `defaultMaxParams` of `net/url`. -/
def maxParams : Nat := 10000

/-- `url.ParseQuery`, where it finds no error. -/
def parse (text : ByteString) : Option (List (ByteString × ByteString)) :=
  if maxParams < text.count 38 + 1 then none
  else ((text.splitOn 38).filter (· ≠ [])).mapM readPair

end UrlEncoded

end Grunt.Foundation
