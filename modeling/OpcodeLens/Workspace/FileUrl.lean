import OpcodeLens.Workspace.Path

/-!
# File addresses

An absolute path is addressed by a `file` URL. Bytes that have no place in a URL path are written as
`%` and two hexadecimal digits.
-/

namespace OpcodeLens

namespace FileUrl

/-! ### Encoding -/

/-- Does the byte stand for itself in a path component? -/
def isLiteral (b : UInt8) : Bool :=
  let reserved := ['"', '#', '%', '<', '>', '?', Char.ofNat 0x60, '\x7b', '\x7d', '\\']
  0x21 ≤ b.toNat && b.toNat < 0x7F && !reserved.elem (Char.ofNat b.toNat)

/-- An upper case hexadecimal digit. -/
def hexChar (n : Nat) : Char := (Nat.digitChar n).toUpper

/-- A byte in a path component. -/
def encodeByte (b : UInt8) : Text :=
  if isLiteral b then [Char.ofNat b.toNat]
  else ['%', hexChar (b.toNat / 16), hexChar (b.toNat % 16)]

/-- A path component. -/
def encode (component : Text) : Text :=
  component.flatMap fun c => (String.utf8EncodeChar c).flatMap encodeByte

/-- The address of a file; a relative path has none. -/
def ofPath? (path : Text) : Option Text :=
  if Path.isAbsolute path then
    let parts := (Path.components path).flatMap fun part => '/' :: encode part
    some ("file://".toList ++ if parts.isEmpty then ['/'] else parts)
  else none

/-! ### Decoding -/

/-- The bytes of a text in which `%` and two hexadecimal digits stand for a byte. -/
def decodeBytes : Text → List UInt8
  | '%' :: a :: b :: rest =>
    match Text.hexDigit? a, Text.hexDigit? b with
    | some x, some y => (16 * x + y).toUInt8 :: decodeBytes rest
    | _, _ => 0x25 :: decodeBytes (a :: b :: rest)
  | c :: rest => String.utf8EncodeChar c ++ decodeBytes rest
  | [] => []

/-- The path that a `file` URL without a host addresses. -/
def toPath? (url : Text) : Option Text :=
  match Text.dropHead? "file://".toList url with
  | none => none
  | some rest =>
    if Path.isAbsolute rest then
      let path := rest.takeWhile fun c => c ≠ '?' && c ≠ '#'
      (String.fromUTF8? ⟨(decodeBytes path).toArray⟩).map String.toList
    else none

end FileUrl

end OpcodeLens
