import WriteGate.Fingerprint
import WriteGate.Text.Newline

/-!
# Source files

A source file as it enters the evaluation: where it was found, its size and
fingerprint, and its content as text. The content is text only if *all* of its
bytes are well-formed UTF-8; one bad sequence anywhere makes the whole content
undecodable, for a text with holes could hide a write.
-/

namespace WriteGate

/-- What the bytes of a file say. -/
inductive Content
  /-- Well-formed text, with every line end a line feed. -/
  | text (content : String)
  /-- Bytes that are no text. How they fail does not matter. -/
  | undecodable
deriving DecidableEq, Repr, Inhabited

/-- **Decoding is strict**: the bytes must be UTF-8 as a whole. The text is brought to
line feeds. -/
def Content.ofBytes (bytes : ByteArray) : Content :=
  match String.fromUTF8? bytes with
  | some decoded => .text (String.ofList (Text.normalize decoded.toList))
  | none => .undecodable

/-- A source file that was read. -/
structure SourceFile where
  /-- The path as it was given. -/
  path : String
  /-- The number of bytes. -/
  size : Nat
  /-- The fingerprint of the bytes. -/
  sha256 : String
  /-- What the bytes say. -/
  content : Content
deriving Repr, Inhabited

/-- The source file of some bytes under a path. -/
def SourceFile.ofBytes (path : String) (bytes : ByteArray) : SourceFile where
  path := path
  size := bytes.size
  sha256 := Fingerprint.ofBytes bytes
  content := Content.ofBytes bytes

end WriteGate
