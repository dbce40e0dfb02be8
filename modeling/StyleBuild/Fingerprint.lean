import StyleBuild.Digest.Sha256
import StyleBuild.Digest.Hex

/-!
# Fingerprints

The fingerprint of a content is the SHA-256 digest of its bytes as hexadecimal
text. A fingerprint that was read back from a record may be any text, so the
type does not promise the form.
-/

namespace StyleBuild

structure Fingerprint where
  text : String
  deriving DecidableEq, Repr

/-- The fingerprint of exactly the bytes that are stored. -/
def Fingerprint.of (content : ByteArray) : Fingerprint :=
  ⟨Digest.hexText (Digest.sha256 content.toList)⟩

end StyleBuild
