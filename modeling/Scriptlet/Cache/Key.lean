import Scriptlet.Sha256
import Scriptlet.Signature

/-!
Cache keys. A key holds the whole source and the identities of the two types, so two snippets never
share an entry by accident; the fingerprint is a short digest of it for log lines. What is digested
is the source and the two type names with a zero byte between each two, from which the three can be
read back as long as the type names hold no zero.
-/

namespace Scriptlet

structure CacheKey (τ : Type) where
  source : String
  signature : Signature τ
  deriving Repr, DecidableEq

namespace CacheKey

variable {τ : Type} [TypeNames τ]

/-- Three texts with a zero byte between each two. -/
def encode (source context result : String) : List UInt8 :=
  source.toUTF8.toList ++ 0 :: (context.toUTF8.toList ++ 0 :: result.toUTF8.toList)

def message (key : CacheKey τ) : List UInt8 :=
  encode key.source (TypeNames.name key.signature.context)
    (TypeNames.name key.signature.result)

/-- The first twelve hexadecimal digits of the digest. -/
def fingerprint (key : CacheKey τ) : String :=
  String.ofList ((Sha256.hexDigits (Sha256.digest key.message)).take 12)

def text (key : CacheKey τ) : String :=
  key.fingerprint ++ " " ++ key.signature.text

end CacheKey

end Scriptlet
