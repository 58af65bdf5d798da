import Templating.Digest.Sha256
import Templating.Fault
import Templating.Value.Json

/-!
# Cache keys

Rendered texts are stored under the digest of their template and configuration. The bytes that
are digested are the template, a zero byte, and the canonical JSON of the configuration, so that
the order of keys in a mapping does not matter.

## Main definitions

* `keyBytes`: the bytes that are digested.
* `cacheKey`: the key of a template and a configuration.
-/

namespace Templating

/-- The bytes of a list of characters in UTF-8. -/
def utf8Bytes (cs : List Char) : List UInt8 :=
  cs.flatMap String.utf8EncodeChar

/-- The bytes that identify a template with a configuration: the template, a zero byte, and the
compact text of the configuration in canonical form (`Value.canonical`). -/
def keyBytes (template : String) (configuration : Value) : List UInt8 :=
  utf8Bytes template.toList ++ 0 :: utf8Bytes (Json.compactChars configuration.canonical)

/-- The key of a template with a configuration, a digest of its `keyBytes`. A configuration with an
integer that is too long has none. -/
def cacheKey (template : String) (configuration : Value) : Except Fault String :=
  if configuration.hasOverlongInteger then .error .integerTooLong
  else .ok (Sha256.hexDigest (keyBytes template configuration))

end Templating
