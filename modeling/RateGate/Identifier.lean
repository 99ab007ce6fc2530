import RateGate.Bytes
import RateGate.Word

/-!
# Identifiers

Requests are counted in buckets, and a bucket is named by a 64-bit identifier. A key such as an
address or a user name gets the FNV-1a hash of its bytes: a fold that mixes in one byte at a time,
so the identifier of a key is computed from that of any beginning of it (`ofBytes_append`).
-/

namespace RateGate

/-- The name of a bucket. -/
abbrev Identifier := Word

namespace Identifier

/-- The bucket of requests that are not told apart. -/
def shared : Identifier := 0

/-- What the hash of the empty key is. -/
def basis : Identifier := 0xcbf29ce484222325

def multiplier : Identifier := 0x100000001b3

/-- Mix one byte into a hash. -/
def absorb (hash : Identifier) (b : UInt8) : Identifier :=
  (hash ^^^ b.toUInt64) * multiplier

/-- The identifier of a key given by its bytes. -/
def ofBytes (key : List UInt8) : Identifier := key.foldl absorb basis

/-- The identifier of a text key. -/
def ofText (key : String) : Identifier := ofBytes (utf8 key)

theorem ofBytes_append (key more : List UInt8) :
    ofBytes (key ++ more) = more.foldl absorb (ofBytes key) :=
  List.foldl_append

end Identifier

end RateGate
