import ServiceRegistry.Key.Endpoint
import ServiceRegistry.Text.JsonString

/-!
# Endpoint descriptors

The value stored under an endpoint key: a JSON object that holds the address and no metadata, in the
form that naming resolvers read. `decode?` is a reader for objects of this form.
-/
namespace ServiceRegistry

namespace Descriptor

def opening : List Char := '\x7b' :: "\"Addr\":\"".toList

def closing : List Char := ",\"Metadata\":null\x7d".toList

/-- The descriptor of an address. -/
def encode (address : String) : String :=
  String.ofList (opening ++ (Text.JsonString.escape address.toList ++ ('"' :: closing)))

/-- The address that a descriptor without metadata holds. -/
def decode? (value : String) : Option String := do
  let body ← opening.isPrefixOf? value.toList
  let (address, rest) ← Text.JsonString.unescape body
  if rest = closing then some (String.ofList address) else none

example : encode "h:1" = "\x7b\"Addr\":\"h:1\",\"Metadata\":null\x7d" := by decide +kernel

end Descriptor

/-- The value that is stored for an instance. -/
def EndpointKey.descriptor (key : EndpointKey) : String := Descriptor.encode key.address

end ServiceRegistry
