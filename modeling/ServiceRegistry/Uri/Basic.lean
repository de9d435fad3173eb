import ServiceRegistry.Error
import ServiceRegistry.Uri.Authority

/-!
# URIs

The URIs at which instances of services are dialed: the scheme `http`, an authority, a path and
perhaps a query. A fragment is read over and forgotten. `text` writes a URI with a path in any case.

Reading follows the generic syntax of URIs, with the liberties that readers of HTTP take: characters
beyond ASCII may stand as they are in a path or a query, and so may some that would have to be encoded.
-/
namespace ServiceRegistry

/-- A URI of the scheme `http`. -/
structure Uri where
  authority : String
  path : String
  query : Option String
  deriving DecidableEq, Repr

namespace Uri

/-- What every URI starts with. -/
def scheme : String := "http://"

/-- The longest URI in bytes. Places in a text are kept in 16 bits, and the largest of these numbers stands
for a part that is not there. -/
def maxSize : Nat := 65534

/-- Characters that end an authority, because a path, a query or a fragment begins with them. -/
def isDelimiter (c : Char) : Bool := c = '/' || c = '?' || c = '#'

/-- Characters of a query. Of those of ASCII they are the visible ones, without the mark of a fragment and
without the quotation mark and the angle brackets, which have to be encoded. -/
def isQueryChar (c : Char) : Bool :=
  -- before the quotation mark, from behind the mark of a fragment to the angle brackets, between them
  c = '!' || ('$' ≤ c && c ≤ ';') || c = '='
    -- behind the angle brackets to the end of the visible characters, and beyond ASCII
    || ('?' ≤ c && c ≤ '~') || '\u0080' ≤ c

/-- Characters of a path. Of those of ASCII they are the visible ones, without the marks of a query and of
a fragment and without the angle brackets and the grave accent. The quotation mark and the braces have to be
encoded too, but are let through, because there are senders that leave them as they are. -/
def isPathChar (c : Char) : Bool :=
  -- up to the mark of a fragment, from behind it to the angle brackets, between them
  c = '!' || c = '"' || ('$' ≤ c && c ≤ ';') || c = '='
    -- from behind the mark of a query to the grave accent, from there with the braces, and beyond ASCII
    || ('@' ≤ c && c ≤ '_') || ('a' ≤ c && c ≤ '~') || '\u0080' ≤ c

/-- The URI that a text is. -/
def parse (text : String) : Except Error Uri :=
  -- A URI begins with its scheme, and two slashes announce an authority.
  match scheme.toList.isPrefixOf? text.toList with
  | none => .error .invalidUri
  | some rest =>
    -- The authority ends where a path, a query or a fragment begins, or with the text.
    let (authority, rest) := rest.span fun c => !isDelimiter c
    -- The path ends where a query or a fragment begins. It may be empty.
    let (path, rest) := rest.span fun c => c ≠ '?' && c ≠ '#'
    -- The query ends where a fragment begins. The fragment is for the sender alone and is not looked at.
    let query := match rest with
      | '?' :: cs => some (cs.takeWhile (· ≠ '#'))
      | _ => none
    if decide (text.utf8ByteSize ≤ maxSize) && isAuthority authority && path.all isPathChar
        && (query.getD []).all isQueryChar then
      .ok ⟨String.ofList authority, String.ofList path, query.map String.ofList⟩
    else .error .invalidUri

/-- The URI of an address. -/
def ofAddress (address : String) : Except Error Uri := parse (scheme ++ address)

def text (uri : Uri) : String :=
  scheme ++ uri.authority ++ (if uri.path = "" then "/" else uri.path) ++
    match uri.query with
    | some query => "?" ++ query
    | none => ""

end Uri

end ServiceRegistry
