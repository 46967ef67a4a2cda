/-! Endpoints that metrics can be sent to: addresses with an optional scheme, an authority, a path
and a query. An address without a scheme is an authority alone. -/
namespace TenantQueue.Telemetry

inductive EndpointFault where
  | tooLong | empty | schemeTooLong | character | authority | format
  deriving DecidableEq, Repr

def EndpointFault.message : EndpointFault → String
  | .tooLong => "uri too long"
  | .empty => "empty string"
  | .schemeTooLong => "scheme too long"
  | .character => "invalid uri character"
  | .authority => "invalid authority"
  | .format => "invalid format"

namespace Endpoint

def isSchemeChar (c : Char) : Bool := c.isAlphanum || c ∈ ['+', '-', '.', '~']

def isAddressChar (c : Char) : Bool := c.isAlphanum || c ∈ "!#$&'()*+,-./:;=?@[]_~".toList

def afterScheme (s : List Char) : Except EndpointFault (Option (List Char)) :=
  let lower := s.map Char.toLower
  if lower.take 7 = "http://".toList then .ok (some (s.drop 7))
  else if lower.take 8 = "https://".toList then .ok (some (s.drop 8))
  else
    let scheme := s.takeWhile isSchemeChar
    match s.dropWhile isSchemeChar with
    | ':' :: '/' :: '/' :: rest =>
      if s.length ≤ 3 then .ok none
      else if 64 < scheme.length then .error .schemeTooLong else .ok (some rest)
    | _ => .ok none

/-- What was seen of an authority so far. A bracketed host or the end of the user's name makes the
colons and percent signs before it forgotten. -/
structure Authority where
  colons : Nat := 0
  opened : Bool := false
  closed : Bool := false
  percent : Bool := false
  /-- The last character was an at sign. -/
  atSign : Bool := false

def scanAuthority (a : Authority) : List Char → Except EndpointFault (Authority × List Char)
  | [] => .ok (a, [])
  | c :: rest =>
    if c ∈ ['/', '?', '#'] then .ok (a, c :: rest)
    else if c = ':' then
      if 8 ≤ a.colons then .error .authority
      else scanAuthority { a with colons := a.colons + 1, atSign := false } rest
    else if c = '[' then
      if a.percent || a.opened then .error .authority
      else scanAuthority { a with opened := true, atSign := false } rest
    else if c = ']' then
      if !a.opened || a.closed then .error .authority
      else
        scanAuthority { a with closed := true, colons := 0, percent := false, atSign := false } rest
    else if c = '@' then scanAuthority { a with colons := 0, percent := false, atSign := true } rest
    else if c = '%' then scanAuthority { a with percent := true, atSign := false } rest
    else if isAddressChar c then scanAuthority { a with atSign := false } rest
    else .error .character

def afterAuthority (s : List Char) : Except EndpointFault (List Char) := do
  let (a, rest) ← scanAuthority {} s
  if a.opened != a.closed || 1 < a.colons || a.atSign || a.percent then .error .authority
  else .ok rest

def isPathChar (c : Char) : Bool := '!' ≤ c && c ∉ ['#', '<', '>', '?', '\x60', '\x7f']

def isQueryChar (c : Char) : Bool := '!' ≤ c && c ∉ ['"', '#', '<', '>', '\x7f']

def queryFault (s : List Char) : Option EndpointFault :=
  if (s.takeWhile (· ≠ '#')).all isQueryChar then none else some .character

def pathFault (s : List Char) : Option EndpointFault :=
  let path := s.takeWhile fun c => c ≠ '?' && c ≠ '#'
  if path.all isPathChar then
    match s.drop path.length with
    | '?' :: query => queryFault query
    | _ => none
  else some .character

def absoluteFault (s : List Char) : Option EndpointFault :=
  match afterScheme s with
  | .error e => some e
  | .ok scheme =>
    let address := scheme.getD s
    if address = [] then some .empty
    else match afterAuthority address with
    | .error e => some e
    | .ok rest =>
      if scheme.isNone then if rest = [] then none else some .format
      else if rest.length = address.length then some .format
      else pathFault rest

def fault? (endpoint : String) : Option EndpointFault :=
  if 65534 < endpoint.utf8ByteSize then some .tooLong
  else match endpoint.toList with
    | [] => some .empty
    | ['*'] => none
    | [c] =>
      if c = '/' then none
      else match afterAuthority [c] with
        | .error e => some e
        | .ok rest => if rest = [] then none else some .character
    | '/' :: rest => pathFault ('/' :: rest)
    | s => absoluteFault s

end Endpoint

end TenantQueue.Telemetry
