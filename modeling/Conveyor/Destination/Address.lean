import Conveyor.Destination.Host
import Conveyor.Text.Number
import Conveyor.Text.Quoted
import Conveyor.Value.Display

/-!
# Addresses

Web addresses in their normal form: no port that the scheme implies, no dot segments in the path,
and every character that may not stand in its part as percent escapes of its bytes. An address
without a scheme or without a host is relative, a path on no host at all.
-/

namespace Conveyor

/-- An address in its normal form. The host of hexadecimal groups is held without its brackets. -/
structure Address where
  scheme : List Char := []
  user : List Char := []
  host : List Char := []
  port : Option Int := none
  path : List Char := []
  query : Option (List Char) := none
  fragment : Option (List Char) := none

namespace Address

/-- The parts of an address as they are written. -/
structure Written where
  scheme : List Char
  authority : List Char
  path : List Char
  query : Option (List Char)
  fragment : Option (List Char)

/-- The characters up to one of several, and the rest, which starts with it. -/
def upTo (stops : List Char) (cs : List Char) : List Char × List Char :=
  (cs.takeWhile fun c => !stops.contains c, cs.dropWhile fun c => !stops.contains c)

def isSchemeChar (c : Char) : Bool := c.isAlphanum || c = '+' || c = '.' || c = '-'

/-- The scheme of an address, which may be empty, and what follows its colon. -/
def readScheme (cs : List Char) : List Char × List Char :=
  let name := cs.takeWhile isSchemeChar
  match cs.drop name.length with
  | ':' :: rest => if name.head?.all Char.isAlpha then (name, rest) else ([], cs)
  | _ => ([], cs)

def readAuthority : List Char → List Char × List Char
  | '/' :: '/' :: rest => upTo ['/', '?', '#'] rest
  | cs => ([], cs)

/-- What follows a mark up to a stop. -/
def readMarked (mark : Char) (stops : List Char) : List Char → Option (List Char) × List Char
  | c :: rest =>
    if c = mark then
      let (part, rest) := upTo stops rest
      (some part, rest)
    else (none, c :: rest)
  | [] => (none, [])

def Written.read (cs : List Char) : Written :=
  let (scheme, rest) := readScheme cs
  let (authority, rest) := readAuthority rest
  let (path, rest) := upTo ['?', '#'] rest
  let (query, rest) := readMarked '?' ['#'] rest
  let (fragment, _) := readMarked '#' [] rest
  ⟨scheme, authority, path, query, fragment⟩

/-- What an authority consists of, as it is written. -/
structure Authority where
  user : List Char
  host : List Char
  port : List Char

/-- The host of an authority and what follows it; a host in brackets reaches to the last of them. -/
def readHost (cs : List Char) : List Char × List Char :=
  let bracketed := (cs.reverse.dropWhile (· ≠ ']')).reverse
  if cs.head? = some '[' && !bracketed.isEmpty then (bracketed, cs.drop bracketed.length)
  else upTo [':'] cs

/-- The user reaches to the last at sign. -/
def Authority.read (cs : List Char) : Authority :=
  let behind := (cs.reverse.takeWhile (· ≠ '@')).reverse
  let (host, rest) := readHost behind
  ⟨cs.take (cs.length - behind.length - 1), host,
    if rest.head? = some ':' then rest.drop 1 else rest⟩

/-- Why a text is no address. -/
inductive Problem where
  | tooLong
  | partTooLong (name : String)
  | unprintable (c : Char) (position : Nat)
  | badHost (host : List Char) (why : Host.Problem)
  | badPort (port : List Char)
  | relativePath (start : String)
  deriving DecidableEq, Repr

def Problem.message : Problem → String
  | .tooLong => "URL too long"
  | .partTooLong name => s!"URL component '{name}' too long"
  | .unprintable c position =>
    let shown := Text.quoted (String.ofList [c])
    s!"Invalid non-printable ASCII character in URL, {shown} at position {position}."
  | .badHost host why => s!"Invalid {why.what}: {Text.quoted (String.ofList host)}"
  | .badPort port => "Invalid port: " ++ Text.quoted (String.ofList port)
  | .relativePath start => s!"Relative URLs cannot have a path starting with '{start}'"

/-- The port that a scheme implies. -/
def impliedPort? (scheme : List Char) : Option Int :=
  match String.ofList scheme with
  | "http" | "ws" => some 80
  | "https" | "wss" => some 443
  | "ftp" => some 21
  | _ => none

/-- The port that is written in an address, unless the scheme as it is written implies it. -/
def normalPort (scheme port : List Char) : Except Problem (Option Int) :=
  if port.isEmpty then .ok none
  else match Text.readInteger? (String.ofList port) with
    | some n => .ok (if impliedPort? scheme = some n then none else some n)
    | none => .error (.badPort port)

/-- Take dot segments out; `output` holds the segments so far, last first. -/
def dropDots (output : List (List Char)) : List (List Char) → List (List Char)
  | [] => output.reverse
  | ['.'] :: rest => dropDots output rest
  | ['.', '.'] :: rest =>
    dropDots (if output = [[]] then output else output.drop 1) rest
  | segment :: rest => dropDots (segment :: output) rest

def normalPath (path : List Char) : List Char :=
  Text.joinChars '/' (dropDots [] (Text.splitChars '/' path))

/-- How a path may not start on no host: with what would be read as another part. -/
def relativeStart? : List Char → Option String
  | '/' :: '/' :: _ => some "//"
  | ':' :: _ => some ":"
  | _ => none

/-- The normal form of an address. Dot segments below nothing stay. -/
def ofWritten (w : Written) : Except Problem Address := do
  let a := Authority.read w.authority
  let host ← (Host.normal a.host).mapError (Problem.badHost a.host)
  let port ← normalPort w.scheme a.port
  let isRooted := !w.scheme.isEmpty || !a.user.isEmpty || !host.isEmpty || port.isSome
  match relativeStart? w.path, isRooted with
  | some start, false => .error (.relativePath start)
  | _, _ =>
    .ok {
      scheme := w.scheme.map Char.toLower
      user := Percent.encode Percent.isUserSafe a.user
      host, port
      path := Percent.encode Percent.isPathSafe (if isRooted then normalPath w.path else w.path)
      query := w.query.map (Percent.encode Percent.isQuerySafe)
      fragment := w.fragment.map (Percent.encode Percent.isFragmentSafe) }

def isControl (c : Char) : Bool := c.toNat < 0x20 || c.toNat = 0x7F

/-- The first control character of a text, and where it stands. -/
def findControl (position : Nat) : List Char → Option (Char × Nat)
  | [] => none
  | c :: rest => if isControl c then some (c, position) else findControl (position + 1) rest

/-- The most characters of an address and of each of its parts. -/
def maxLength : Nat := 65536

/-- The address that a text writes. -/
def read (cs : List Char) : Except Problem Address :=
  if maxLength < cs.length then .error .tooLong
  else match findControl 0 cs with
    | some (c, position) => .error (.unprintable c position)
    | none => ofWritten (.read cs)

/-- User, host and port. -/
def authority (a : Address) : List Char :=
  (if a.user.isEmpty then [] else a.user ++ ['@']) ++ Host.render a.host
    ++ match a.port with
      | some n => ':' :: (toString n).toList
      | none => []

/-- A part behind its mark, if it is there. -/
def marked (mark : Char) : Option (List Char) → List Char
  | some part => mark :: part
  | none => []

def render (a : Address) : String :=
  String.ofList ((if a.scheme.isEmpty then [] else a.scheme ++ [':'])
    ++ (if a.authority.isEmpty then [] else '/' :: '/' :: a.authority)
    ++ a.path ++ marked '?' a.query ++ marked '#' a.fragment)

/-- An address put together from parts, each of which is brought into normal form again. -/
def ofParts (w : Written) : Except Problem Address :=
  let parts := [("scheme", some w.scheme), ("authority", some w.authority), ("path", some w.path),
    ("query", w.query), ("fragment", w.fragment)]
  match parts.find? fun (_, part) => part.any (maxLength < ·.length) with
  | some (name, _) => .error (.partTooLong name)
  | none => ofWritten w

/-- Whether an address does not say where to connect. -/
def isRelative (a : Address) : Bool := a.scheme.isEmpty || a.host.isEmpty

/-- An address that does not say where to connect, as a path on no host. -/
def anchored (a : Address) : Except Problem Address :=
  if a.isRelative then ofParts ⟨[], [], '/' :: a.path.dropWhile (· = '/'), a.query, none⟩
  else .ok a

/-- The address with another query. -/
def withQuery (a : Address) (query : Option (List Char)) : Except Problem Address :=
  ofParts ⟨a.scheme, a.authority, a.path, query, a.fragment⟩

/-- The name and the password of an address that has a user. -/
def credentials? (a : Address) : Option (String × String) :=
  let (name, password) := Text.cutChars ':' a.user
  let name := Percent.decode name
  let password := Percent.decode (password.getD [])
  if name.isEmpty && password.isEmpty then none else some (name, password)

/-- A value in a query. -/
def fieldText : Value → String
  | .bool b => if b then "true" else "false"
  | .null => ""
  | v => v.displayed

/-- The pairs of names and texts that an object becomes in a query; a list gives one for each of
its items. -/
def queryPairs (fs : Fields) : List (String × String) :=
  fs.flatMap fun (k, v) => match v with
    | .list items => items.map fun i => (k, fieldText i)
    | v => [(k, fieldText v)]

/-- The query of an object; that of an empty one is none. -/
def queryOf (fs : Fields) : Option (List Char) :=
  if fs.isEmpty then none else some (joinPairs (queryPairs fs))
where
  joinPairs : List (String × String) → List Char
    | [] => []
    | [(k, v)] => pairText k v
    | (k, v) :: rest => pairText k v ++ '&' :: joinPairs rest
  pairText (k v : String) : List Char := Percent.encodeField k ++ '=' :: Percent.encodeField v

end Address
end Conveyor
