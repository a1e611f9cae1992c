import Conveyor.Destination.Address
import Conveyor.Destination.Call
import Conveyor.Json.Reader
import Conveyor.Text.LetterCase

/-!
# REST destinations

A call becomes one HTTP request to a configured connection, and the reply to it a result. A header
of the call wins over one of the connection, and a token is used only if neither names an
authorization. The user of an address wins over all of them. What cannot be sent is found in the
order in which a request is put together: address, headers, query, body, host.
-/

namespace Conveyor

/-- How a REST destination is reached. -/
structure RestConnection where
  baseUrl : String
  method : HttpMethod := .post
  headers : Keyed String := []
  authToken : Option String := none
  timeout : Binary64 := .ofInt 30

open Schema in
def RestConnection.read (fs : Fields) : Checked RestConnection :=
  RestConnection.mk
    <$> required fs "base_url" text
    <*> withDefault fs "method" (choice HttpMethod.all HttpMethod.name) .post
    <*> withDefault fs "headers" (objectOf text) []
    <*> optional fs "auth_token" text
    <*> withDefault fs "timeout" number (.ofInt 30)

structure HttpRequest where
  method : String
  address : Address
  headers : List (String × String)
  /-- The JSON document that is sent; none for an empty body. -/
  body : Option Value

def HttpRequest.url (r : HttpRequest) : String := r.address.render

/-- The texts of headers by their names in lower case; texts of one name are joined. -/
def HttpRequest.headerTexts (r : HttpRequest) : Keyed String :=
  r.headers.foldl (fun m (name, text) =>
    let name := name.toLower
    match m.get? name with
    | some before => m.put name (before ++ ", " ++ text)
    | none => m.put name text) []

/-- What comes back for a request: a status with a text, or the words of a failure. -/
inductive HttpReply where
  | response (status : Int) (text : String)
  | failure (message : String)

namespace RestConnection

/-- A text without slashes at its end. -/
def dropEndSlashes (s : String) : List Char := (s.toList.reverse.dropWhile (· = '/')).reverse

/-- The text of the address of a path below the connection's. -/
def addressText (c : RestConnection) (path : Option String) : List Char :=
  match path.filter fun p => !p.isEmpty with
  | some p => dropEndSlashes c.baseUrl ++ '/' :: p.toList.dropWhile (· = '/')
  | none => c.baseUrl.toList

/-- The method of a call: its own, or the connection's. -/
def requestMethod (c : RestConnection) (r : RestRequest) : String :=
  match r.method.filter fun m => !m.isEmpty with
  | some m => Text.upper m
  | none => Text.upper c.method.name

def authorization : String := "Authorization"

/-- The headers of a request; of two of one spelling the call's wins. -/
def requestHeaders (c : RestConnection) (r : RestRequest) : Keyed String :=
  let headers := Keyed.merge c.headers r.headers
  match c.authToken.filter fun t => !t.isEmpty with
  | some t =>
    if headers.has authorization then headers else headers.put authorization ("Bearer " ++ t)
  | none => headers

/-- The authorization of a user. -/
def basic (name password : String) : String :=
  "Basic " ++ String.ofList (Text.base64 (Text.bytesOf (name ++ ":" ++ password)))

/-- Headers with the authorization of the user of an address in the place of any other. -/
def authorized (a : Address) (headers : Keyed String) : Keyed String :=
  match a.credentials? with
  | some (name, password) =>
    (headers.filter fun (k, _) => k.toLower ≠ authorization.toLower)
      ++ [(authorization, basic name password)]
  | none => headers

/-- Whether all characters of a text are plain. -/
def isPlain (s : String) : Bool := Host.isPlain s.toList

/-- Why a request cannot say which host it is for, unless a header says so: its host starts with the
mark of a plain form but is none, or a zone of it is not plain. -/
def hostFault? (a : Address) (headers : Keyed String) : Option Fault :=
  if headers.any fun (k, _) => k.toLower = "host" then none
  else if ['x', 'n', '-', '-'].isPrefixOf a.host then (Text.hostNameProblem? a.host).map .hostName
  else if Host.isPlain a.host then none
  else some .unencodable

/-- The answer to a call whose address is none. -/
def orRefused {α : Type} (x : Except Address.Problem α) : Except Answer α :=
  x.mapError fun problem => .result (CallResult.refused problem.message)

/-- The request of a call, or the answer if none can be sent. A body that is fetched goes into the
query, if it is an object. -/
def httpRequest (c : RestConnection) (r : RestRequest) : Except Answer HttpRequest := do
  let method := c.requestMethod r
  let isGet : Bool := method = "GET"
  let address ← orRefused (Address.read (c.addressText r.path))
  let address ← orRefused address.anchored
  let headers := c.requestHeaders r
  if !headers.all fun (k, v) => isPlain k && isPlain v then throw (.fault .unencodable)
  let address ← match r.body, isGet with
    | .object fs, true => orRefused (address.withQuery (Address.queryOf fs))
    | _, _ => pure address
  let body := if isGet || r.body.isNull then none else some r.body
  if body.any Value.holdsNonFinite then throw (.fault .badValue)
  match hostFault? address headers with
  | some fault => throw (.fault fault)
  | none => pure { method, address, headers := authorized address headers, body }

end RestConnection

namespace HttpReply

/-- The data of a reply: a document if its text is one, or else the text. -/
def data (s : String) : Value := (Json.readBytes? (Text.bytesOf s)).getD (.text s)

/-- The answer to a request. Every status from 200 to 299 is a success. A response from no host at
all is a fault. -/
def answer (request : HttpRequest) : HttpReply → Answer
  | .failure message => .result (CallResult.refused message)
  | .response status s =>
    let error :=
      if 200 ≤ status ∧ status < 300 then none
      else some s!"{request.method} {request.url} returned HTTP {status}"
    if request.address.isRelative then .fault .badValue
    else .result { success := error.isNone, httpStatus := some status, error, data := data s }

end HttpReply

/-- Connections by the number of their destination. -/
abbrev RestConnections := List (Int × RestConnection)

namespace RestConnections

def get? (cs : RestConnections) (id : Int) : Option RestConnection :=
  (cs.find? fun (n, _) => n = id).map (·.2)

/-- The request that a call leads to, or the answer if nothing is sent. -/
def prepare (cs : RestConnections) (ref : DestinationRef) (request : Request) :
    Except Answer HttpRequest :=
  match request with
  | .statement _ => .error (.result (CallResult.refused "REST destinations take requests"))
  | .rest r =>
    match cs.get? ref.id with
    | none => .error (.result (CallResult.refused s!"no connection configured for {ref.text}"))
    | some c => c.httpRequest r

end RestConnections
end Conveyor
