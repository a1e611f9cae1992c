import Conveyor.Schema.Scalar
import Conveyor.Statement

/-!
# Calls to destinations

What is sent to a destination and what comes back. A destination reports failure as a result; only
a broken adapter answers with a fault.
-/

namespace Conveyor

/-- A REST call. Without a method of its own it uses the destination's. -/
structure RestRequest where
  method : Option String := none
  path : Option String := none
  body : Value := .null
  headers : Keyed String := []

inductive Request where
  | rest (r : RestRequest)
  | statement (s : Statement)

open Schema in
def DestinationRef.read (fs : Fields) : Checked DestinationRef :=
  DestinationRef.mk
    <$> required fs "kind" (choice DestinationKind.all DestinationKind.name)
    <*> required fs "id" integer

open Schema in
def RestRequest.read (fs : Fields) : Checked RestRequest :=
  RestRequest.mk
    <$> optional fs "method" text
    <*> optional fs "path" text
    <*> withDefault fs "body" anything .null
    <*> withDefault fs "headers" (objectOf text) []

open Schema in
def Statement.read (fs : Fields) : Checked Statement :=
  Statement.mk
    <$> required fs "text" Schema.text
    <*> withDefault fs "params" (listOf anything) []

/-- The document of a request, with all its fields. -/
def Request.document : Request → Value
  | .rest r =>
    let optional : Option String → Value
      | some s => .text s
      | none => .null
    .object [("method", optional r.method), ("path", optional r.path), ("body", r.body),
      ("headers", .object (r.headers.mapValues .text))]
  | .statement s => .object [("text", .text s.text), ("params", .list s.params)]

/-- The values of a request that can have any form, in the order in which they are written. -/
def Request.freeValues : Request → List Value
  | .rest r => [r.body]
  | .statement s => s.params

structure CallResult where
  success : Bool
  rowsAffected : Option Int := none
  httpStatus : Option Int := none
  error : Option String := none
  data : Value := .null

namespace CallResult

/-- A call that failed before anything was sent. -/
def refused (error : String) : CallResult := { success := false, error := some error }

open Schema in
def read (fs : Fields) : Checked CallResult :=
  CallResult.mk
    <$> required fs "success" flag
    <*> optional fs "rows_affected" integer
    <*> optional fs "http_status" integer
    <*> optional fs "error" text
    <*> withDefault fs "data" anything .null

end CallResult

/-- How a call ends. -/
inductive Answer where
  | result (r : CallResult)
  | fault (f : Fault)

end Conveyor
