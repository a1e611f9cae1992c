import Conveyor.Json.Printer
import Conveyor.Moment.Iso
import Conveyor.Pipeline.Reading

/-!
# Queues

Lists of texts under names: what is put in at the head is taken out at the tail, so that each list
is first in, first out. Records travel as JSON; a record whose payload cannot be written is not put
in, and a text that is not the document of a record is thrown away when it is taken out.
-/

namespace Conveyor

/-- An offset to whole minutes; there is a letter for that of universal time. -/
def Moment.zoneText (offset : Int) : List Char :=
  let seconds := offset / Moment.secondMicros
  let minutes := seconds.natAbs / 60
  if seconds = 0 then ['Z']
  else (if seconds < 0 then '-' else '+') :: Moment.padded 2 (minutes / 60) ++ ':' ::
    Moment.padded 2 (minutes % 60)

/-- The moment in the ISO form that records carry. -/
def Moment.recordText (m : Moment) : String :=
  String.ofList (Moment.writeDate m.date ++ 'T' :: m.writeTime
    ++ (match m.offset with
      | some offset => Moment.zoneText offset
      | none => []))

/-- The document of a record. -/
def InboundRecord.document (r : InboundRecord) : Value :=
  .object [("dataId", .text r.dataId), ("sourceType", .text r.sourceKind.name),
    ("sourceId", .int r.sourceId), ("payload", .object r.payload),
    ("host", match r.host with
      | some h => .text h
      | none => .null),
    ("receivedAt", .text r.receivedAt.recordText)]

/-- The text of a record. The values of its payload are gone through first; whatever is wrong with one
of them, the record cannot be written. -/
def InboundRecord.documentText (r : InboundRecord) : Except Fault String := do
  (Value.descendAll (Fields.values r.payload)).mapError fun _ => .unwritable
  pure (Json.write .compact r.document)

/-- Lists of texts under names. -/
abbrev Queues := Keyed (List String)

namespace Queues

def list (q : Queues) (name : String) : List String := (q.get? name).getD []

/-- Put a text in at the head of a list. -/
def push (q : Queues) (name text : String) : Queues := q.put name (text :: q.list name)

/-- Take a text out at the tail of a list. -/
def pop? (q : Queues) (name : String) : Option (String × Queues) :=
  match (q.list name).getLast? with
  | some text => some (text, q.put name (q.list name).dropLast)
  | none => none

/-- Put in the text of a record. -/
def publish (q : Queues) (name : String) (r : InboundRecord) : Except Fault Queues := do
  pure (q.push name (← r.documentText))

/-- The texts of a list in the order in which they are taken out. -/
def texts (q : Queues) (name : String) : List String := (q.list name).reverse

/-- The list emptied. -/
def clear (q : Queues) (name : String) : Queues := q.put name []

/-- Where the ids of records that have none come from. -/
abbrev IdSource (σ : Type) := σ → String × σ

/-- A record from its text, if it is one. -/
def readRecord {σ : Type} (drawId : IdSource σ) (receivedAt : Moment) (s : String) (st : σ) :
    Option InboundRecord × σ :=
  match Json.readWith? .strict s with
  | none => (none, st)
  | some v =>
    let (id, drawn) := drawId st
    ((InboundRecord.ofText id receivedAt s).toOption,
      if InboundRecord.lacksDataId v then drawn else st)

/-- Read records from texts, passing over what is no record. -/
def records {σ : Type} (drawId : IdSource σ) (receivedAt : Moment) :
    List String → σ → List InboundRecord × σ
  | [], st => ([], st)
  | s :: rest, st =>
    let (r, st) := readRecord drawId receivedAt s st
    let (more, st) := records drawId receivedAt rest st
    (r.toList ++ more, st)

/-- The seconds after which taking from an empty list is given up. -/
def popTimeout : Binary64 := .ofInt 1

/-- The time when a lifespan is found to be over, if an empty list is tried again and again. -/
def closingTime (lifespan : Binary64) (fuel : Nat) (t : Binary64) : Binary64 :=
  match fuel with
  | 0 => t
  | fuel + 1 => if lifespan.le t then t else closingTime lifespan fuel (t.add popTimeout)

/-- What a subscription to a list comes to. -/
structure Subscription where
  received : List InboundRecord
  elapsed : Binary64
  left : Queues

/-- Take all records out of a list, and wait for more until the lifespan is over. -/
def subscribe {σ : Type} (drawId : IdSource σ) (receivedAt : Moment) (lifespan : Binary64)
    (name : String) (q : Queues) (st : σ) : Subscription × σ :=
  if lifespan.le .zero then (⟨[], .zero, q⟩, st)
  else
    let (received, st) := records drawId receivedAt (q.texts name) st
    (⟨received, closingTime lifespan (lifespan.truncate.toNat + 1) .zero, q.clear name⟩, st)

end Queues
end Conveyor
