import Conveyor.Proofs.Json.Nesting
import Conveyor.Proofs.Moment.Civil
import Conveyor.Proofs.Pipeline.RoundTrip

/-!
# First in, first out

Producers put texts into lists and subscriptions take them out, one move after another and in any
order. What the subscriptions of a list take out is what was put into it, in the same order, and they
yield the records among those texts (`yields_in_push_order`). A published record is such a text, unless
its payload is nested too deeply to be read (`deep_discarded`). What is nested still deeper cannot be
written either, and nothing is put in for it.
-/

/-!
## Documents of records

A record is read back from its document if a document can hold what is in it, unless the reader takes
its payload for nested too deeply. Whether a text is the document of a record does not depend on what
stands for the fields that it leaves out.
-/

namespace Conveyor

open Schema

/-! ### What fits -/

namespace Checked

variable {α β : Type}

/-- There is a value. -/
def isFit : Checked α → Bool
  | .fits _ => true
  | .misfits _ => false

theorem isFit_map (f : α → β) (x : Checked α) : (f <$> x).isFit = x.isFit := by
  cases x <;> rfl

theorem isFit_seq (f : Checked (α → β)) (x : Checked α) :
    (f <*> x).isFit = (f.isFit && x.isFit) := by
  cases f <;> cases x <;> rfl

theorem toOption_eq_none_iff {x : Checked α} : x.toOption = none ↔ x.isFit = false := by
  cases x <;> simp [toOption, isFit]

end Checked

/-- Whether a field fits does not depend on its default. -/
theorem isFit_withDefault {α : Type} (fs : Fields) (name : String) (read : Reading α) (a b : α) :
    (withDefault fs name read a).isFit = (withDefault fs name read b).isFit := by
  unfold withDefault fieldNamed
  cases find? fs name (plainName name) <;> rfl

namespace InboundRecord

/-- The text is the document of a record, whatever stands for what it leaves out. -/
def IsDocumentText (s : String) : Prop := ∃ id now r, ofText id now s = .fits r

theorem isFit_ofText (s : String) (id id' : String) (now now' : Moment) :
    (ofText id now s).isFit = (ofText id' now' s).isFit := by
  unfold ofText
  cases Json.readWith? .strict s with
  | none => rfl
  | some v =>
    cases v with
    | object fs =>
      simp only [record, readWith, Checked.isFit_seq, Checked.isFit_map,
        isFit_withDefault fs "dataId" text id id',
        isFit_withDefault fs "receivedAt" momentInText now now']
    | _ => rfl

/-- A text is refused exactly if it is not the document of a record. -/
theorem toOption_ofText_eq_none_iff {s : String} (id : String) (now : Moment) :
    (ofText id now s).toOption = none ↔ ¬ IsDocumentText s := by
  rw [Checked.toOption_eq_none_iff]
  constructor
  · rintro hfit ⟨id', now', r, hr⟩
    rw [isFit_ofText s id id' now now', hr] at hfit
    cases hfit
  · intro h
    cases hr : ofText id now s with
    | fits r => exact absurd ⟨id, now, r, hr⟩ h
    | misfits => rfl

/-! ### Reading back -/

/-- A document can hold the record and give it back. -/
structure IsPortable (r : InboundRecord) : Prop where
  sourceId : (decimalDigits r.sourceId.natAbs).length ≤ Json.maxDigits
  payload : (Value.object r.payload).isPortable = true
  receivedAt : r.receivedAt.IsCivil

/-- How many containers with items in them stand inside each other in the document. -/
def nesting (r : InboundRecord) : Nat := 1 + (Value.object r.payload).nesting

variable {r : InboundRecord}

theorem nesting_document (r : InboundRecord) : r.document.nesting = r.nesting := by
  unfold document nesting
  cases r.host <;> simp [Value.nesting, Value.fieldsNesting]

theorem IsPortable.document (h : r.IsPortable) :
    r.document.isLegible Json.Style.compact.words = true := by
  have hpayload := h.payload
  rw [Value.isPortable_eq] at hpayload
  unfold InboundRecord.document
  generalize Value.object r.payload = payload at hpayload
  cases r.host <;>
    simp [Value.isLegible, Value.fieldsAreLegible, Json.Style.compact, Keyed.keys, h.sourceId,
      hpayload]

theorem compact_isRegular : Json.Style.compact.IsRegular :=
  ⟨⟨rfl, List.forall_mem_nil _⟩, ⟨rfl, List.forall_mem_nil _⟩⟩

theorem objectOf_anything (fs : Fields) : objectOf anything (.object fs) = .fits fs := by
  have hfits : (fs.map fun f => ((anything f.2).map (f.1, ·)).within (.field f.1)) =
      fs.map Checked.fits := rfl
  rw [objectOf, hfits, all_fits]

section Fields

variable {α : Type} {fs : Fields} {name : String} {v : Value} {read : Reading α} {a : α}

theorem required_of_get? (h : fs.get? name = some v) (hread : read v = .fits a) :
    required fs name read = .fits a := by
  simp [required, fieldNamed, find?, h, hread, Checked.within]

theorem withDefault_of_get? (default : α) (h : fs.get? name = some v) (hread : read v = .fits a) :
    withDefault fs name read default = .fits a := by
  simp [withDefault, fieldNamed, find?, h, hread, Checked.within]

end Fields

/-- The text of a host, if there is one. -/
def hostValue : Option String → Value
  | some h => .text h
  | none => .null

/-- An object that has the fields of a record is read as the record. -/
theorem readWith_fits {fs : Fields} (received : r.receivedAt.IsCivil)
    (hdataId : fs.get? "dataId" = some (.text r.dataId))
    (hkind : fs.get? "sourceType" = some (.text r.sourceKind.name))
    (hsourceId : fs.get? "sourceId" = some (.int r.sourceId))
    (hpayload : fs.get? "payload" = some (.object r.payload))
    (hhost : fs.get? "host" = some (hostValue r.host))
    (hreceivedAt : fs.get? "receivedAt" = some (.text r.receivedAt.recordText))
    (id : String) (now : Moment) : readWith momentInText id now fs = .fits r := by
  have hmoment : momentInText (.text r.receivedAt.recordText) = .fits r.receivedAt := by
    rw [momentInText, moment, Moment.momentOfText_recordText received]
    intro n hn
    cases hn
  have hhosts : nullable text (hostValue r.host) = .fits r.host := by
    cases r.host <;> rfl
  have htext : text (.text r.dataId) = .fits r.dataId := rfl
  have hinteger : integer (.int r.sourceId) = .fits r.sourceId := rfl
  rw [readWith, Schema.optional, withDefault_of_get? id hdataId htext,
    required_of_get? hkind (sourceKind_fits r.sourceKind), required_of_get? hsourceId hinteger,
    withDefault_of_get? [] hpayload (objectOf_anything r.payload),
    withDefault_of_get? none hhost hhosts, withDefault_of_get? now hreceivedAt hmoment]
  rfl

theorem readWith_document (h : r.receivedAt.IsCivil) (id : String) (now : Moment) :
    record (readWith momentInText id now) r.document = .fits r := by
  unfold record document
  refine readWith_fits h rfl rfl rfl rfl ?_ rfl id now
  cases r.host <;> rfl

theorem documentText_eq_ok_iff {s : String} : r.documentText = .ok s ↔
    (∀ v ∈ Fields.values r.payload, v.depth ≤ Value.maxDepth ∧ v.holdsSealed = false) ∧
      s = Json.write .compact r.document := by
  rw [← Value.descendAll_eq_ok_iff, documentText]
  cases Value.descendAll (Fields.values r.payload) with
  | error f => exact iff_of_false nofun fun h => nomatch h.1
  | ok _ => exact ⟨fun h => ⟨rfl, (Except.ok.inj h).symm⟩, fun h => congrArg _ h.2.symm⟩

theorem IsPortable.holdsSealed (h : r.IsPortable) {v : Value} (hv : v ∈ Fields.values r.payload) :
    v.holdsSealed = false := by
  have hreadable := Value.isReadable_of_isLegible (Value.isPortable_eq _ ▸ h.payload)
  rw [Value.isReadable_eq, Bool.and_eq_true, Bool.not_eq_true', Value.holdsSealed,
    Value.fieldsHoldSealed_eq, List.any_eq_false] at hreadable
  exact Bool.eq_false_iff.mpr (hreadable.2 v hv)

/-- A portable record that can be read back can be written. -/
theorem exists_documentText (h : r.IsPortable) (hle : r.nesting ≤ Json.maxNesting) :
    ∃ s, r.documentText = .ok s := by
  refine ⟨_, documentText_eq_ok_iff.mpr ⟨fun v hv => ⟨?_, h.holdsSealed hv⟩, rfl⟩⟩
  have hdepth : (Value.object r.payload).depth ≤ (Value.object r.payload).nesting + 1 :=
    Value.depth_le _
  have hfields := Value.depth_le_fieldsDepth hv
  rw [Value.depth] at hdepth
  simp only [nesting, Json.maxNesting, Value.maxDepth] at hle ⊢
  omega

/-- A portable record is read back from its document, unless it is nested too deeply. -/
theorem ofText_documentText {s : String} (h : r.IsPortable) (hs : r.documentText = .ok s)
    (id : String) (now : Moment) :
    ofText id now s = if r.nesting ≤ Json.maxNesting then .fits r else .refuse .notJson := by
  obtain rfl := (documentText_eq_ok_iff.mp hs).2
  have hread : Json.readWith? .strict (Json.write .compact r.document) =
      if r.nesting ≤ Json.maxNesting then some r.document else none := by
    have hstrict := Json.readWith?_strict compact_isRegular h.document
    rwa [nesting_document] at hstrict
  rw [ofText, hread]
  by_cases hle : r.nesting ≤ Json.maxNesting
  · simp only [if_pos hle]
    exact readWith_document h.receivedAt id now
  · simp only [if_neg hle]

end InboundRecord
end Conveyor

namespace Conveyor.Queues

/-! ## Moves -/

/-- What a producer or a subscription does next. -/
inductive Move where
  /-- Put any text in. -/
  | push (list text : String)
  | publish (list : String) (r : InboundRecord)
  /-- Take a text out, if there is one, and read it at that time. -/
  | take (list : String) (now : Moment)

/-- A text that was taken out of a list, with the record that the subscription yields of it. -/
structure Taken where
  list : String
  text : String
  record : Option InboundRecord

/-- The lists, and what the ids are drawn from. -/
structure Broker (σ : Type) where
  queues : Queues
  ids : σ

variable {σ : Type} (drawId : IdSource σ)

def Move.carryOut (b : Broker σ) : Move → Option Taken × Broker σ
  | .push list text => (none, { b with queues := b.queues.push list text })
  | .publish list r =>
    match b.queues.publish list r with
    | .ok queues => (none, { b with queues })
    | .error _ => (none, b)
  | .take list now =>
    match b.queues.pop? list with
    | none => (none, b)
    | some (text, queues) =>
      let read := readRecord drawId now text b.ids
      (some ⟨list, text, read.1⟩, ⟨queues, read.2⟩)

/-- What is taken out in the course of some moves, and what they leave behind. -/
def play : List Move → Broker σ → List Taken × Broker σ
  | [], b => ([], b)
  | move :: rest, b =>
    let first := move.carryOut drawId b
    let more := play rest first.2
    (first.1.toList ++ more.1, more.2)

/-- The text that a move puts into a list, if it puts in any. -/
def Move.textFor? (name : String) : Move → Option String
  | .push list text => if list = name then some text else none
  | .publish list r => if list = name then r.documentText.toOption else none
  | .take .. => none

/-- The texts that are put into a list, in order. -/
def pushed (name : String) (moves : List Move) : List String :=
  moves.filterMap (Move.textFor? name)

/-- The texts that are taken out of a list, in order. -/
def takenFrom (name : String) (taken : List Taken) : List String :=
  (taken.filter (·.list = name)).map (·.text)

/-- A subscription yields the record that a text is the document of. It discards a text that is not
the document of a record, and the document of a record that is nested too deeply. -/
structure Taken.IsFaithful (t : Taken) : Prop where
  read : ∃ id now, t.record = (InboundRecord.ofText id now t.text).toOption
  discarded : t.record = none ↔ ¬ InboundRecord.IsDocumentText t.text
  published : ∀ r : InboundRecord, r.IsPortable → r.documentText = .ok t.text →
    t.record = if r.nesting ≤ Json.maxNesting then some r else none

/-! ## Lists -/

variable {q q' : Queues} {name other text : String} {b : Broker σ} {now : Moment}

theorem texts_push (q : Queues) (list text name : String) :
    (q.push list text).texts name = q.texts name ++ if list = name then [text] else [] := by
  by_cases h : list = name
  · subst h
    simp [texts, push, Queues.list, Keyed.get?_put_same]
  · simp [texts, push, Queues.list, Keyed.get?_put_other _ _ (Ne.symm h), h]

/-- What is taken out of a list was the first of its texts, and the other lists stay as they are. -/
theorem texts_of_pop? (h : q.pop? name = some (text, q')) :
    q.texts name = text :: q'.texts name ∧ ∀ other ≠ name, q'.texts other = q.texts other := by
  unfold pop? at h
  cases hlast : (q.list name).getLast? with
  | none => simp [hlast] at h
  | some last =>
    simp only [hlast, Option.some.injEq, Prod.mk.injEq] at h
    obtain ⟨rfl, rfl⟩ := h
    constructor
    · have hsplit : q.list name = (q.list name).dropLast ++ [last] :=
        (List.dropLast_append_getLast? last hlast).symm
      have hleft : texts (q.put name (q.list name).dropLast) name =
          (q.list name).dropLast.reverse := by
        simp [texts, list, Keyed.get?_put_same]
      rw [hleft, texts, hsplit]
      simp
    · intro other hother
      simp [texts, list, Keyed.get?_put_other _ _ hother]

theorem texts_of_pop?_none (h : q.pop? name = none) : q.texts name = [] := by
  unfold pop? at h
  cases hlast : (q.list name).getLast? with
  | none => simp [texts, List.getLast?_eq_none_iff.mp hlast]
  | some last => simp [hlast] at h

theorem publish_ok {r : InboundRecord} (h : r.documentText = .ok text) :
    q.publish name r = .ok (q.push name text) := by
  rw [publish, h]
  rfl

theorem publish_error {r : InboundRecord} {f : Fault} (h : r.documentText = .error f) :
    q.publish name r = .error f := by
  rw [publish, h]
  rfl

/-! ## Texts -/

/-- A text that is no document is read as no record, whatever its id would have been. -/
theorem readRecord_eq (now : Moment) (s : String) (st : σ) :
    (readRecord drawId now s st).1 = (InboundRecord.ofText (drawId st).1 now s).toOption := by
  unfold readRecord
  cases hread : Json.readWith? .strict s with
  | none =>
    unfold InboundRecord.ofText
    rw [hread]
    rfl
  | some v => rfl

theorem Taken.isFaithful {t : Taken} {id : String}
    (h : t.record = (InboundRecord.ofText id now t.text).toOption) : t.IsFaithful where
  read := ⟨id, now, h⟩
  discarded := by rw [h, InboundRecord.toOption_ofText_eq_none_iff]
  published := by
    intro r portable htext
    rw [h, InboundRecord.ofText_documentText portable htext]
    split <;> rfl

/-! ## One move -/

theorem carryOut_take_none (h : b.queues.pop? name = none) (now : Moment) :
    Move.carryOut drawId b (.take name now) = (none, b) := by
  simp [Move.carryOut, h]

theorem carryOut_take_some (h : b.queues.pop? name = some (text, q)) (now : Moment) :
    Move.carryOut drawId b (.take name now) =
      (some ⟨name, text, (readRecord drawId now text b.ids).1⟩,
        ⟨q, (readRecord drawId now text b.ids).2⟩) := by
  simp [Move.carryOut, h]

theorem takenFrom_append (name : String) (ts ts' : List Taken) :
    takenFrom name (ts ++ ts') = takenFrom name ts ++ takenFrom name ts' := by
  simp [takenFrom]

/-- A record that cannot be written is not put in. -/
theorem carryOut_publish (b : Broker σ) (list : String) (r : InboundRecord) :
    Move.carryOut drawId b (.publish list r) =
      match r.documentText with
      | .ok text => (none, { b with queues := b.queues.push list text })
      | .error _ => (none, b) := by
  cases h : r.documentText with
  | ok text => simp only [Move.carryOut, publish_ok h]
  | error f => simp only [Move.carryOut, publish_error h]

/-- A move takes the first text out of a list or puts one in behind the others, if it is about that
list. -/
theorem texts_carryOut (b : Broker σ) (move : Move) (name : String) :
    takenFrom name (move.carryOut drawId b).1.toList ++
        (move.carryOut drawId b).2.queues.texts name =
      b.queues.texts name ++ (move.textFor? name).toList := by
  cases move with
  | push list text =>
    by_cases h : list = name <;> simp [Move.carryOut, Move.textFor?, takenFrom, texts_push, h]
  | publish list r =>
    rw [carryOut_publish]
    cases hwritten : r.documentText <;> by_cases h : list = name <;>
      simp [Move.textFor?, takenFrom, texts_push, Except.toOption, hwritten, h]
  | take list now =>
    cases hpop : b.queues.pop? list with
    | none => simp [carryOut_take_none drawId hpop, Move.textFor?, takenFrom]
    | some popped =>
      obtain ⟨text, queues⟩ := popped
      obtain ⟨hsame, hother⟩ := texts_of_pop? hpop
      by_cases h : list = name
      · subst h
        simp [carryOut_take_some drawId hpop, Move.textFor?, takenFrom, hsame]
      · simp [carryOut_take_some drawId hpop, Move.textFor?, takenFrom, hother name (Ne.symm h), h]

theorem isFaithful_carryOut (b : Broker σ) (move : Move) :
    ∀ t ∈ (move.carryOut drawId b).1, t.IsFaithful := by
  intro t ht
  cases move with
  | push => cases ht
  | publish list r =>
    rw [carryOut_publish] at ht
    cases hwritten : r.documentText <;> simp [hwritten] at ht
  | take list now =>
    cases hpop : b.queues.pop? list with
    | none =>
      rw [carryOut_take_none drawId hpop] at ht
      cases ht
    | some popped =>
      rw [carryOut_take_some drawId hpop] at ht
      cases ht
      exact Taken.isFaithful (readRecord_eq drawId now popped.1 b.ids)

/-! ## Move after move -/

theorem play_cons (move : Move) (rest : List Move) (b : Broker σ) :
    play drawId (move :: rest) b =
      ((move.carryOut drawId b).1.toList ++ (play drawId rest (move.carryOut drawId b).2).1,
        (play drawId rest (move.carryOut drawId b).2).2) := rfl

/-- What is taken out of a list, and what is left in it, is what was in it and what was put in. -/
theorem texts_play (moves : List Move) (b : Broker σ) (name : String) :
    takenFrom name (play drawId moves b).1 ++ (play drawId moves b).2.queues.texts name =
      b.queues.texts name ++ pushed name moves := by
  induction moves generalizing b with
  | nil => simp [play, takenFrom, pushed]
  | cons move rest ih =>
    have hpushed : pushed name (move :: rest) =
        (move.textFor? name).toList ++ pushed name rest := by
      unfold pushed
      rw [List.filterMap_cons]
      cases move.textFor? name <;> rfl
    rw [play_cons, hpushed, takenFrom_append, List.append_assoc, ih, ← List.append_assoc,
      texts_carryOut, List.append_assoc]

theorem isFaithful_play (moves : List Move) (b : Broker σ) :
    ∀ t ∈ (play drawId moves b).1, t.IsFaithful := by
  induction moves generalizing b with
  | nil => exact List.forall_mem_nil _
  | cons move rest ih =>
    intro t ht
    rcases List.mem_append.mp ht with hfirst | hrest
    · exact isFaithful_carryOut drawId b move t (Option.mem_toList.mp hfirst)
    · exact ih _ t hrest

/-! ## Subscriptions -/

/-- The moves of a subscription that takes so many texts out of a list. -/
def takes (name : String) (now : Moment) (n : Nat) : List Move := List.replicate n (.take name now)

/-- Reading all texts of a list is taking them out one after another. -/
theorem records_eq_play {texts : List String} (h : b.queues.texts name = texts) (now : Moment) :
    records drawId now texts b.ids =
        ((play drawId (takes name now texts.length) b).1.filterMap (·.record),
          (play drawId (takes name now texts.length) b).2.ids) ∧
      (play drawId (takes name now texts.length) b).1.map (·.text) = texts := by
  induction texts generalizing b with
  | nil => exact ⟨rfl, rfl⟩
  | cons s rest ih =>
    cases hpop : b.queues.pop? name with
    | none =>
      rw [texts_of_pop?_none hpop] at h
      cases h
    | some popped =>
      obtain ⟨text, queues⟩ := popped
      rw [(texts_of_pop? hpop).1] at h
      obtain ⟨rfl, hrest⟩ := List.cons.inj h
      have htakes : takes name now (text :: rest).length =
          .take name now :: takes name now rest.length := rfl
      cases hread : readRecord drawId now text b.ids with
      | mk record ids =>
        obtain ⟨hrecords, htexts⟩ := ih (b := ⟨queues, ids⟩) hrest
        simp only at hrecords
        rw [htakes, play_cons, carryOut_take_some drawId hpop, records, hread]
        constructor
        · simp only [hrecords]
          cases record <;> rfl
        · simp [htexts]

theorem records_singleton (now : Moment) (s : String) (st : σ) :
    (records drawId now [s] st).1 = (readRecord drawId now s st).1.toList := by
  simp [records]

theorem received_subscribe {lifespan : Binary64} (hlifespan : lifespan.le .zero = false)
    (q : Queues) (name : String) (now : Moment) (st : σ) :
    (subscribe drawId now lifespan name q st).1.received =
      (records drawId now (q.texts name) st).1 := by
  simp [subscribe, hlifespan]

/-- A subscription takes all that is in its list, and nothing out of any other. -/
theorem subscribe_eq {lifespan : Binary64} (hlifespan : lifespan.le .zero = false) (b : Broker σ)
    (name : String) (now : Moment) :
    ∃ more : List Taken, (∀ t ∈ more, t.IsFaithful) ∧ more.map (·.text) = b.queues.texts name ∧
      (subscribe drawId now lifespan name b.queues b.ids).1.received =
        more.filterMap (·.record) ∧
      (subscribe drawId now lifespan name b.queues b.ids).1.left.texts name = [] ∧
      ∀ other ≠ name, (subscribe drawId now lifespan name b.queues b.ids).1.left.texts other =
        b.queues.texts other := by
  obtain ⟨hrecords, htexts⟩ := records_eq_play drawId (rfl : b.queues.texts name = _) now
  refine ⟨_, isFaithful_play drawId _ b, htexts, ?_, ?_, ?_⟩
  · rw [received_subscribe drawId hlifespan, hrecords]
  · simp [subscribe, hlifespan, clear, texts, list, Keyed.get?_put_same]
  · intro other hother
    simp [subscribe, hlifespan, clear, texts, list, Keyed.get?_put_other _ _ hother]

/-- In any course of pushes and takes on any lists, what the subscriptions of a list take out are the
texts that were put into it, in order, and all of them once a subscription has run to its end. What is
yielded are the records among these texts; a published record is one of them if it is portable and not
nested too deeply, for then it can be written. -/
theorem yields_in_push_order (moves : List Move) (b : Broker σ) (name : String) :
    let taken := (play drawId moves b).1
    let after := (play drawId moves b).2
    takenFrom name taken ++ after.queues.texts name =
        b.queues.texts name ++ pushed name moves ∧
      (∀ t ∈ taken, t.IsFaithful) ∧
      (∀ r : InboundRecord, r.IsPortable → r.nesting ≤ Json.maxNesting →
        ∃ s, r.documentText = .ok s) ∧
      ∀ (lifespan : Binary64) (now : Moment), lifespan.le .zero = false →
        ∃ more : List Taken, (∀ t ∈ more, t.IsFaithful) ∧
          takenFrom name taken ++ more.map (·.text) =
            b.queues.texts name ++ pushed name moves ∧
          (subscribe drawId now lifespan name after.queues after.ids).1.received =
            more.filterMap (·.record) ∧
          (subscribe drawId now lifespan name after.queues after.ids).1.left.texts name = [] ∧
          ∀ other ≠ name,
            (subscribe drawId now lifespan name after.queues after.ids).1.left.texts other =
              after.queues.texts other := by
  intro taken after
  have htexts := texts_play drawId moves b name
  refine ⟨htexts, isFaithful_play drawId moves b,
    fun _ portable shallow => InboundRecord.exists_documentText portable shallow, ?_⟩
  intro lifespan now hlifespan
  obtain ⟨more, hfaithful, hmore, hreceived, hleft, hothers⟩ :=
    subscribe_eq drawId hlifespan after name now
  refine ⟨more, hfaithful, ?_, hreceived, hleft, hothers⟩
  rw [hmore]
  exact htexts

/-- Ids by number. -/
def numbered : IdSource Nat := fun n => (s!"id-{n}", n + 1)

/-- A record of one number. -/
def level : InboundRecord where
  dataId := "level"
  sourceKind := .senderApp
  sourceId := 7
  payload := [("level", .int 21)]
  receivedAt := ⟨0, some 0⟩

/-- The record among texts that are none, and another list. -/
def levelMoves : List Move :=
  [.push "in" "\x7b", .publish "in" level, .push "out" "late", .take "in" ⟨0, none⟩,
    .push "in" "[]", .take "in" ⟨0, none⟩]

theorem level_yields_in_push_order :
    level.IsPortable ∧ level.nesting ≤ Json.maxNesting ∧ Binary64.le (.ofInt 1) .zero = false ∧
      ∃ s, level.documentText = .ok s ∧
        takenFrom "in" (play numbered levelMoves ⟨[], 0⟩).1 = ["\x7b", s] ∧
        (∀ t ∈ (play numbered levelMoves ⟨[], 0⟩).1, t.text = s → t.record = some level) ∧
        ∃ more : List Taken, more.map (·.text) = ["[]"] ∧
          (subscribe numbered ⟨0, none⟩ (.ofInt 1) "in"
            (play numbered levelMoves ⟨[], 0⟩).2.queues
            (play numbered levelMoves ⟨[], 0⟩).2.ids).1.received = more.filterMap (·.record) := by
  have portable : level.IsPortable := by
    refine ⟨by decide, by decide, by decide, ?_⟩
    intro o ho
    cases ho
    exact ⟨0, rfl, by decide⟩
  have shallow : level.nesting ≤ Json.maxNesting := by decide
  have lifespan : Binary64.le (.ofInt 1) .zero = false := by decide +kernel
  obtain ⟨-, faithful, writable, subscribed⟩ :=
    yields_in_push_order numbered levelMoves ⟨[], 0⟩ "in"
  obtain ⟨s, written⟩ := writable level portable shallow
  have taken : takenFrom "in" (play numbered levelMoves ⟨[], 0⟩).1 = ["\x7b", s] := by
    simp [levelMoves, play, Move.carryOut, push, publish_ok written, pop?, list, Keyed.put,
      Keyed.get?, takenFrom]
  obtain ⟨more, -, all, received, -⟩ := subscribed (.ofInt 1) ⟨0, none⟩ lifespan
  refine ⟨portable, shallow, lifespan, s, written, taken, ?_, more, ?_, received⟩
  · rintro t ht rfl
    rw [(faithful t ht).published level portable written, if_pos shallow]
  · have put : pushed "in" levelMoves = ["\x7b", s, "[]"] := by
      simp [pushed, levelMoves, List.filterMap_cons, Move.textFor?, written, Except.toOption]
    rw [taken, put] at all
    have rest : ["\x7b", s] ++ more.map (·.text) = ["\x7b", s] ++ ["[]"] := all
    exact List.append_cancel_left rest

/-- Lists inside each other. -/
def nested : Nat → Value
  | 0 => .int 1
  | n + 1 => .list [nested n]

/-- A record with lists inside each other. -/
def deep : InboundRecord where
  dataId := "deep"
  sourceKind := .senderApp
  sourceId := 7
  payload := [("a", nested 199)]
  receivedAt := ⟨0, some 0⟩

theorem nested_isPortable (n : Nat) : (nested n).isPortable = true := by
  induction n with
  | zero => decide
  | succ n ih => simp [nested, Value.isPortable, Value.listIsPortable, ih]

theorem nesting_nested (n : Nat) : (nested n).nesting = n := by
  induction n with
  | zero => rfl
  | succ n ih =>
    simp [nested, Value.nesting, Value.listNesting, ih]
    omega

theorem deep_isPortable : deep.IsPortable where
  sourceId := by decide
  payload := by
    simp [deep, Value.isPortable, Value.fieldsArePortable, Keyed.keys, nested_isPortable]
  receivedAt := by
    refine ⟨by decide, ?_⟩
    intro o ho
    cases ho
    exact ⟨0, rfl, by decide⟩

theorem depth_nested (n : Nat) : (nested n).depth = n + 1 := by
  induction n with
  | zero => rfl
  | succ n ih => rw [nested, Value.depth, Value.listDepth, Value.listDepth, ih, Nat.max_zero]

/-- A portable record that is nested too deeply is put into a list and taken out of it, but it is not
yielded. -/
theorem deep_discarded :
    deep.IsPortable ∧
      ∃ q, publish [] "in" deep = .ok q ∧
        (subscribe numbered ⟨0, some 0⟩ (.ofInt 1) "in" q 0).1.received = [] ∧
        (subscribe numbered ⟨0, some 0⟩ (.ofInt 1) "in" q 0).1.received ≠ [deep] := by
  have hdeep : ¬ deep.nesting ≤ Json.maxNesting := by
    simp [deep, InboundRecord.nesting, Value.nesting, Value.fieldsNesting, nesting_nested,
      Json.maxNesting]
  obtain ⟨s, hs⟩ : ∃ s, deep.documentText = .ok s := by
    refine ⟨_, InboundRecord.documentText_eq_ok_iff.mpr ⟨fun v hv => ⟨?_, ?_⟩, rfl⟩⟩
    · rw [List.mem_singleton.mp hv, depth_nested]
      decide
    · exact deep_isPortable.holdsSealed hv
  have htexts : texts (push [] "in" s) "in" = [s] := texts_push [] "in" s "in"
  have hread : (readRecord numbered ⟨0, some 0⟩ s 0).1 = none := by
    rw [readRecord_eq, InboundRecord.ofText_documentText deep_isPortable hs, if_neg hdeep]
    rfl
  have hlifespan : Binary64.le (.ofInt 1) .zero = false := by decide +kernel
  have hreceived : (subscribe numbered ⟨0, some 0⟩ (.ofInt 1) "in" (push [] "in" s)
      0).1.received = [] := by
    rw [received_subscribe numbered hlifespan, htexts, records_singleton, hread]
    rfl
  refine ⟨deep_isPortable, _, publish_ok hs, hreceived, ?_⟩
  rw [hreceived]
  exact (List.cons_ne_nil _ _).symm

end Conveyor.Queues
