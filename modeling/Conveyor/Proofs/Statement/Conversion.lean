import Conveyor.Proofs.Statement.Injectivity

/-!
# Texts for drivers

A driver whose parameters stand at percent signs reads a text from left to right: two percent signs are
one, and a percent sign before an `s` is a conversion, which takes the next parameter. The text for such a
driver reads as the statement's own text, with a conversion at every question mark and nothing else changed
(`driverText_read`). It does not tell a question mark in a name from one that stands for a value, so that
the conversions are those of the parameters exactly if no name has one (`conversions_placed_iff`).
-/

namespace Conveyor

open Mapping (ResolvedField)

/-- The names of a table: its own and that of its schema. -/
def Target.names (t : Target) : List String := t.table :: t.schema?.toList

namespace Statement

/-! ## Reading -/

/-- What a driver reads in a text: a character, or a place for a parameter. -/
inductive Piece where
  | literal (c : Char)
  | conversion
  deriving DecidableEq

/-- The pieces of a text; none if a percent sign stands before anything else. -/
def pieces? : List Char → Option (List Piece)
  | '%' :: '%' :: rest => (pieces? rest).map (.literal '%' :: ·)
  | '%' :: 's' :: rest => (pieces? rest).map (.conversion :: ·)
  | '%' :: _ => none
  | c :: rest => (pieces? rest).map (.literal c :: ·)
  | [] => some []

/-- The character of a piece, with a question mark put back for a conversion. -/
def Piece.restored : Piece → Char
  | .literal c => c
  | .conversion => '?'

/-- The piece that a character of a statement should be read as, wherever it stands. -/
def pieceOf (c : Char) : Piece := if c = '?' then .conversion else .literal c

/-- What is sent for a character. -/
def sentFor (c : Char) : List Char :=
  if c = '?' then ['%', 's'] else if c = '%' then ['%', '%'] else [c]

variable {s : Statement} {style : String}

/-- The two replacements do not meet: the percent signs of conversions come after the doubling. -/
theorem toList_driverText (params : s.params ≠ []) (percent : style = "format" ∨ style = "pyformat") :
    (driverText s style).toList = s.text.toList.flatMap sentFor := by
  have hpercent : (isPercentStyle style && !s.params.isEmpty) = true := by
    simp [isPercentStyle, percent, params]
  have hreplaced : (driverText s style).toList =
      Text.replaceFrom ['?'] ['%', 's'] 0 (Text.replaceFrom ['%'] ['%', '%'] 0 s.text.toList) := by
    rw [driverText, if_pos hpercent]
    simp only [Text.replace, String.toList_ofList]
    rfl
  rw [hreplaced, Text.replaceFrom_singleton, Text.replaceFrom_singleton, List.flatMap_assoc]
  refine List.flatMap_congr fun c _ => ?_
  by_cases hc : c = '%'
  · subst hc
    rfl
  · by_cases hc' : c = '?'
    · subst hc'
      rfl
    · simp [sentFor, hc, hc']

theorem pieces?_literal {c : Char} (h : c ≠ '%') (rest : List Char) :
    pieces? (c :: rest) = (pieces? rest).map (.literal c :: ·) := by
  rw [pieces?]
  · rintro _ rfl
    exact absurd rfl h
  · rintro _ rfl
    exact absurd rfl h
  · rintro rfl
    exact absurd rfl h

/-- What is sent for a character is read as its piece, whatever follows. -/
theorem pieces?_sentFor (c : Char) (rest : List Char) :
    pieces? (sentFor c ++ rest) = (pieces? rest).map (pieceOf c :: ·) := by
  by_cases hmark : c = '?'
  · subst hmark
    rfl
  · by_cases hsign : c = '%'
    · subst hsign
      rfl
    · rw [sentFor, if_neg hmark, if_neg hsign, pieceOf, if_neg hmark]
      exact pieces?_literal hsign rest

theorem pieces?_flatMap_sentFor (cs : List Char) :
    pieces? (cs.flatMap sentFor) = some (cs.map pieceOf) := by
  induction cs with
  | nil => rfl
  | cons c cs ih =>
    rw [List.flatMap_cons, pieces?_sentFor, ih]
    rfl

theorem restored_pieceOf (c : Char) : (pieceOf c).restored = c := by
  by_cases h : c = '?'
  · rw [pieceOf, if_pos h, h]
    rfl
  · rw [pieceOf, if_neg h]
    rfl

theorem pieceOf_eq_conversion_iff {c : Char} : pieceOf c = .conversion ↔ c = '?' := by
  by_cases h : c = '?' <;> simp [pieceOf, h]

theorem pieceOf_eq_literal_iff {c c' : Char} : pieceOf c = .literal c' ↔ c = c' ∧ c ≠ '?' := by
  by_cases h : c = '?' <;> simp [pieceOf, h]

/-- A text with parameters reaches the driver whole: there is a conversion at each of its question marks,
and every other character, percent signs included, is read where it stood. -/
theorem driverText_read (params : s.params ≠ []) (percent : style = "format" ∨ style = "pyformat") :
    ∃ ps, pieces? (driverText s style).toList = some ps ∧
      String.ofList (ps.map Piece.restored) = s.text ∧
      (∀ i : Nat, ps[i]? = some .conversion ↔ s.text.toList[i]? = some '?') ∧
      ∀ (i : Nat) (c : Char), ps[i]? = some (.literal c) ↔ s.text.toList[i]? = some c ∧ c ≠ '?' := by
  refine ⟨s.text.toList.map pieceOf, ?_, ?_, fun i => ?_, fun i c => ?_⟩
  · rw [toList_driverText params percent, pieces?_flatMap_sentFor]
  · have hrestored : Piece.restored ∘ pieceOf = id := funext restored_pieceOf
    rw [List.map_map, hrestored, List.map_id, String.ofList_toList]
  · simp [pieceOf_eq_conversion_iff]
  · simp only [List.getElem?_map, Option.map_eq_some_iff, pieceOf_eq_literal_iff]
    constructor
    · rintro ⟨_, hi, rfl, hc⟩
      exact ⟨hi, hc⟩
    · rintro ⟨hi, hc⟩
      exact ⟨c, hi, rfl, hc⟩

/-- Percent signs before and after question marks, and one that looks like a conversion. -/
def percentages : Statement := ⟨"SELECT 100%?%s %%? %", [.int 7, .int 8]⟩

theorem percentages_read :
    percentages.params ≠ [] ∧ ("pyformat" = "format" ∨ "pyformat" = "pyformat") ∧
      driverText percentages "pyformat" = "SELECT 100%%%s%%s %%%%%s %%" ∧
      ∃ ps, pieces? (driverText percentages "pyformat").toList = some ps ∧
        String.ofList (ps.map Piece.restored) = "SELECT 100%?%s %%? %" := by
  have params : percentages.params ≠ [] := List.cons_ne_nil _ _
  obtain ⟨ps, hread, hrestored, -⟩ := driverText_read params (.inr rfl)
  exact ⟨params, .inr rfl, by decide +kernel, ps, hread, hrestored⟩

/-! ## Places of parameters -/

/-- The pieces of a part as they are meant: a conversion for a value, and no other. -/
def Part.pieces (d : Dialect) : Part → List Piece
  | .value _ => [.conversion]
  | p => (p.text d).map .literal

/-- The characters of a part that stand for themselves. -/
def Part.letters (d : Dialect) : Part → List Char
  | .value _ => []
  | p => p.text d

/-- No question mark in the parts but for their values. -/
def Unmarked (d : Dialect) (parts : List Part) : Prop := '?' ∉ parts.flatMap (Part.letters d)

variable {d : Dialect} {parts : List Part} {t : Target} {row updated fields : List ResolvedField}
  {op : Operation} {primaryKey customQuery : Option String}

/-- Every value has a conversion, and so has every other question mark. -/
theorem count_conversion (d : Dialect) (parts : List Part) :
    ((written d parts).map pieceOf).count .conversion =
      (bound parts).length + (parts.flatMap (Part.letters d)).count '?' := by
  have hcount : ∀ cs : List Char, (cs.map pieceOf).count .conversion = cs.count '?' := by
    intro cs
    induction cs with
    | nil => rfl
    | cons c cs ih => simp [List.count_cons, ih, pieceOf_eq_conversion_iff]
  induction parts with
  | nil => rfl
  | cons p parts ih =>
    rw [written_cons, List.map_append, List.count_append, ih, hcount, List.flatMap_cons, List.count_append]
    cases p with
    | value v =>
      have hvalue : ['?'].count '?' = 1 := rfl
      rw [Part.text_value, hvalue, bound_value, List.length_cons, Part.letters, List.count_nil]
      omega
    | words text =>
      rw [bound_words, Part.letters]
      · omega
      · exact fun v => nofun
    | name column =>
      rw [bound_name, Part.letters]
      · omega
      · exact fun v => nofun

theorem map_pieceOf_eq_iff {cs : List Char} : cs.map pieceOf = cs.map .literal ↔ '?' ∉ cs := by
  rw [List.map_inj_left]
  simp only [pieceOf_eq_literal_iff, true_and]
  exact ⟨fun h hmem => h _ hmem rfl, fun h c hc heq => h (heq ▸ hc)⟩

/-- The parts are read as they are meant exactly if their question marks are those of values. -/
theorem map_pieceOf_written_iff (d : Dialect) (parts : List Part) :
    (written d parts).map pieceOf = parts.flatMap (Part.pieces d) ↔ Unmarked d parts := by
  unfold Unmarked
  induction parts with
  | nil => simp
  | cons p parts ih =>
    have hlength : ((p.text d).map pieceOf).length = (p.pieces d).length := by
      cases p <;> simp [Part.pieces]
    have hpart : (p.text d).map pieceOf = p.pieces d ↔ '?' ∉ p.letters d := by
      cases p with
      | value v => simp [Part.pieces, Part.letters, pieceOf]
      | words text => exact map_pieceOf_eq_iff
      | name column => exact map_pieceOf_eq_iff
    rw [written_cons, List.map_append, List.flatMap_cons, List.flatMap_cons, List.mem_append, not_or,
      ← hpart, ← ih]
    constructor
    · intro h
      exact List.append_inj h hlength
    · rintro ⟨hp, hparts⟩
      rw [hp, hparts]

@[simp] theorem unmarked_nil (d : Dialect) : Unmarked d [] := List.not_mem_nil

@[simp] theorem unmarked_append (d : Dialect) (parts parts' : List Part) :
    Unmarked d (parts ++ parts') ↔ Unmarked d parts ∧ Unmarked d parts' := by
  simp [Unmarked]

@[simp] theorem unmarked_words (d : Dialect) (text : String) (parts : List Part) :
    Unmarked d (.words text :: parts) ↔ '?' ∉ text.toList ∧ Unmarked d parts := by
  simp [Unmarked, Part.letters]

@[simp] theorem unmarked_value (d : Dialect) (v : Value) (parts : List Part) :
    Unmarked d (.value v :: parts) ↔ Unmarked d parts := by
  simp [Unmarked, Part.letters]

/-- Quoting a name adds no question mark, and takes none away. -/
@[simp] theorem unmarked_name (d : Dialect) (column : String) (parts : List Part) :
    Unmarked d (.name column :: parts) ↔ '?' ∉ column.toList ∧ Unmarked d parts := by
  have hmark : '?' ≠ mark d := by cases d <;> decide
  have hdoubled : '?' ∈ doubled (mark d) column.toList ↔ '?' ∈ column.toList := by
    rw [doubled, List.mem_flatMap]
    constructor
    · rintro ⟨c, hc, hmem⟩
      by_cases h : c = mark d
      · simp [h, hmark] at hmem
      · simp only [if_neg h, List.mem_singleton] at hmem
        exact hmem ▸ hc
    · intro hmem
      exact ⟨'?', hmem, by simp [hmark]⟩
  have hquoted : '?' ∈ (Part.name column).letters d ↔ '?' ∈ column.toList := by
    rw [Part.letters, text_name, quoted]
    · simp [hmark, hdoubled]
    · rintro v ⟨⟩
  rw [Unmarked, List.flatMap_cons, List.mem_append, not_or, hquoted]
  rfl

/-- Items are unmarked together if what separates them is. -/
theorem unmarked_separated {sep : String} (hsep : '?' ∉ sep.toList) (items : List (List Part)) :
    Unmarked d (separated sep items) ↔ ∀ item ∈ items, Unmarked d item := by
  induction items with
  | nil => simp [separated]
  | cons item rest ih =>
    cases rest with
    | nil => simp [separated]
    | cons next rest => simp [separated, hsep, ih]

/-! ## Names of a statement -/

/-- No question mark in any of the names. -/
def PlainNames (names : List String) : Prop := ∀ name ∈ names, '?' ∉ name.toList

@[simp] theorem plainNames_nil : PlainNames [] := fun _ => nofun

@[simp] theorem plainNames_cons (name : String) (names : List String) :
    PlainNames (name :: names) ↔ '?' ∉ name.toList ∧ PlainNames names := List.forall_mem_cons

@[simp] theorem plainNames_append (names names' : List String) :
    PlainNames (names ++ names') ↔ PlainNames names ∧ PlainNames names' := List.forall_mem_append

theorem plainNames_columns_iff :
    PlainNames (columns fields) ↔ ∀ f ∈ fields, '?' ∉ f.column.toList := by
  simp [PlainNames, columns]

/-- A list of items with one name each. -/
theorem unmarked_items {sep : String} (hsep : '?' ∉ sep.toList) {item : ResolvedField → List Part}
    (hitem : ∀ f, Unmarked d (item f) ↔ '?' ∉ f.column.toList) (row : List ResolvedField) :
    Unmarked d (separated sep (row.map item)) ↔ PlainNames (columns row) := by
  rw [unmarked_separated hsep, List.forall_mem_map, plainNames_columns_iff]
  simp only [hitem]

theorem unmarked_rowParts (d : Dialect) (row : List ResolvedField) :
    Unmarked d (rowParts row) ↔ PlainNames (columns row) := by
  have hnames : Unmarked d (separated "," (row.map columnItem)) ↔ PlainNames (columns row) :=
    unmarked_items (by decide) (fun f => by simp [columnItem]) row
  have hvalues : Unmarked d (separated "," (row.map valueItem)) := by
    rw [unmarked_separated (by decide)]
    simp [valueItem]
  simp [rowParts, hnames, hvalues]

theorem unmarked_setParts (d : Dialect) (row : List ResolvedField) :
    Unmarked d (setParts row) ↔ PlainNames (columns row) :=
  unmarked_items (by decide) (fun f => by simp [setItem]) row

theorem unmarked_whereParts (d : Dialect) (key : ResolvedField) :
    Unmarked d (whereParts key) ↔ '?' ∉ key.column.toList := by
  simp [whereParts]

/-- What becomes of a row that is there already says nothing but the names of its columns. -/
theorem unmarked_conflictParts (hupdated : PlainNames (columns updated)) {key : String}
    (hkey : '?' ∉ key.toList) (d : Dialect) : Unmarked d (conflictParts updated key d) := by
  cases d with
  | hana => simp [conflictParts]
  | mysql =>
    have hsets : Unmarked .mysql (separated ", " (updated.map valuesItem)) :=
      (unmarked_items (by decide) (fun f => by simp [valuesItem]) updated).mpr hupdated
    simp only [conflictParts]
    split
    · simp [hkey]
    · simp [hsets]
  | ansi =>
    have hsets : Unmarked .ansi (separated ", " (updated.map excludedItem)) :=
      (unmarked_items (by decide) (fun f => by simp [excludedItem]) updated).mpr hupdated
    simp only [conflictParts]
    split
    · simp [hkey]
    · simp [hkey, hsets]

theorem unmarked_tableParts (t : Target) : Unmarked t.dialect (tableParts t) ↔ PlainNames t.names := by
  obtain ⟨d, table, schema⟩ := t
  rcases schema?_cases d table schema with ⟨hempty, hnone⟩ | ⟨name, rfl, hname, hsome⟩
  · cases d <;> simp [tableParts, tableText, Target.names, hnone, hempty]
  · cases d <;> simp [tableParts, tableText, Target.names, hsome, hname, and_comm]

namespace Sentence

/-- The names that a sentence is made with: those of the table, of the columns, and of the key. -/
def names (t : Target) : Sentence → List String
  | insert row => t.names ++ columns row
  | upsert row _ _ => t.names ++ columns row
  | update set key => t.names ++ columns set ++ [key.column]
  | delete key => t.names ++ [key.column]
  | scan => t.names
  | own _ => []

end Sentence

/-- All question marks of a statement with parameters are those of its values and of its names. -/
theorem AsksFor.unmarked_iff {x : Sentence} (h : AsksFor fields primaryKey customQuery op x)
    (params : (x.statement t).params ≠ []) :
    Unmarked t.dialect (x.parts t) ↔ PlainNames (x.names t) := by
  cases h with
  | insert => simp [Sentence.parts, Sentence.names, unmarked_tableParts, unmarked_rowParts]
  | @upsert f key =>
    have hverb : '?' ∉ (if t.dialect = .hana then "UPSERT " else "INSERT INTO ").toList := by
      split <;> decide
    have hconflict : PlainNames (columns fields) →
        Unmarked t.dialect (conflictParts (nonKey fields primaryKey) f.column t.dialect) := by
      intro hrow
      have hcolumns := plainNames_columns_iff.mp hrow
      refine unmarked_conflictParts (plainNames_columns_iff.mpr fun g hg => ?_) ?_ t.dialect
      · exact hcolumns g (mem_nonKey.mp hg).1
      · exact hcolumns f (List.mem_of_find?_eq_some key)
    simp only [Sentence.parts, Sentence.names, unmarked_append, unmarked_words, unmarked_nil, and_true,
      hverb, not_false_eq_true, true_and, unmarked_tableParts, unmarked_rowParts, plainNames_append]
    exact ⟨fun h => h.1, fun h => ⟨h, hconflict h.2⟩⟩
  | update key rest =>
    simp [Sentence.parts, Sentence.names, unmarked_tableParts, unmarked_setParts, unmarked_whereParts]
  | delete key =>
    simp [Sentence.parts, Sentence.names, unmarked_tableParts, unmarked_whereParts]
  | scan unasked => exact absurd (by simp [Sentence.statement, Sentence.parts]) params
  | own asked text => exact absurd rfl params

/-- A driver finds as many conversions as there are parameters, each in the place of its value, exactly if
no name of the statement has a question mark. -/
theorem conversions_placed_iff
    (synthesized : synthesize t fields (some op) primaryKey customQuery = .ok s) (params : s.params ≠ [])
    (percent : style = "format" ∨ style = "pyformat") :
    ∃ x ps, AsksFor fields primaryKey customQuery op x ∧ s = x.statement t ∧
      pieces? (driverText s style).toList = some ps ∧
      (ps.count .conversion = s.params.length ↔ PlainNames (x.names t)) ∧
      (ps = (x.parts t).flatMap (Part.pieces t.dialect) ↔ PlainNames (x.names t)) := by
  obtain ⟨x, asks, rfl⟩ := exists_sentence synthesized
  have htext : (x.statement t).text.toList = written t.dialect (x.parts t) := String.toList_ofList
  have hread : pieces? (driverText (x.statement t) style).toList =
      some ((written t.dialect (x.parts t)).map pieceOf) := by
    rw [toList_driverText params percent, pieces?_flatMap_sentFor, htext]
  refine ⟨x, _, asks, rfl, hread, ?_, ?_⟩
  · rw [count_conversion, ← asks.unmarked_iff params, Unmarked, ← List.count_eq_zero]
    show (bound (x.parts t)).length + _ = (bound (x.parts t)).length ↔ _
    omega
  · rw [map_pieceOf_written_iff, asks.unmarked_iff params]

/-- A record with a column whose name looks like a conversion. -/
def percentNamed : List ResolvedField := [⟨"id", .int 7⟩, ⟨"100%s", .int 1⟩]

theorem percentNamed_placed :
    ∃ s ps, synthesize ⟨.mysql, "loads", none⟩ percentNamed (some .update) (some "id") none = .ok s ∧
      s.params ≠ [] ∧ ("format" = "format" ∨ "format" = "pyformat") ∧
      driverText s "format" = "UPDATE loads SET `100%%s` = %s WHERE `id` = %s" ∧
      pieces? (driverText s "format").toList = some ps ∧ ps.count .conversion = s.params.length := by
  have params : [Value.int 1, Value.int 7] ≠ [] := List.cons_ne_nil _ _
  obtain ⟨x, ps, asks, -, hread, hcount, -⟩ :=
    conversions_placed_iff (show synthesize ⟨.mysql, "loads", none⟩ percentNamed (some .update)
      (some "id") none = .ok _ from rfl) params (.inl rfl)
  refine ⟨_, ps, rfl, params, .inl rfl, by decide +kernel, hread, hcount.mpr ?_⟩
  cases asks with
  | @update f key rest =>
    have hkey : f.column = "id" := Option.some.inj (column_of_keyField? key)
    have htable : Target.names ⟨.mysql, "loads", none⟩ = ["loads"] := rfl
    have hset : columns (nonKey percentNamed (some "id")) = ["100%s"] := by decide +kernel
    rw [Sentence.names, htable, hset, hkey]
    simp

/-- A record with a column whose name asks a question. -/
def asking : List ResolvedField := [⟨"id", .int 7⟩, ⟨"on?", .bool true⟩]

/-- The question mark of a name is taken for a parameter. -/
theorem asking_misplaced :
    ∃ s, synthesize ⟨.ansi, "switches", none⟩ asking (some .insert) none none = .ok s ∧
      s.text = "INSERT INTO switches (\"id\",\"on?\") VALUES (?,?)" ∧ s.params.length = 2 ∧
      driverText s "format" = "INSERT INTO switches (\"id\",\"on%s\") VALUES (%s,%s)" ∧
      (pieces? (driverText s "format").toList).map (·.count .conversion) = some 3 :=
  ⟨_, rfl, by decide +kernel, rfl, by decide +kernel, by decide +kernel⟩

end Statement
end Conveyor
