import Conveyor.Proofs.Statement.Sentence

/-!
# Quoted names

A quoted name ends at the first quote that is not doubled, whatever the name is. So a text that starts with
a quoted name tells the name and what follows it (`quoted_append_inj`), and a list of items that start
with quoted names tells these names and where the list ends (`listed_inj`).
-/

namespace Conveyor

/-- A single character is replaced wherever it stands. -/
theorem Text.replaceFrom_singleton (piece : Char) (image cs : List Char) :
    Text.replaceFrom [piece] image 0 cs = cs.flatMap fun c => if c = piece then image else [c] := by
  induction cs with
  | nil => rfl
  | cons c cs ih =>
    by_cases h : c = piece
    · subst h
      simp [Text.replaceFrom, Text.after?, ih]
    · simp [Text.replaceFrom, Text.after?, h, Ne.symm h, ih]

namespace Statement

open Mapping (ResolvedField)

/-- The character between a pair of which a name stands. -/
def mark : Dialect → Char
  | .mysql => '`'
  | _ => '"'

/-- A name as it stands between the marks. -/
def doubled (m : Char) (name : List Char) : List Char :=
  name.flatMap fun c => if c = m then [m, m] else [c]

@[simp] theorem doubled_nil (m : Char) : doubled m [] = [] := rfl

theorem doubled_cons (m c : Char) (name : List Char) :
    doubled m (c :: name) = (if c = m then [m, m] else [c]) ++ doubled m name := List.flatMap_cons

/-- A name as it is written. -/
def quoted (d : Dialect) (name : String) : List Char :=
  mark d :: doubled (mark d) name.toList ++ [mark d]

theorem toList_quoteIdentifier (d : Dialect) (name : String) :
    (quoteIdentifier d name).toList = quoted d name := by
  have hmark : (quoteMark d).toList = [mark d] := by cases d <;> rfl
  simp [quoteIdentifier, Text.replace, hmark, Text.replaceFrom_singleton, quoted, doubled]

/-- The mark that ends a name is the first one that is not doubled. -/
theorem doubled_append_inj {m : Char} {name name' rest rest' : List Char}
    (single : rest.head? ≠ some m) (single' : rest'.head? ≠ some m)
    (h : doubled m name ++ m :: rest = doubled m name' ++ m :: rest') :
    name = name' ∧ rest = rest' := by
  induction name generalizing name' with
  | nil =>
    cases name' with
    | nil => exact ⟨rfl, by simpa using h⟩
    | cons c' name' =>
      by_cases hc' : c' = m
      · have hrest : rest = m :: (doubled m name' ++ m :: rest') := by
          simpa [doubled_cons, hc'] using h
        simp [hrest] at single
      · have hm : m = c' := by
          simp only [doubled_cons, if_neg hc'] at h
          exact (List.cons.inj h).1
        exact absurd hm.symm hc'
  | cons c name ih =>
    cases name' with
    | nil =>
      by_cases hc : c = m
      · have hrest' : rest' = m :: (doubled m name ++ m :: rest) := by
          simpa [doubled_cons, hc, eq_comm] using h
        simp [hrest'] at single'
      · have hm : c = m := by
          simp only [doubled_cons, if_neg hc] at h
          exact (List.cons.inj h).1
        exact absurd hm hc
    | cons c' name' =>
      -- a doubled mark and any other character begin differently
      have hcons : c = c' ∧ doubled m name ++ m :: rest = doubled m name' ++ m :: rest' := by
        by_cases hc : c = m <;> by_cases hc' : c' = m
        · simpa [doubled_cons, hc, hc'] using h
        · simp only [doubled_cons, if_pos hc, if_neg hc'] at h
          exact absurd (List.cons.inj h).1.symm hc'
        · simp only [doubled_cons, if_neg hc, if_pos hc'] at h
          exact absurd (List.cons.inj h).1 hc
        · simpa [doubled_cons, hc, hc'] using h
      obtain ⟨rfl, hrest⟩ := hcons
      obtain ⟨rfl, rfl⟩ := ih hrest
      exact ⟨rfl, rfl⟩

theorem quoted_append_inj {d : Dialect} {name name' : String} {rest rest' : List Char}
    (single : rest.head? ≠ some (mark d)) (single' : rest'.head? ≠ some (mark d))
    (h : quoted d name ++ rest = quoted d name' ++ rest') : name = name' ∧ rest = rest' := by
  have hdoubled : doubled (mark d) name.toList ++ mark d :: rest =
      doubled (mark d) name'.toList ++ mark d :: rest' := by
    simpa [quoted] using h
  obtain ⟨hname, hrest⟩ := doubled_append_inj single single' hdoubled
  exact ⟨String.toList_inj.mp hname, hrest⟩

/-! ## Lists of names -/

/-- What follows goes on neither with a name nor with a list. -/
structure Ends (d : Dialect) (rest : List Char) : Prop where
  mark : rest.head? ≠ some (mark d)
  comma : rest.head? ≠ some ','

/-- Items of a list: each starts with the quoted name of a column, what belongs to it does not start with
a mark, and a comma stands before the next. -/
structure Itemized {α : Type} (d : Dialect) (sep : String) (column : α → String)
    (item : α → List Part) (tail : String → List Char) : Prop where
  written : ∀ a, written d (item a) = quoted d (column a) ++ tail (column a)
  single : ∀ name, (tail name).head? ≠ some (mark d)
  comma : sep.toList.head? = some ','

theorem mark_ne_comma (d : Dialect) : mark d ≠ ',' := by cases d <;> decide

theorem written_separated_cons (d : Dialect) (sep : String) (item : List Part)
    (rest : List (List Part)) :
    written d (separated sep (item :: rest)) =
      written d item ++ rest.flatMap fun next => sep.toList ++ written d next := by
  induction rest generalizing item with
  | nil => simp [separated]
  | cons next rest ih => simp [separated, ih, Part.text]

namespace Itemized

variable {α : Type} {d : Dialect} {sep : String} {column : α → String} {item : α → List Part}
  {tail : String → List Char} {as bs : List α} {a b : α} {rest rest' : List Char}

/-- An item tells its name and what follows it. -/
theorem item_inj (h : Itemized d sep column item tail) (single : rest.head? ≠ some (mark d))
    (single' : rest'.head? ≠ some (mark d))
    (heq : Statement.written d (item a) ++ rest = Statement.written d (item b) ++ rest') :
    column a = column b ∧ rest = rest' := by
  have hhead : ∀ {rest : List Char}, rest.head? ≠ some (mark d) →
      ∀ name, (tail name ++ rest).head? ≠ some (mark d) := by
    intro rest hrest name
    have hsingle := h.single name
    rw [List.head?_append]
    cases htail : (tail name).head? with
    | none => exact hrest
    | some c =>
      rw [htail] at hsingle
      exact hsingle
  rw [h.written, h.written, List.append_assoc, List.append_assoc] at heq
  obtain ⟨hcolumn, htails⟩ := quoted_append_inj (hhead single _) (hhead single' _) heq
  rw [hcolumn] at htails
  exact ⟨hcolumn, List.append_cancel_left htails⟩

/-- The items after the first, each behind a separator. -/
def following (sep : String) (d : Dialect) (item : α → List Part) (as : List α) : List Char :=
  as.flatMap fun a => sep.toList ++ Statement.written d (item a)

theorem head?_following (h : Itemized d sep column item tail) (hrest : Ends d rest) (as : List α) :
    (following sep d item as ++ rest).head? ≠ some (mark d) := by
  cases as with
  | nil => exact hrest.mark
  | cons a as =>
    have hcomma : (following sep d item (a :: as) ++ rest).head? = some ',' := by
      simp [following, List.head?_append, h.comma]
    rw [hcomma]
    exact fun heq => mark_ne_comma d (Option.some.inj heq).symm

theorem following_inj (h : Itemized d sep column item tail) (hrest : Ends d rest) (hrest' : Ends d rest')
    (heq : following sep d item as ++ rest = following sep d item bs ++ rest') :
    as.map column = bs.map column ∧ rest = rest' := by
  have hcomma : ∀ (a : α) (as : List α) (rest : List Char),
      (following sep d item (a :: as) ++ rest).head? = some ',' := by
    intro a as rest
    simp [following, List.head?_append, h.comma]
  induction as generalizing bs with
  | nil =>
    cases bs with
    | nil => exact ⟨rfl, heq⟩
    | cons b bs =>
      rw [show following sep d item [] ++ rest = rest from rfl] at heq
      exact absurd (heq ▸ hcomma b bs rest') hrest.comma
  | cons a as ih =>
    cases bs with
    | nil =>
      rw [show following sep d item [] ++ rest' = rest' from rfl] at heq
      exact absurd (heq ▸ hcomma a as rest) hrest'.comma
    | cons b bs =>
      have hitems : Statement.written d (item a) ++ (following sep d item as ++ rest) =
          Statement.written d (item b) ++ (following sep d item bs ++ rest') := by
        simpa [following] using heq
      obtain ⟨hcolumn, hfollowing⟩ :=
        h.item_inj (h.head?_following hrest as) (h.head?_following hrest' bs) hitems
      obtain ⟨hcolumns, hends⟩ := ih hfollowing
      exact ⟨by rw [List.map_cons, List.map_cons, hcolumn, hcolumns], hends⟩

/-- A list tells the names of its items and where it ends. -/
theorem listed_inj (h : Itemized d sep column item tail) (hrest : Ends d rest) (hrest' : Ends d rest')
    (heq : Statement.written d (separated sep (as.map item)) ++ rest =
      Statement.written d (separated sep (bs.map item)) ++ rest') :
    as.map column = bs.map column ∧ rest = rest' := by
  have hmark : ∀ (a : α) (as : List α) (rest : List Char),
      (Statement.written d (separated sep ((a :: as).map item)) ++ rest).head? =
        some (Statement.mark d) := by
    intro a as rest
    simp [written_separated_cons, h.written, quoted]
  have hcons : ∀ (a : α) (as : List α) (rest : List Char),
      Statement.written d (separated sep ((a :: as).map item)) ++ rest =
        Statement.written d (item a) ++ (following sep d item as ++ rest) := by
    intro a as rest
    simp [written_separated_cons, following, List.flatMap_map]
  cases as with
  | nil =>
    cases bs with
    | nil => exact ⟨rfl, heq⟩
    | cons b bs =>
      have hhead : rest.head? = some (Statement.mark d) := by
        rw [← hmark b bs rest', ← heq]
        rfl
      exact absurd hhead hrest.mark
  | cons a as =>
    cases bs with
    | nil =>
      have hhead : rest'.head? = some (Statement.mark d) := by
        rw [← hmark a as rest, heq]
        rfl
      exact absurd hhead hrest'.mark
    | cons b bs =>
      rw [hcons, hcons] at heq
      obtain ⟨hcolumn, hfollowing⟩ :=
        h.item_inj (h.head?_following hrest as) (h.head?_following hrest' bs) heq
      obtain ⟨hcolumns, hends⟩ := h.following_inj hrest hrest' hfollowing
      exact ⟨by rw [List.map_cons, List.map_cons, hcolumn, hcolumns], hends⟩

end Itemized

end Statement
end Conveyor
