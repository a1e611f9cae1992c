import Conveyor.Proofs.Text
import Conveyor.Run.Template
import Mathlib.Data.List.Basic

/-!
# Template texts

A template text is literal characters with placeholders between them. However the braces of the literals stand
to those of the placeholders, it is taken apart into just these (`Line.pieces_chars`), and it is nothing but one
placeholder only if all the rest is blank (`Line.whole?_text`).
-/

namespace Conveyor.Template

/-! ## Placeholders -/

/-- No placeholder is among the characters: nothing without braces stands between two opening and two closing
ones. -/
def IsLiteral (cs : List Char) : Prop :=
  ∀ before content after,
    cs = before ++ '\x7b' :: '\x7b' :: (content ++ '\x7d' :: '\x7d' :: after) →
      content ≠ [] → ∃ c ∈ content, isBrace c = true

/-- A placeholder as it is written: a name, with blanks around it that do not count. -/
structure Slot where
  before : List Char := []
  name : List Char
  after : List Char := []

namespace Slot

/-- What stands between the braces. -/
def content (s : Slot) : List Char := s.before ++ (s.name ++ s.after)

def chars (s : Slot) : List Char := '\x7b' :: '\x7b' :: (s.content ++ ['\x7d', '\x7d'])

def expression (s : Slot) : String := String.ofList s.name

/-- A name has at least one character, no brace, and no blank at either end. -/
structure IsProper (s : Slot) : Prop where
  blankBefore : ∀ c ∈ s.before, Text.isBlank c = true
  blankAfter : ∀ c ∈ s.after, Text.isBlank c = true
  nonempty : s.name ≠ []
  braceless : ∀ c ∈ s.name, isBrace c = false
  bare : Text.IsBare s.name

end Slot

variable {cs content after rest : List Char} {c : Char} {s : Slot}

theorem isBrace_of_isBlank (h : Text.isBlank c = true) : isBrace c = false := by
  cases hbrace : isBrace c with
  | false => rfl
  | true =>
    simp only [isBrace, Bool.or_eq_true, decide_eq_true_eq] at hbrace
    rcases hbrace with rfl | rfl <;> cases h

theorem placeholder?_eq_some_iff : placeholder? cs = some (content, after) ↔
    cs = '\x7b' :: '\x7b' :: (content ++ '\x7d' :: '\x7d' :: after) ∧ content ≠ [] ∧
      ∀ c ∈ content, isBrace c = false := by
  constructor
  · intro h
    unfold placeholder? at h
    split at h
    · rename_i rest
      split at h
      · rename_i c content' after' htake hdrop
        cases h
        refine ⟨?_, List.cons_ne_nil _ _, ?_⟩
        · rw [← hdrop, ← htake, List.takeWhile_append_dropWhile]
        · intro d hd
          rw [← htake] at hd
          simpa using List.all_eq_true.mp List.all_takeWhile d hd
      · cases h
    · cases h
  · rintro ⟨rfl, hne, hbraceless⟩
    have hkept : ∀ c ∈ content, (!isBrace c) = true := fun c hc => by rw [hbraceless c hc]; rfl
    obtain ⟨c, content, rfl⟩ := List.exists_cons_of_ne_nil hne
    have htake : (c :: content ++ '\x7d' :: '\x7d' :: after).takeWhile (fun c => !isBrace c) =
        c :: content := by
      rw [List.takeWhile_append_of_pos hkept]
      simp [isBrace]
    have hdrop : (c :: content ++ '\x7d' :: '\x7d' :: after).dropWhile (fun c => !isBrace c) =
        '\x7d' :: '\x7d' :: after := by
      rw [List.dropWhile_append_of_pos hkept]
      simp [isBrace]
    simp only [placeholder?, htake, hdrop]

theorem pieces_of_some (h : placeholder? cs = some (content, after)) :
    pieces cs = .placeholder (expressionOf content) :: pieces after := by
  cases cs with
  | nil => cases h
  | cons c rest =>
    rw [pieces]
    split
    · rename_i heq
      rw [h] at heq
      cases heq
      rfl
    · rename_i heq
      rw [h] at heq
      cases heq

theorem pieces_of_none (h : placeholder? (c :: rest) = none) :
    pieces (c :: rest) = .literal c :: pieces rest := by
  rw [pieces]
  split
  · rename_i heq
    rw [h] at heq
    cases heq
  · rfl

/-! ## Literals -/

theorem IsLiteral.tail (h : IsLiteral (c :: cs)) : IsLiteral cs := by
  intro before content after heq
  exact h (c :: before) content after (by rw [heq, List.cons_append])

theorem isLiteral_of_braceless (h : ∀ c ∈ cs, isBrace c = false) : IsLiteral cs := by
  rintro before content after rfl
  have hbrace : isBrace '\x7b' = false := h _ (by simp)
  cases hbrace

theorem isLiteral_cons_iff : IsLiteral (c :: cs) ↔ placeholder? (c :: cs) = none ∧ IsLiteral cs := by
  constructor
  · intro h
    refine ⟨?_, h.tail⟩
    cases hplaceholder : placeholder? (c :: cs) with
    | none => rfl
    | some found =>
      obtain ⟨heq, hne, hbraceless⟩ := placeholder?_eq_some_iff.mp hplaceholder
      obtain ⟨d, hd, hbrace⟩ := h [] found.1 found.2 heq hne
      rw [hbraceless d hd] at hbrace
      cases hbrace
  · rintro ⟨hnone, htail⟩ before content after heq hne
    cases before with
    | cons d before =>
      obtain ⟨-, rfl⟩ := List.cons.inj heq
      exact htail before content after rfl hne
    | nil =>
      by_contra hbraceless
      have hsome := placeholder?_eq_some_iff.mpr ⟨heq, hne, by simpa using hbraceless⟩
      rw [hsome] at hnone
      cases hnone

instance decidableIsLiteral : (cs : List Char) → Decidable (IsLiteral cs)
  | [] => .isTrue (isLiteral_of_braceless (List.forall_mem_nil _))
  | _ :: cs =>
    have := decidableIsLiteral cs
    decidable_of_iff' _ isLiteral_cons_iff

/-- What can follow a literal: nothing, or two opening braces. -/
def StartsSlot (cs : List Char) : Prop := cs = [] ∨ ∃ more, cs = '\x7b' :: '\x7b' :: more

/-- No placeholder starts in a literal: it would have to end there as well, since it cannot go on past an
opening brace. -/
theorem IsLiteral.placeholder?_append (h : IsLiteral (c :: cs)) (hrest : StartsSlot rest) :
    placeholder? (c :: cs ++ rest) = none := by
  cases hplaceholder : placeholder? (c :: cs ++ rest) with
  | none => rfl
  | some found =>
    obtain ⟨content, after⟩ := found
    obtain ⟨heq, hne, hbraceless⟩ := placeholder?_eq_some_iff.mp hplaceholder
    have hwhole : c :: cs ++ rest =
        ('\x7b' :: '\x7b' :: (content ++ ['\x7d', '\x7d'])) ++ after := by
      rw [heq]
      simp
    have inside (more : List Char)
        (hcs : c :: cs = ('\x7b' :: '\x7b' :: (content ++ ['\x7d', '\x7d'])) ++ more) : False := by
      obtain ⟨d, hd, hbrace⟩ := h [] content more (by rw [hcs]; simp) hne
      rw [hbraceless d hd] at hbrace
      cases hbrace
    have hopen : '\x7b' ∉ content ++ ['\x7d', '\x7d'] := by
      intro hmem
      rcases List.mem_append.mp hmem with hcontent | hclose
      · cases hbraceless _ hcontent
      · simp at hclose
    rcases List.append_eq_append_iff.mp hwhole with ⟨beyond, hbeyond, hafter⟩ | ⟨more, hcs, -⟩
    · cases beyond with
      | nil => exact (inside [] (by simpa using hbeyond.symm)).elim
      | cons d beyond =>
        -- the rest goes on within the placeholder, and starts with two opening braces
        rcases hrest with rfl | ⟨more, rfl⟩
        · cases hafter
        · obtain ⟨rfl, hmore⟩ := List.cons.inj hafter
          obtain ⟨rfl, hcontent⟩ := List.cons.inj hbeyond
          cases cs with
          | nil =>
            obtain ⟨-, rfl⟩ := List.cons.inj hcontent
            obtain ⟨c, content, rfl⟩ := List.exists_cons_of_ne_nil hne
            obtain ⟨rfl, -⟩ := List.cons.inj hmore
            exact absurd List.mem_cons_self hopen
          | cons c cs =>
            obtain ⟨-, htail⟩ := List.cons.inj hcontent
            exact absurd (by rw [htail]; simp) hopen
    · exact (inside more hcs).elim

theorem pieces_append_of_isLiteral (h : IsLiteral cs) (hrest : StartsSlot rest) :
    pieces (cs ++ rest) = cs.map .literal ++ pieces rest := by
  induction cs with
  | nil => rfl
  | cons c cs ih =>
    have hnone := h.placeholder?_append hrest
    rw [List.cons_append] at hnone
    rw [List.cons_append, pieces_of_none hnone, ih h.tail, List.map_cons, List.cons_append]

/-! ## Slots -/

namespace Slot

theorem IsProper.content_braceless (h : s.IsProper) : ∀ c ∈ s.content, isBrace c = false := by
  intro c hc
  rcases List.mem_append.mp hc with hbefore | hc
  · exact isBrace_of_isBlank (h.blankBefore c hbefore)
  · rcases List.mem_append.mp hc with hname | hafter
    · exact h.braceless c hname
    · exact isBrace_of_isBlank (h.blankAfter c hafter)

theorem IsProper.content_ne_nil (h : s.IsProper) : s.content ≠ [] := by
  intro hnil
  exact h.nonempty (List.append_eq_nil_iff.mp (List.append_eq_nil_iff.mp hnil).2).1

theorem IsProper.expressionOf_content (h : s.IsProper) : expressionOf s.content = s.expression := by
  have hblank : s.content.all Text.isBlank = false := by
    obtain ⟨c, cs, hname⟩ := List.exists_cons_of_ne_nil h.nonempty
    rw [List.all_eq_false]
    refine ⟨c, ?_, ?_⟩
    · rw [content, hname]
      simp
    · rw [h.bare c (.inl (by rw [hname]; rfl))]
      exact Bool.false_ne_true
  rw [expressionOf, hblank, if_neg Bool.false_ne_true, content,
    Text.trimChars_padded h.blankBefore h.bare h.blankAfter]
  rfl

theorem chars_append (s : Slot) (rest : List Char) :
    s.chars ++ rest = '\x7b' :: '\x7b' :: (s.content ++ '\x7d' :: '\x7d' :: rest) := by
  simp [chars]

theorem IsProper.pieces_append (h : s.IsProper) (rest : List Char) :
    pieces (s.chars ++ rest) = .placeholder s.expression :: pieces rest := by
  rw [pieces_of_some (placeholder?_eq_some_iff.mpr
    ⟨s.chars_append rest, h.content_ne_nil, h.content_braceless⟩), h.expressionOf_content]

end Slot

/-! ## Lines -/

/-- A template text: what stands before its first placeholder, and each placeholder with what follows it. -/
structure Line where
  head : List Char
  rest : List (Slot × List Char) := []

namespace Line

def chars (l : Line) : List Char := l.head ++ l.rest.flatMap fun p => p.1.chars ++ p.2

def text (l : Line) : String := String.ofList l.chars

structure IsProper (l : Line) : Prop where
  head : IsLiteral l.head
  slots : ∀ p ∈ l.rest, p.1.IsProper
  literals : ∀ p ∈ l.rest, IsLiteral p.2

/-- The expressions of the placeholders, in order. -/
def expressions (l : Line) : List String := l.rest.map (·.1.expression)

/-- The one placeholder of a text that has nothing but blanks besides. -/
def only? (l : Line) : Option Slot :=
  match l.rest with
  | [(slot, tail)] =>
    if l.head.all Text.isBlank && tail.all Text.isBlank then some slot else none
  | _ => none

/-- The literal characters and the placeholders of a text. -/
def pieces (l : Line) : List Piece :=
  l.head.map .literal ++ l.rest.flatMap fun p => .placeholder p.1.expression :: p.2.map .literal

variable {l : Line}

theorem startsSlot (parts : List (Slot × List Char)) :
    StartsSlot (parts.flatMap fun p => p.1.chars ++ p.2) := by
  cases parts with
  | nil => exact .inl rfl
  | cons p parts =>
    rw [List.flatMap_cons, List.append_assoc, Slot.chars_append]
    exact .inr ⟨_, rfl⟩

/-- A template text is taken apart into what it was put together from. -/
theorem pieces_chars (h : l.IsProper) : Template.pieces l.chars = l.pieces := by
  obtain ⟨head, parts⟩ := l
  rw [chars, pieces, pieces_append_of_isLiteral h.head (startsSlot parts)]
  refine congrArg _ ?_
  have slots : ∀ p ∈ parts, p.1.IsProper := h.slots
  have literals : ∀ p ∈ parts, IsLiteral p.2 := h.literals
  clear h
  induction parts with
  | nil => rw [List.flatMap_nil, List.flatMap_nil, Template.pieces]
  | cons p parts ih =>
    obtain ⟨hslot, slots⟩ := List.forall_mem_cons.mp slots
    obtain ⟨hliteral, literals⟩ := List.forall_mem_cons.mp literals
    rw [List.flatMap_cons, List.flatMap_cons, List.append_assoc, hslot.pieces_append,
      pieces_append_of_isLiteral hliteral (startsSlot parts), ih slots literals, List.cons_append]

/-- A text is nothing but a placeholder if it is one with only blanks around it. -/
theorem whole?_eq_some_iff {t e : String} : whole? t = some e ↔
    ∃ before content after, t.toList =
        before ++ '\x7b' :: '\x7b' :: (content ++ '\x7d' :: '\x7d' :: after) ∧
      (∀ c ∈ before, Text.isBlank c = true) ∧ (∀ c ∈ after, Text.isBlank c = true) ∧
      content ≠ [] ∧ (∀ c ∈ content, isBrace c = false) ∧ expressionOf content = e := by
  constructor
  · intro h
    unfold whole? at h
    split at h
    · rename_i content hplaceholder
      cases h
      obtain ⟨htrim, hne, hbraceless⟩ := placeholder?_eq_some_iff.mp hplaceholder
      obtain ⟨before, after, ht, hbefore, hafter⟩ := Text.exists_trimChars t.toList
      refine ⟨before, content, after, ?_, hbefore, hafter, hne, hbraceless, rfl⟩
      rw [ht, htrim]
      simp
    · cases h
  · rintro ⟨before, content, after, ht, hbefore, hafter, hne, hbraceless, rfl⟩
    have hbare : Text.IsBare ('\x7b' :: '\x7b' :: (content ++ '\x7d' :: '\x7d' :: [])) := by
      rintro c (hc | hc)
      · obtain rfl : '\x7b' = c := by simpa using hc
        rfl
      · obtain rfl : '\x7d' = c := by simpa [List.getLast?_cons, List.getLast?_append] using hc
        rfl
    have htrim : Text.trimChars t.toList = '\x7b' :: '\x7b' :: (content ++ '\x7d' :: '\x7d' :: []) := by
      have hpadded := Text.trimChars_padded hbefore hbare hafter
      rw [ht]
      simpa using hpadded
    rw [whole?, placeholder?_eq_some_iff.mpr ⟨htrim, hne, hbraceless⟩]

theorem literal_injective : Function.Injective Piece.literal := fun _ _ h => Piece.literal.inj h

theorem placeholder_not_mem_literals (e : String) (cs : List Char) :
    Piece.placeholder e ∉ cs.map Piece.literal := by
  intro h
  obtain ⟨c, -, hc⟩ := List.mem_map.mp h
  cases hc

theorem only?_eq_some_iff : l.only? = some s ↔ ∃ tail, l.rest = [(s, tail)] ∧
    (∀ c ∈ l.head, Text.isBlank c = true) ∧ ∀ c ∈ tail, Text.isBlank c = true := by
  unfold only?
  split
  · rename_i slot tail hrest
    rw [hrest]
    constructor
    · intro h
      split at h
      · rename_i hblank
        cases h
        rw [Bool.and_eq_true, List.all_eq_true, List.all_eq_true] at hblank
        exact ⟨tail, rfl, hblank⟩
      · cases h
    · rintro ⟨_, ⟨⟩, hhead, htail⟩
      rw [if_pos (by rw [List.all_eq_true.mpr hhead, List.all_eq_true.mpr htail]; rfl)]
  · rename_i hrest
    constructor
    · intro h
      cases h
    · rintro ⟨tail, h, -⟩
      exact absurd h (hrest s tail)

/-- A text that is taken apart into one placeholder among literals has just this placeholder. -/
theorem slot_of_pieces {before after : List Char} {e : String}
    (h : l.pieces = before.map .literal ++ .placeholder e :: after.map .literal) :
    ∃ slot, l = ⟨before, [(slot, after)]⟩ ∧ slot.expression = e := by
  obtain ⟨head, parts⟩ := l
  unfold pieces at h
  dsimp only at h
  cases parts with
  | nil =>
    refine absurd ?_ (placeholder_not_mem_literals e head)
    rw [List.flatMap_nil, List.append_nil] at h
    rw [h]
    simp
  | cons p parts =>
    rw [List.flatMap_cons, List.cons_append, eq_comm, List.append_cons_inj_of_notMem
      (placeholder_not_mem_literals _ before) (placeholder_not_mem_literals _ after)] at h
    obtain ⟨hsame, hexpression, htail⟩ := h
    obtain rfl := List.map_injective_iff.mpr literal_injective hsame
    cases parts with
    | nil =>
      rw [List.flatMap_nil, List.append_nil] at htail
      obtain rfl := List.map_injective_iff.mpr literal_injective htail
      exact ⟨p.1, rfl, (Piece.placeholder.inj hexpression).symm⟩
    | cons q parts =>
      refine absurd ?_ (placeholder_not_mem_literals q.1.expression after)
      rw [htail]
      simp

/-- A text is taken for nothing but a placeholder if it has one and only blanks besides. -/
theorem whole?_text (h : l.IsProper) : whole? l.text = l.only?.map Slot.expression := by
  refine Option.ext fun e => ?_
  rw [whole?_eq_some_iff, Option.map_eq_some_iff, text, String.toList_ofList]
  constructor
  · rintro ⟨before, content, after, hchars, hbefore, hafter, hne, hbraceless, rfl⟩
    have hliteral {cs : List Char} (hcs : ∀ c ∈ cs, Text.isBlank c = true) : IsLiteral cs :=
      isLiteral_of_braceless fun c hc => isBrace_of_isBlank (hcs c hc)
    have hplaceholder : placeholder? ('\x7b' :: '\x7b' :: (content ++ '\x7d' :: '\x7d' :: after)) =
        some (content, after) := placeholder?_eq_some_iff.mpr ⟨rfl, hne, hbraceless⟩
    have hpieces : l.pieces = before.map .literal ++
        .placeholder (expressionOf content) :: after.map .literal := by
      rw [← pieces_chars h, hchars, pieces_append_of_isLiteral (hliteral hbefore) (.inr ⟨_, rfl⟩),
        pieces_of_some hplaceholder]
      have hend := pieces_append_of_isLiteral (hliteral hafter) (.inl rfl)
      rw [List.append_nil, Template.pieces, List.append_nil] at hend
      rw [hend]
    obtain ⟨slot, rfl, hexpression⟩ := slot_of_pieces hpieces
    exact ⟨slot, only?_eq_some_iff.mpr ⟨after, rfl, hbefore, hafter⟩, hexpression⟩
  · rintro ⟨slot, honly, rfl⟩
    obtain ⟨tail, hrest, hhead, htail⟩ := only?_eq_some_iff.mp honly
    have hslot : slot.IsProper := h.slots (slot, tail) (by rw [hrest]; exact List.mem_cons_self)
    refine ⟨l.head, slot.content, tail, ?_, hhead, htail, hslot.content_ne_nil,
      hslot.content_braceless, hslot.expressionOf_content⟩
    rw [chars, hrest, List.flatMap_singleton, Slot.chars_append]

end Line

end Conveyor.Template
