import Conveyor.Json.Printer
import Conveyor.Proofs.Binary64.Shortest
import Conveyor.Proofs.Json.Digits

/-!
# Numerals

Every finite double and every integer of at most 4300 digits is read back from the numeral that it
is written as, whatever the layout.
-/

namespace Conveyor.Json

/-! ## Parts and characters -/

/-- The characters of a run of digits that is not empty. -/
structure IsDigits (ds : List Char) : Prop where
  digits : ∀ c ∈ ds, isAsciiDigit c = true
  nonempty : ds ≠ []

theorem isDigits_decimalDigits (n : Nat) : IsDigits (decimalDigits n) :=
  ⟨all_isAsciiDigit n, decimalDigits_ne_nil n⟩

theorem isAsciiDigit_zero : isAsciiDigit '0' = true := by decide

theorem isDigits_zero : IsDigits ['0'] :=
  ⟨List.forall_mem_singleton.mpr isAsciiDigit_zero, List.cons_ne_nil _ _⟩

theorem isDigits_zeros_append (n : Nat) {ds : List Char} (h : IsDigits ds) :
    IsDigits (List.replicate n '0' ++ ds) := by
  refine ⟨fun c hc => ?_, fun hnil => h.nonempty (List.append_eq_nil_iff.mp hnil).2⟩
  rcases List.mem_append.mp hc with hc | hc
  · rw [List.eq_of_mem_replicate hc]
    exact isAsciiDigit_zero
  · exact h.digits c hc

theorem IsDigits.isEmpty {ds : List Char} (h : IsDigits ds) : ds.isEmpty = false := by
  cases ds with
  | nil => exact absurd rfl h.nonempty
  | cons d ds => rfl

/-- A sign of an exponent. -/
def signChars : Option Char → List Char
  | some s => [s]
  | none => []

/-- The characters of the part after the point. -/
def partChars : Option (List Char) → List Char
  | some ds => '.' :: ds
  | none => []

/-- The characters of the exponent with its mark. -/
def exponentChars : Option (Option Char × List Char) → List Char
  | some (sign, ds) => 'e' :: (signChars sign ++ ds)
  | none => []

/-- The numeral with the given parts. -/
def NumeralParts.chars (p : NumeralParts) : List Char :=
  (if p.negative then ['-'] else []) ++ (p.whole ++ (partChars p.part ++ exponentChars p.exponent))

/-- What the parts of a numeral have to be for it to be in the grammar. -/
structure NumeralParts.IsRegular (p : NumeralParts) : Prop where
  whole : IsDigits p.whole
  leading : p.whole.head? = some '0' → p.whole = ['0']
  part : ∀ ds, p.part = some ds → IsDigits ds
  exponent : ∀ sign ds, p.exponent = some (sign, ds) →
    IsDigits ds ∧ ∀ s, sign = some s → s = '+' ∨ s = '-'

/-- The text does not go on as a numeral could. -/
def EndsNumeral (rest : List Char) : Prop :=
  ∀ c, rest.head? = some c → isAsciiDigit c = false ∧ c ≠ '.' ∧ c ≠ 'e' ∧ c ≠ 'E'

theorem EndsNumeral.digits {rest : List Char} (h : EndsNumeral rest) : EndsDigits rest :=
  fun c hc => (h c hc).1

theorem endsNumeral_nil : EndsNumeral [] := by
  intro c hc
  cases hc

theorem readExponent_ends {rest : List Char} (h : EndsNumeral rest) :
    readExponent rest = (none, rest) := by
  cases rest with
  | nil => rfl
  | cons c rest =>
    obtain ⟨-, -, hlower, hupper⟩ := h c rfl
    rw [readExponent.eq_def]
    exact if_neg (not_or.mpr ⟨hlower, hupper⟩)

theorem sign_ne_digit {c : Char} (h : isAsciiDigit c = true) : ¬ (c = '+' ∨ c = '-') := by
  rintro (rfl | rfl)
  · exact absurd h (by decide)
  · exact absurd h (by decide)

/-- An exponent is read back. -/
theorem readExponent_chars {exponent : Option (Option Char × List Char)} {rest : List Char}
    (h : ∀ sign ds, exponent = some (sign, ds) →
      IsDigits ds ∧ ∀ s, sign = some s → s = '+' ∨ s = '-') (hrest : EndsNumeral rest) :
    readExponent (exponentChars exponent ++ rest) = (exponent, rest) := by
  rcases exponent with _ | ⟨sign, ds⟩
  · exact readExponent_ends hrest
  · obtain ⟨hds, hsign⟩ := h sign ds rfl
    have htake := takeWhile_digits hds.digits hrest.digits
    have hdrop := dropWhile_digits hds.digits hrest.digits
    rw [exponentChars, List.cons_append]
    cases sign with
    | none =>
      obtain ⟨d, ds', rfl⟩ := List.exists_cons_of_ne_nil hds.nonempty
      have hd := hds.digits d List.mem_cons_self
      rw [List.cons_append] at htake hdrop
      simp only [signChars, List.nil_append, List.cons_append, readExponent,
        if_neg (sign_ne_digit hd)]
      rw [htake, hdrop]
      rfl
    | some s =>
      simp only [signChars, List.cons_append, List.nil_append, readExponent,
        if_pos (hsign s rfl)]
      rw [htake, hdrop, hds.isEmpty]
      rfl

/-- The text does not go on with a digit or a point. -/
theorem readPart_chars {part : Option (List Char)} {rest : List Char}
    (h : ∀ ds, part = some ds → IsDigits ds) (hdigits : EndsDigits rest)
    (hpoint : rest.head? ≠ some '.') :
    readPart (partChars part ++ rest) = (part, rest) := by
  cases part with
  | none =>
    rw [partChars, List.nil_append, readPart.eq_def]
    split
    · exact absurd rfl hpoint
    · rfl
  | some ds =>
    have hds := h ds rfl
    simp only [partChars, List.cons_append, readPart, takeWhile_digits hds.digits hdigits,
      dropWhile_digits hds.digits hdigits, hds.isEmpty]
    rfl

theorem endsDigits_exponentChars (exponent : Option (Option Char × List Char)) {rest : List Char}
    (hrest : EndsNumeral rest) :
    EndsDigits (exponentChars exponent ++ rest) ∧
      (exponentChars exponent ++ rest).head? ≠ some '.' := by
  rcases exponent with _ | ⟨sign, ds⟩
  · refine ⟨hrest.digits, fun hpoint => ?_⟩
    exact (hrest _ hpoint).2.1 rfl
  · refine ⟨fun c hc => ?_, fun hpoint => ?_⟩
    · obtain rfl : 'e' = c := Option.some.inj hc
      decide
    · exact absurd (Option.some.inj hpoint) (by decide)

theorem endsDigits_partChars (part : Option (List Char)) {rest : List Char}
    (hrest : EndsDigits rest) : EndsDigits (partChars part ++ rest) := by
  cases part with
  | none => exact hrest
  | some ds =>
    intro c hc
    obtain rfl : '.' = c := Option.some.inj hc
    decide

/-! ## Whole numerals -/

/-- The digits before the point; after a zero there are none. -/
def readWhole (cs : List Char) : List Char :=
  match cs with
  | '0' :: _ => ['0']
  | _ => cs.takeWhile isAsciiDigit

/-- A numeral after its sign. -/
def readUnsigned? (negative : Bool) (cs : List Char) : Option (NumeralParts × List Char) :=
  let whole := readWhole cs
  if whole.isEmpty then none
  else
    let (part, cs) := readPart (cs.drop whole.length)
    let (exponent, cs) := readExponent cs
    some (⟨negative, whole, part, exponent⟩, cs)

theorem readNumeral?_minus (cs : List Char) : readNumeral? ('-' :: cs) = readUnsigned? true cs :=
  rfl

theorem readNumeral?_digit {c : Char} (h : isAsciiDigit c = true) (cs : List Char) :
    readNumeral? (c :: cs) = readUnsigned? false (c :: cs) := by
  unfold readNumeral?
  split
  · rename_i hminus
    split at hminus
    · rename_i hcons
      obtain rfl : c = '-' := (List.cons.inj hcons).1
      exact absurd h (by decide)
    · cases hminus
      rfl

theorem readWhole_append {whole rest : List Char} (hwhole : IsDigits whole)
    (hleading : whole.head? = some '0' → whole = ['0']) (hrest : EndsDigits rest) :
    readWhole (whole ++ rest) = whole := by
  obtain ⟨d, ds, rfl⟩ := List.exists_cons_of_ne_nil hwhole.nonempty
  by_cases hd : d = '0'
  · subst hd
    rw [hleading rfl]
    rfl
  · have htake := takeWhile_digits hwhole.digits hrest
    rw [List.cons_append] at htake ⊢
    rw [readWhole.eq_def]
    split
    · rename_i hcons
      exact absurd (List.cons.inj hcons).1 hd
    · exact htake

/-- A numeral is read back part by part. -/
theorem readUnsigned?_chars {p : NumeralParts} (hp : p.IsRegular) {rest : List Char}
    (hrest : EndsNumeral rest) :
    readUnsigned? p.negative (p.whole ++ (partChars p.part ++ (exponentChars p.exponent ++ rest))) =
      some (p, rest) := by
  obtain ⟨hdigits, hpoint⟩ := endsDigits_exponentChars p.exponent hrest
  have hwhole := readWhole_append hp.whole hp.leading (endsDigits_partChars p.part hdigits)
  rw [readUnsigned?]
  simp only [hwhole, hp.whole.isEmpty, List.drop_left, readPart_chars hp.part hdigits hpoint,
    readExponent_chars hp.exponent hrest]
  rfl

theorem readNumeral?_chars {p : NumeralParts} (hp : p.IsRegular) {rest : List Char}
    (hrest : EndsNumeral rest) : readNumeral? (p.chars ++ rest) = some (p, rest) := by
  have hread := readUnsigned?_chars hp hrest
  obtain ⟨d, ds, hd⟩ := List.exists_cons_of_ne_nil hp.whole.nonempty
  have hdigit : isAsciiDigit d = true := hp.whole.digits d (by rw [hd]; exact List.mem_cons_self)
  unfold NumeralParts.chars
  cases hneg : p.negative with
  | true =>
    rw [hneg] at hread
    simp only [if_true, List.cons_append, List.nil_append, List.append_assoc]
    rw [readNumeral?_minus]
    exact hread
  | false =>
    rw [hneg, hd, List.cons_append] at hread
    simp only [Bool.false_eq_true, if_false, List.nil_append, List.append_assoc, hd,
      List.cons_append]
    rw [readNumeral?_digit hdigit]
    exact hread

/-! ## Layouts -/

/-- The digits of a numeral without its point, as a number. -/
def NumeralParts.coefficient (p : NumeralParts) : Nat := numberOf (p.whole ++ p.part.getD [])

/-- The power of ten that an exponent writes. -/
def exponentValue : Option (Option Char × List Char) → Int
  | some (some '-', ds) => -(numberOf ds : Int)
  | some (_, ds) => numberOf ds
  | none => 0

/-- The power of ten by which the digits of a numeral are scaled. -/
def NumeralParts.power (p : NumeralParts) : Int :=
  exponentValue p.exponent - (p.part.getD []).length

theorem toBinary64_eq (p : NumeralParts) :
    p.toBinary64 = .ofDecimal p.negative p.coefficient p.power := by
  unfold NumeralParts.toBinary64 NumeralParts.coefficient NumeralParts.power exponentValue
  rfl

/-- The parts of a positive numeral that stands for a decimal and not for an integer. -/
structure Writes (p : NumeralParts) (cs : List Char) (c : Nat) (e : Int) : Prop where
  regular : p.IsRegular
  positive : p.negative = false
  chars : p.chars = cs
  fraction : p.part.isSome = true ∨ p.exponent.isSome = true
  value : (p.coefficient : ℚ) * 10 ^ p.power = c * 10 ^ e

/-- The sign and digits of an exponent. -/
def exponentParts (l : DecimalLayout) (e : Int) : Option Char × List Char :=
  (if e < 0 then some '-' else if l.plus then some '+' else none,
    List.replicate (l.exponentWidth - (decimalDigits e.natAbs).length) '0'
      ++ decimalDigits e.natAbs)

theorem exponentText_eq (l : DecimalLayout) (e : Int) :
    l.exponentText e = signChars (exponentParts l e).1 ++ (exponentParts l e).2 := by
  unfold DecimalLayout.exponentText exponentParts
  split
  · rfl
  split
  · rfl
  · rfl

theorem exponentValue_parts (l : DecimalLayout) (e : Int) :
    exponentValue (some (exponentParts l e)) = e := by
  unfold exponentParts
  split
  · rw [exponentValue, numberOf_zeros_append, numberOf_decimalDigits]
    omega
  split
  · rw [exponentValue, numberOf_zeros_append, numberOf_decimalDigits]
    · omega
    · simp
  · rw [exponentValue, numberOf_zeros_append, numberOf_decimalDigits]
    · omega
    · simp

theorem exponentParts_regular (l : DecimalLayout) (e : Int) :
    ∀ sign ds, some (exponentParts l e) = some (sign, ds) →
      IsDigits ds ∧ ∀ s, sign = some s → s = '+' ∨ s = '-' := by
  intro sign ds h
  obtain ⟨hsign, rfl⟩ := Prod.mk.inj (Option.some.inj h)
  refine ⟨isDigits_zeros_append _ (isDigits_decimalDigits _), ?_⟩
  rintro s rfl
  split at hsign
  · exact .inr (Option.some.inj hsign).symm
  split at hsign
  · exact .inl (Option.some.inj hsign).symm
  · cases hsign

/-- A number below one with its point before its digits. -/
theorem writes_small (c n : Nat) :
    Writes ⟨false, ['0'], some (List.replicate n '0' ++ decimalDigits c), none⟩
      ('0' :: '.' :: (List.replicate n '0' ++ decimalDigits c)) c
      (-(n : Int) - (decimalDigits c).length) where
  regular := by
    refine ⟨isDigits_zero, fun _ => rfl, ?_, ?_⟩
    · rintro ds ⟨⟩
      exact isDigits_zeros_append n (isDigits_decimalDigits c)
    · rintro sign ds ⟨⟩
  positive := rfl
  chars := by simp [NumeralParts.chars, partChars, exponentChars]
  fraction := .inl rfl
  value := by
    have hnumber := numberOf_zeros_append (n + 1) (decimalDigits c)
    rw [numberOf_decimalDigits, List.replicate_succ, List.cons_append] at hnumber
    simp only [NumeralParts.coefficient, NumeralParts.power, exponentValue, Option.getD_some,
      List.cons_append, List.nil_append, hnumber, List.length_append, List.length_replicate]
    congr 2
    push_cast
    ring

theorem leading_append {c : Nat} (hc : 0 < c) {front back : List Char} (hfront : front ≠ [])
    (hdigits : decimalDigits c = front ++ back) (zeros : List Char) :
    (front ++ zeros).head? ≠ some '0' := by
  have hhead := head?_decimalDigits hc
  obtain ⟨d, ds, rfl⟩ := List.exists_cons_of_ne_nil hfront
  rw [hdigits] at hhead
  exact hhead

/-- A number whose digits all stand before the point. -/
theorem writes_whole {c : Nat} (hc : 0 < c) (n : Nat) :
    Writes ⟨false, decimalDigits c ++ List.replicate n '0', some ['0'], none⟩
      (decimalDigits c ++ List.replicate n '0' ++ '.' :: ['0']) c n where
  regular := by
    refine ⟨⟨fun d hd => ?_, ?_⟩, ?_, ?_, ?_⟩
    · rcases List.mem_append.mp hd with hd | hd
      · exact all_isAsciiDigit c d hd
      · rw [List.eq_of_mem_replicate hd]
        exact isAsciiDigit_zero
    · intro hnil
      exact decimalDigits_ne_nil c (List.append_eq_nil_iff.mp hnil).1
    · intro hzero
      exact absurd hzero
        (leading_append hc (decimalDigits_ne_nil c) (List.append_nil _).symm _)
    · rintro ds ⟨⟩
      exact isDigits_zero
    · rintro sign ds ⟨⟩
  positive := rfl
  chars := by simp [NumeralParts.chars, partChars, exponentChars]
  fraction := .inl rfl
  value := by
    have hnumber :
        numberOf (decimalDigits c ++ List.replicate n '0' ++ ['0']) = c * 10 ^ (n + 1) := by
      rw [List.append_assoc, ← List.replicate_succ', numberOf_append_zeros, numberOf_decimalDigits]
    simp only [NumeralParts.coefficient, NumeralParts.power, exponentValue, Option.getD_some,
      hnumber, List.length_singleton]
    push_cast
    rw [pow_succ]
    norm_num
    ring

/-- A number with digits on both sides of the point. -/
theorem writes_mixed {c : Nat} (hc : 0 < c) {front back : List Char} (hfront : front ≠ [])
    (hback : back ≠ []) (hdigits : decimalDigits c = front ++ back) :
    Writes ⟨false, front, some back, none⟩ (front ++ '.' :: back) c (-(back.length : Int)) where
  regular := by
    have hall := all_isAsciiDigit c
    rw [hdigits] at hall
    refine ⟨⟨fun d hd => hall d (List.mem_append_left _ hd), hfront⟩, ?_, ?_, ?_⟩
    · intro hzero
      rw [← List.append_nil front] at hzero
      exact absurd hzero (leading_append hc hfront hdigits [])
    · rintro ds ⟨⟩
      exact ⟨fun d hd => hall d (List.mem_append_right _ hd), hback⟩
    · rintro sign ds ⟨⟩
  positive := rfl
  chars := by simp [NumeralParts.chars, partChars, exponentChars]
  fraction := .inl rfl
  value := by
    have hnumber : numberOf (front ++ back) = c := by rw [← hdigits, numberOf_decimalDigits]
    simp only [NumeralParts.coefficient, NumeralParts.power, exponentValue, Option.getD_some,
      hnumber, zero_sub]

/-- A number with one digit before the point and an exponent. -/
theorem writes_scientific (l : DecimalLayout) {c : Nat} {d : Char} {ds : List Char}
    (hdigits : decimalDigits c = d :: ds) (e : Int) :
    Writes ⟨false, [d], if ds.isEmpty then none else some ds, some (exponentParts l e)⟩
      (d :: (partChars (if ds.isEmpty then none else some ds) ++ 'e' :: l.exponentText e)) c
      (e - ds.length) where
  regular := by
    have hall := all_isAsciiDigit c
    rw [hdigits] at hall
    refine ⟨⟨fun d' hd => hall d' ?_, by simp⟩, ?_, ?_, exponentParts_regular l e⟩
    · rw [List.mem_singleton.mp hd]
      exact List.mem_cons_self
    · intro hzero
      rw [Option.some.inj hzero]
    · intro ds' hds'
      split at hds'
      · cases hds'
      · rename_i hempty
        obtain rfl := Option.some.inj hds'
        refine ⟨fun d' hd => hall d' (List.mem_cons_of_mem _ hd), ?_⟩
        simpa using hempty
  positive := rfl
  chars := by simp [NumeralParts.chars, exponentChars, exponentText_eq]
  fraction := .inr rfl
  value := by
    have hnumber : numberOf (d :: ds) = c := by rw [← hdigits, numberOf_decimalDigits]
    cases ds with
    | nil => simp [NumeralParts.coefficient, NumeralParts.power, exponentValue_parts, hnumber]
    | cons d' ds =>
      simp [NumeralParts.coefficient, NumeralParts.power, exponentValue_parts, hnumber]

/-- Every layout writes a positive decimal as a numeral of the grammar. -/
theorem exists_writes_layOut (l : DecimalLayout) {c : Nat} (hc : 0 < c) (p : Int) :
    ∃ parts, Writes parts (l.layOut (decimalDigits c) ((decimalDigits c).length + p)) c p := by
  obtain ⟨d, ds, hdigits⟩ := List.exists_cons_of_ne_nil (decimalDigits_ne_nil c)
  generalize hpoint : ((decimalDigits c).length : Int) + p = point
  -- the point stands before the digits, within them or after them, or there is an exponent
  unfold DecimalLayout.layOut
  split
  · split
    · rename_i hsmall
      have h := writes_small c (-point).toNat
      rw [show -(((-point).toNat : Nat) : Int) - (decimalDigits c).length = p by omega] at h
      exact ⟨_, h⟩
    · rename_i hpositive
      rcases Nat.lt_or_ge point.toNat (decimalDigits c).length with hlt | hge
      · have hback : (decimalDigits c).drop point.toNat ≠ [] := by
          intro hnil
          have := List.drop_eq_nil_iff.mp hnil
          omega
        have hfront : (decimalDigits c).take point.toNat ≠ [] := by
          intro hnil
          rcases List.take_eq_nil_iff.mp hnil with hzero | hnil
          · omega
          · exact decimalDigits_ne_nil c hnil
        have h := writes_mixed hc hfront hback (List.take_append_drop _ _).symm
        rw [List.length_drop,
          show -(((decimalDigits c).length - point.toNat : Nat) : Int) = p by omega] at h
        have hempty : ((decimalDigits c).drop point.toNat).isEmpty = false := by
          simpa using hback
        simp only [hempty, show point.toNat - (decimalDigits c).length = 0 by omega,
          List.replicate_zero, List.append_nil]
        exact ⟨_, h⟩
      · have h := writes_whole hc (point.toNat - (decimalDigits c).length)
        rw [show (((point.toNat - (decimalDigits c).length : Nat) : Int)) = p by omega] at h
        simp only [List.take_of_length_le hge, List.drop_of_length_le hge, List.isEmpty_nil]
        exact ⟨_, h⟩
  · have h := writes_scientific l hdigits (point - 1)
    have hlength : (decimalDigits c).length = ds.length + 1 := by rw [hdigits, List.length_cons]
    rw [show point - 1 - (ds.length : Int) = p by omega] at h
    rw [hdigits]
    cases ds with
    | nil => exact ⟨_, h⟩
    | cons d' ds =>
      simp only [List.isEmpty_cons, Bool.false_eq_true, if_false, partChars, List.cons_append] at h
      exact ⟨_, h⟩

/-! ## Doubles and integers -/

/-- What a finite double is written as, with its sign. -/
structure WritesDouble (p : NumeralParts) (cs : List Char) (x : Binary64) : Prop where
  regular : p.IsRegular
  chars : p.chars = cs
  fraction : p.part.isSome = true ∨ p.exponent.isSome = true
  double : p.toBinary64 = x

theorem Writes.withSign {p : NumeralParts} {cs : List Char} {c : Nat} {e : Int}
    (h : Writes p cs c e) {x : Binary64} (hx : x.isFinite = true) (hpos : 0 < x.significand)
    (hround : Binary64.RoundsTo (c * 10 ^ e) x.abs) :
    WritesDouble { p with negative := x.negative } (if x.negative then '-' :: cs else cs) x where
  regular := ⟨h.regular.whole, h.regular.leading, h.regular.part, h.regular.exponent⟩
  chars := by
    have hchars := h.chars
    unfold NumeralParts.chars at hchars ⊢
    rw [h.positive] at hchars
    simp only [Bool.false_eq_true, if_false, List.nil_append] at hchars
    simp only [hchars]
    split
    · rfl
    · rfl
  fraction := h.fraction
  double := by
    rw [← h.value] at hround
    rw [toBinary64_eq]
    exact Binary64.ofDecimal_eq (x := x.abs) hx hpos x.negative hround

theorem eq_zero_of_significand {x : Binary64} (h : x.significand = 0) :
    x = ⟨x.negative, 0, 0⟩ := by
  obtain ⟨negative, exponent, fraction⟩ := x
  unfold Binary64.significand at h
  split at h
  · rename_i hexponent
    rw [show exponent = 0 from Fin.ext hexponent, show fraction = 0 from Fin.ext h]
  · simp at h

/-- A finite double is written as a numeral that stands for it. -/
theorem exists_writesDouble (l : DecimalLayout) {x : Binary64} (hx : x.isFinite = true) :
    ∃ p, WritesDouble p (l.writeFinite x) x := by
  unfold DecimalLayout.writeFinite
  rcases Nat.eq_zero_or_pos x.significand with hzero | hpos
  · have hx' : x.isZero = true := by simp [Binary64.isZero, hx, hzero]
    refine ⟨⟨x.negative, ['0'], some ['0'], none⟩, ⟨isDigits_zero, fun _ => rfl, ?_, ?_⟩, ?_,
      .inl rfl, ?_⟩
    · rintro ds ⟨⟩
      exact isDigits_zero
    · rintro sign ds ⟨⟩
    · simp only [hx', if_true]
      unfold NumeralParts.chars
      split
      · rfl
      · rfl
    · -- a zero keeps its sign, which its value does not tell
      conv_rhs => rw [eq_zero_of_significand hzero]
      rfl
  · have hx' : x.isZero = false := by simp [Binary64.isZero, Nat.ne_of_gt hpos]
    have hround := Binary64.roundsTo_shortest (x := x.abs) hx hpos
    have hc : 0 < x.abs.shortest.1 := by
      rcases Nat.eq_zero_or_pos x.abs.shortest.1 with hc | hc
      · have hlow := (hround.bounds hx hpos).1
        rw [hc, Nat.cast_zero, zero_mul] at hlow
        exact absurd hlow (not_le.mpr (by positivity))
      · exact hc
    obtain ⟨p, hp⟩ := exists_writes_layOut l hc x.abs.shortest.2
    simp only [hx', Bool.false_eq_true, if_false]
    exact ⟨_, hp.withSign hx hpos hround⟩

theorem words_of_digit (d : Dialect) {c : Char} (h : isAsciiDigit c = true) (cs : List Char) :
    ((words d).findSome? fun (w, v) => (afterWord? w.toList (c :: cs)).map (v, ·)) = none := by
  have hne : ∀ c', isAsciiDigit c' = false → c' ≠ c := by
    rintro c' h' rfl
    rw [h] at h'
    cases h'
  cases d <;>
    simp [words, afterWord?, hne 'n' (by decide), hne 't' (by decide), hne 'f' (by decide),
      hne 'N' (by decide), hne 'I' (by decide), hne '-' (by decide)]

theorem words_of_minus (d : Dialect) {c : Char} (h : isAsciiDigit c = true) (cs : List Char) :
    ((words d).findSome? fun (w, v) => (afterWord? w.toList ('-' :: c :: cs)).map (v, ·)) =
      none := by
  have hne : 'I' ≠ c := by
    rintro rfl
    exact absurd h (by decide)
  cases d <;> simp [words, afterWord?, hne]

/-- A numeral starts with a digit, or with a minus and a digit. -/
theorem NumeralParts.IsRegular.start {p : NumeralParts} (hp : p.IsRegular) :
    ∃ c cs, isAsciiDigit c = true ∧ (p.chars = c :: cs ∨ p.chars = '-' :: c :: cs) := by
  obtain ⟨c, ds, hc⟩ := List.exists_cons_of_ne_nil hp.whole.nonempty
  have hdigit : isAsciiDigit c = true := hp.whole.digits c (by rw [hc]; exact List.mem_cons_self)
  refine ⟨c, ds ++ (partChars p.part ++ exponentChars p.exponent), hdigit, ?_⟩
  unfold NumeralParts.chars
  rw [hc]
  split
  · exact .inr rfl
  · exact .inl rfl

/-- A numeral is none of the words, so it is read as a number. -/
theorem readPlain?_chars (d : Dialect) {p : NumeralParts} (hp : p.IsRegular) {rest : List Char}
    (hrest : EndsNumeral rest) :
    readPlain? d (p.chars ++ rest) = (p.value? d p.chars).map (·, rest) := by
  have hwords : ((words d).findSome? fun (w, v) =>
      (afterWord? w.toList (p.chars ++ rest)).map (v, ·)) = none := by
    obtain ⟨c, cs, hc, hchars | hchars⟩ := hp.start
    · rw [hchars]
      exact words_of_digit d hc _
    · rw [hchars]
      exact words_of_minus d hc _
  rw [readPlain?, hwords]
  simp only [readNumeral?_chars hp hrest, List.length_append, Nat.add_sub_cancel, List.take_left,
    Option.bind_eq_bind, Option.bind_some]
  cases p.value? d p.chars with
  | none => rfl
  | some v => rfl

theorem value?_of_fraction {d : Dialect} (hd : d ≠ .settings) {p : NumeralParts}
    (h : p.part.isSome = true ∨ p.exponent.isSome = true) (raw : List Char) :
    p.value? d raw = some (.float p.toBinary64) := by
  unfold NumeralParts.value?
  split
  · rename_i hpart hexponent
    rw [hpart, hexponent] at h
    simp at h
  · simp [hd]

/-- A finite double is read back. -/
theorem readPlain?_writeFinite {d : Dialect} (hd : d ≠ .settings) (l : DecimalLayout)
    {x : Binary64} (hx : x.isFinite = true) {rest : List Char} (hrest : EndsNumeral rest) :
    readPlain? d (l.writeFinite x ++ rest) = some (.float x, rest) := by
  obtain ⟨p, hp⟩ := exists_writesDouble l hx
  rw [← hp.chars, readPlain?_chars d hp.regular hrest, value?_of_fraction hd hp.fraction, hp.double]
  rfl

/-- The parts of an integer. -/
def integerParts (n : Int) : NumeralParts := ⟨n < 0, decimalDigits n.natAbs, none, none⟩

theorem integerParts_chars (n : Int) : (integerParts n).chars = decimalText n := by
  unfold NumeralParts.chars integerParts decimalText
  simp only [partChars, exponentChars, List.append_nil, decide_eq_true_eq]
  split
  · rfl
  · rfl

theorem integerParts_regular (n : Int) : (integerParts n).IsRegular where
  whole := isDigits_decimalDigits _
  leading := by
    intro hzero
    rcases Nat.eq_zero_or_pos n.natAbs with h | h
    · simp only [integerParts, h]
      rfl
    · exact absurd hzero (head?_decimalDigits h)
  part := by rintro ds ⟨⟩
  exponent := by rintro sign ds ⟨⟩

/-- An integer of no more digits than are read is read back. -/
theorem readPlain?_decimalText (d : Dialect) {n : Int}
    (hn : (decimalDigits n.natAbs).length ≤ maxDigits) {rest : List Char}
    (hrest : EndsNumeral rest) : readPlain? d (decimalText n ++ rest) = some (.int n, rest) := by
  rw [← integerParts_chars, readPlain?_chars d (integerParts_regular n) hrest]
  simp only [NumeralParts.value?, integerParts, if_neg (Nat.not_lt.mpr hn), numberOf_decimalDigits,
    decide_eq_true_eq, Option.map_some, Option.some.injEq, Prod.mk.injEq, Value.int.injEq, and_true]
  split
  · omega
  · omega

end Conveyor.Json
