import Conveyor.Text.Blank
import Conveyor.Text.Search

/-!
# Texts put together

A text that was put together from a fixed part and a number or a name tells what it was put
together from.
-/

namespace Conveyor.Text

theorem natText_inj {m n : Nat} (h : Nat.repr m = Nat.repr n) : m = n := by
  have hdigits : Nat.toDigits 10 m = Nat.toDigits 10 n := String.ofList_injective h
  rw [← @Nat.ofDigitChars_ten_toDigits m, hdigits, Nat.ofDigitChars_ten_toDigits]

/-- The text of a natural number has no sign. -/
theorem minus_not_mem_natText (n : Nat) : '-' ∉ (Nat.repr n).toList := by
  intro h
  rw [Nat.repr, String.toList_ofList] at h
  exact absurd (Nat.isDigit_of_mem_toDigits (by decide) (by decide) h) (by decide)

theorem intText_inj {m n : Int} (h : Int.repr m = Int.repr n) : m = n := by
  cases m with
  | ofNat m =>
    cases n with
    | ofNat n => rw [natText_inj h]
    | negSucc n =>
      refine absurd ?_ (minus_not_mem_natText m)
      rw [show Nat.repr m = "-" ++ Nat.repr (n + 1) from h, String.toList_append]
      simp
  | negSucc m =>
    cases n with
    | ofNat n =>
      refine absurd ?_ (minus_not_mem_natText n)
      rw [show Nat.repr n = "-" ++ Nat.repr (m + 1) from h.symm, String.toList_append]
      simp
    | negSucc n =>
      have htext : "-" ++ Nat.repr (m + 1) = "-" ++ Nat.repr (n + 1) := h
      rw [Nat.succ.inj (natText_inj ((String.append_right_inj _).mp htext))]

/-- What follows a part that was put before it. -/
theorem after?_append (part cs : List Char) : after? part (part ++ cs) = some cs := by
  induction part with
  | nil => rw [List.nil_append, after?]
  | cons c part ih => rw [List.cons_append, after?, if_pos rfl, ih]

/-- A part without the separating character is what stands before it. -/
theorem takeWhile_separated {c : Char} {part : List Char} (h : c ∉ part) (cs : List Char) :
    (part ++ c :: cs).takeWhile (· ≠ c) = part := by
  rw [List.takeWhile_append_of_pos, List.takeWhile_cons]
  · simp
  · intro d hd
    simp only [ne_eq, decide_eq_true_eq]
    rintro rfl
    exact h hd

/-! ## Splitting -/

theorem splitChars_ne_nil (sep : Char) (cs : List Char) : splitChars sep cs ≠ [] := by
  cases cs with
  | nil => exact List.cons_ne_nil _ _
  | cons c rest =>
    rw [splitChars]
    split
    · exact List.cons_ne_nil _ _
    · split <;> exact List.cons_ne_nil _ _

theorem splitChars_of_not_mem {sep : Char} {cs : List Char} (h : sep ∉ cs) :
    splitChars sep cs = [cs] := by
  induction cs with
  | nil => rfl
  | cons c rest ih =>
    rw [splitChars, if_neg (Ne.symm (List.ne_of_not_mem_cons h)), ih (List.not_mem_of_not_mem_cons h)]

/-- What stands before the first separator is the first piece. -/
theorem splitChars_append {sep : Char} {cs : List Char} (h : sep ∉ cs) (rest : List Char) :
    splitChars sep (cs ++ sep :: rest) = cs :: splitChars sep rest := by
  induction cs with
  | nil => rw [List.nil_append, splitChars, if_pos rfl]
  | cons c cs ih =>
    rw [List.cons_append, splitChars, if_neg (Ne.symm (List.ne_of_not_mem_cons h)),
      ih (List.not_mem_of_not_mem_cons h)]

theorem toList_joinWith_cons (sep s t : String) (rest : List String) :
    (joinWith sep (s :: t :: rest)).toList =
      s.toList ++ (sep.toList ++ (joinWith sep (t :: rest)).toList) := by
  rw [joinWith, String.toList_append, String.toList_append, List.append_assoc]
  exact nofun

/-- Texts that are put together with a separator that none of them has come apart again. -/
theorem split_joinWith {sep : Char} {parts : List String} (nonempty : parts ≠ [])
    (h : ∀ s ∈ parts, sep ∉ s.toList) : split sep (joinWith (String.singleton sep) parts) = parts := by
  unfold split
  induction parts with
  | nil => exact absurd rfl nonempty
  | cons s rest ih =>
    obtain ⟨hs, hrest⟩ := List.forall_mem_cons.mp h
    cases rest with
    | nil => rw [joinWith, splitChars_of_not_mem hs, List.map_singleton, String.ofList_toList]
    | cons t rest =>
      rw [toList_joinWith_cons, String.toList_singleton, List.singleton_append, splitChars_append hs,
        List.map_cons, ih (List.cons_ne_nil _ _) hrest, String.ofList_toList]

/-! ## Trimming -/

/-- Neither the first nor the last character is a blank. -/
def IsBare (cs : List Char) : Prop :=
  ∀ c, cs.head? = some c ∨ cs.getLast? = some c → isBlank c = false

theorem isBare_of_blankless {cs : List Char} (h : ∀ c ∈ cs, isBlank c = false) : IsBare cs := by
  rintro c (hhead | hlast)
  · exact h c (List.mem_of_mem_head? hhead)
  · exact h c (List.mem_of_getLast? hlast)

theorem dropWhile_isBlank {cs : List Char} (h : ∀ c, cs.head? = some c → isBlank c = false) :
    cs.dropWhile isBlank = cs := by
  cases cs with
  | nil => rfl
  | cons c rest => rw [List.dropWhile_cons, h c rfl, if_neg Bool.false_ne_true]

/-- Blanks around a text without any at its ends are trimmed away. -/
theorem trimChars_padded {before cs after : List Char} (hbefore : ∀ c ∈ before, isBlank c = true)
    (hcs : IsBare cs) (hafter : ∀ c ∈ after, isBlank c = true) :
    trimChars (before ++ (cs ++ after)) = cs := by
  rw [trimChars, trimBy, List.dropWhile_append_of_pos hbefore]
  cases cs with
  | nil =>
    have hnil : after.dropWhile isBlank = [] := by
      have hdrop : (after ++ []).dropWhile isBlank = [] := List.dropWhile_append_of_pos hafter
      rwa [List.append_nil] at hdrop
    rw [List.nil_append, hnil]
    rfl
  | cons c rest =>
    have hstart : (c :: rest ++ after).dropWhile isBlank = c :: rest ++ after :=
      dropWhile_isBlank fun d hd => hcs d (.inl hd)
    have hend : (c :: rest).reverse.dropWhile isBlank = (c :: rest).reverse :=
      dropWhile_isBlank fun d hd => hcs d (.inr (by rwa [List.head?_reverse] at hd))
    rw [hstart, dropEndWhile, List.reverse_append,
      List.dropWhile_append_of_pos fun d hd => hafter d (List.mem_reverse.mp hd), hend,
      List.reverse_reverse]

/-- Text without blanks has none at its ends. -/
theorem trimChars_of_blankless {cs : List Char} (h : ∀ c ∈ cs, isBlank c = false) : trimChars cs = cs := by
  have hpadded := trimChars_padded (List.forall_mem_nil _) (isBare_of_blankless h) (List.forall_mem_nil _)
  rwa [List.nil_append, List.append_nil] at hpadded

/-- Only blanks are trimmed away. -/
theorem exists_trimChars (cs : List Char) : ∃ before after, cs = before ++ (trimChars cs ++ after) ∧
    (∀ c ∈ before, isBlank c = true) ∧ ∀ c ∈ after, isBlank c = true := by
  have hblank (ds : List Char) : ∀ c ∈ ds.takeWhile isBlank, isBlank c = true := by
    intro c hc
    exact List.all_eq_true.mp List.all_takeWhile c hc
  refine ⟨cs.takeWhile isBlank, ((cs.dropWhile isBlank).reverse.takeWhile isBlank).reverse, ?_,
    hblank cs, fun c hc => hblank _ c (List.mem_reverse.mp hc)⟩
  rw [trimChars, trimBy, dropEndWhile, ← List.reverse_append, List.takeWhile_append_dropWhile,
    List.reverse_reverse, List.takeWhile_append_dropWhile]

end Conveyor.Text
