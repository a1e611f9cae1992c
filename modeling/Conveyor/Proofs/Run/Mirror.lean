import Conveyor.Proofs.Run.Course

/-!
# Activities side by side

An activity mirrors another if it asks for the same things in the same order, whatever the replies
are, and ends with a result that is related to the other's. Only the entries that the two put into
the log may differ. Surroundings in memory then treat both alike (`Mirrors.carryOut`): they get the
same calls, answer them alike, and end in the same state but for the log.
-/

namespace Conveyor

namespace Activity

variable {α β γ δ : Type}

/-- The second activity mirrors the first. Where it is bound to end with a result that is excused,
nothing is said of the first. -/
inductive Mirrors (excused : β → Prop) (R : α → β → Prop) : Activity α → Activity β → Prop where
  | done {a : α} {b : β} (related : R a b) : Mirrors excused R (.done a) (.done b)
  | ask (q : Ask) {next : q.Reply → Activity α} {next' : q.Reply → Activity β}
      (rest : ∀ r, Mirrors excused R (next r) (next' r)) :
      Mirrors excused R (.ask q next) (.ask q next')
  | append (e e' : LogEntry) {next : Unit → Activity α} {next' : Unit → Activity β}
      (rest : Mirrors excused R (next ()) (next' ())) :
      Mirrors excused R (.ask (.append e) next) (.ask (.append e') next')
  | update (e e' : LogEntry) {next : Unit → Activity α} {next' : Unit → Activity β}
      (rest : Mirrors excused R (next ()) (next' ())) :
      Mirrors excused R (.ask (.update e) next) (.ask (.update e') next')
  | excuse {t : Activity α} {t' : Activity β}
      (bound : ∀ events b, Course t' events b → excused b) : Mirrors excused R t t'

variable {excused : β → Prop} {excused' : δ → Prop} {R : α → β → Prop} {S : γ → δ → Prop}
  {t : Activity α} {t' : Activity β} {f : α → Activity γ} {g : β → Activity δ}

theorem mirrors_pure {a : α} {b : β} (related : R a b) :
    Mirrors excused R (pure a) (pure b) := .done related

/-- Sequences mirror each other part by part; an excuse of the first part has to be one of the
whole. -/
theorem Mirrors.bind (h : Mirrors excused R t t')
    (rest : ∀ a b, R a b → Mirrors excused' S (f a) (g b))
    (kept : ∀ b, excused b → ∀ events d, Course (g b) events d → excused' d) :
    Mirrors excused' S (t >>= f) (t' >>= g) := by
  induction h with
  | done related => exact rest _ _ related
  | ask q _ ih => exact .ask q ih
  | append e e' _ ih => exact .append e e' ih
  | update e e' _ ih => exact .update e e' ih
  | excuse bound =>
    refine .excuse fun events d course => ?_
    obtain ⟨before, after, b, -, first, last⟩ := course_bind_iff.mp course
    exact kept b (bound before b first) after d last

/-- A first part that is never excused. -/
theorem Mirrors.andThen (h : Mirrors (fun _ => False) R t t')
    (rest : ∀ a b, R a b → Mirrors excused' S (f a) (g b)) :
    Mirrors excused' S (t >>= f) (t' >>= g) :=
  h.bind rest fun _ none => none.elim

/-- The same request at the head of two sequences. -/
theorem mirrors_request_bind (q : Ask) {f : q.Reply → Activity γ} {g : q.Reply → Activity δ}
    (rest : ∀ r, Mirrors excused' S (f r) (g r)) :
    Mirrors excused' S (request q >>= f) (request q >>= g) :=
  .ask q rest

/-- The calls made in a course, in order, with their answers. -/
def Event.call? : Event → Option (DestinationRef × Request × Option Answer)
  | ⟨.call _ ref request, answer⟩ => some (ref, request, answer)
  | _ => none

def calls (events : List Event) : List (DestinationRef × Request × Option Answer) :=
  events.filterMap Event.call?

theorem calls_cons (e : Event) (es : List Event) :
    calls (e :: es) = e.call?.toList ++ calls es := by
  unfold calls
  rw [List.filterMap_cons]
  cases e.call? <;> rfl

theorem calls_append (es fs : List Event) : calls (es ++ fs) = calls es ++ calls fs :=
  List.filterMap_append

end Activity

namespace World

open Activity

variable {α β σ τ : Type} {w w' : World σ}

/-- The same but for what is in the log. -/
def Beside (w w' : World σ) : Prop := ∃ log, w' = { w with log }

theorem beside_refl (w : World σ) : w.Beside w := ⟨w.log, rfl⟩

theorem pass_withBooks (seconds : Binary64) (w : World σ) (drawn : Nat) (log : MemoryLog) :
    ({ w with drawn, log } : World σ).pass seconds = { w.pass seconds with drawn, log } := by
  unfold pass
  split <;> rfl

theorem passLimit_withBooks (limit : Binary64) (w : World σ) (drawn : Nat) (log : MemoryLog) :
    ({ w with drawn, log } : World σ).passLimit limit = { w.passLimit limit with drawn, log } := by
  have honce : ({ w with drawn, log } : World σ).isAtOnce limit = w.isAtOnce limit := rfl
  unfold passLimit
  rw [honce, pass_withBooks]
  split <;> rfl

/-- Neither the log nor the ids that have been drawn are of any matter to a call. -/
theorem callWithin_withBooks (a : Adapter τ σ) (limit : Binary64) (ref : DestinationRef)
    (r : Request) (w : World σ) (drawn : Nat) (log : MemoryLog) :
    ({ w with drawn, log } : World σ).callWithin a limit ref r =
      ((w.callWithin a limit ref r).1, { (w.callWithin a limit ref r).2 with drawn, log }) := by
  have hcall : ({ w with drawn, log } : World σ).call a ref r =
      ((w.call a ref r).1, { (w.call a ref r).2 with drawn, log }) := rfl
  unfold callWithin
  rw [hcall]
  cases hlate : (w.call a ref r).2.isLate limit ((w.call a ref r).1.1.getD .zero) with
  | true =>
    have hlate' : ({ (w.call a ref r).2 with drawn, log } : World σ).isLate limit
        ((w.call a ref r).1.1.getD .zero) = true := hlate
    simp only [hlate, hlate', if_true, passLimit_withBooks]
  | false =>
    have hlate' : ({ (w.call a ref r).2 with drawn, log } : World σ).isLate limit
        ((w.call a ref r).1.1.getD .zero) = false := hlate
    simp only [hlate, hlate', Bool.false_eq_true, if_false, pass_withBooks]
    rfl

/-- A request gets the same reply whatever is in the log, and leaves the same behind. -/
theorem Beside.reply (h : w.Beside w') (a : Adapter τ σ) (q : Ask) :
    (reply a q w').1 = (reply a q w).1 ∧ (reply a q w).2.Beside (reply a q w').2 := by
  obtain ⟨log, rfl⟩ := h
  cases q with
  | call limit ref r =>
    have heq : World.reply a (.call limit ref r) { w with log } = _ :=
      callWithin_withBooks a limit ref r w w.drawn log
    rw [heq, ← callWithin_drawn a limit ref r w]
    exact ⟨rfl, log, rfl⟩
  | wait seconds =>
    refine ⟨rfl, log, (pass_withBooks seconds w w.drawn log).trans ?_⟩
    rw [← pass_drawn seconds w]
    rfl
  | _ => exact ⟨rfl, _, rfl⟩

theorem carryOut_ask (a : Adapter τ σ) (q : Ask) (next : q.Reply → Activity α) (w : World σ) :
    w.carryOut a (.ask q next) = (reply a q w).2.carryOut a (next (reply a q w).1) := rfl

theorem events_ask (a : Adapter τ σ) (q : Ask) (next : q.Reply → Activity α) (w : World σ) :
    events (reply a) (.ask q next) w =
      ⟨q, (reply a q w).1⟩ :: events (reply a) (next (reply a q w).1) (reply a q w).2 := rfl

variable {excused : β → Prop} {R : α → β → Prop} {t : Activity α} {t' : Activity β}

/-- Of two activities that mirror each other, carried out in surroundings that differ in nothing but
the log, the second ends with an excuse, or both make the same calls and get the same answers, end
with related results, and leave the same behind but for the log. -/
theorem carryOut_of_mirrors (h : Mirrors excused R t t') (a : Adapter τ σ) (beside : w.Beside w') :
    excused (w'.carryOut a t').1 ∨
      R (w.carryOut a t).1 (w'.carryOut a t').1 ∧
        (w.carryOut a t).2.Beside (w'.carryOut a t').2 ∧
        calls (events (reply a) t' w') = calls (events (reply a) t w) := by
  induction h generalizing w w' with
  | done related => exact .inr ⟨related, beside, rfl⟩
  | @ask q next next' _ ih =>
    obtain ⟨same, after⟩ := beside.reply a q
    rw [carryOut_ask, carryOut_ask, events_ask, events_ask, same, calls_cons, calls_cons,
      List.append_cancel_left_eq]
    exact ih _ after
  | append e e' _ ih =>
    obtain ⟨log, rfl⟩ := beside
    exact ih (w := { w with log := w.log.append e }) ⟨log.append e', rfl⟩
  | update e e' _ ih =>
    obtain ⟨log, rfl⟩ := beside
    exact ih (w := { w with log := w.log.update e }) ⟨log.update e', rfl⟩
  | excuse bound => exact .inl (bound _ _ (course_events (reply a) _ w'))

end World
end Conveyor
