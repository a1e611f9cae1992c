import Conveyor.Proofs.Worker.Stage

/-!
# The pace of a run among others

A run goes from step to step with the answers that it would get alone, whenever it gets its turns. So
what it can still end with it can end with from the start.
-/

namespace Conveyor.Worker

open Activity

variable {τ σ : Type}

def Lane.Decisive (s : Scene σ) : Lane τ → Prop
  | .stepping st _ => st.Decisive s
  | _ => True

instance (s : Scene σ) (l : Lane τ) : Decidable (l.Decisive s) := by
  unfold Lane.Decisive
  split
  · infer_instance
  · infer_instance

namespace Lane

variable {a : Adapter τ σ} {m : Replies} {P : σ → Prop} {ok : Option Answer → Prop} {id : LaneId}
  {s s' : Scene σ} {st : Stint τ} {cue : Cue} {cues : List Cue} {bells : Multiset Bell}

/-! ## Turns of a run -/

/-- What a run that goes on waits for. -/
inductive Pauses : List Cue → Multiset Bell → Prop where
  /-- Its record has not entered yet. -/
  | enters : Pauses [] 0
  | calls : Pauses [.goOn] 0
  | rests {cues : List Cue} {bells : Multiset Bell} {number : Nat}
      (alarmed : Alarmed .rested number cues bells) : Pauses cues bells

/-- Of the turns that a run has, all but the last ones are reports that come too late. -/
def Outlasts (count : Nat) (limit : Option Nat) (all cues : List Cue) : Prop :=
  ∃ past, all = past ++ cues ∧
    ∀ cue ∈ past, ∃ number, cue = .report (some number) ∧ number < count ∧ limit ≠ some number

/-- A run keeps its pace: whatever it can end with from where it stands, it can end with from the
start. -/
inductive Paced (a : Adapter τ σ) (m : Replies) (P : σ → Prop) (now : Moment)
    (run : Activity LaneResult) (id : LaneId) (s : Scene σ) : Lane τ → Prop where
  | going {t : Activity LaneResult} {cues : List Cue}
      (trail : Outlasts s.alarms.count none (s.cues id) cues) (pauses : Pauses cues (s.bells id))
      (ends : ∀ r, t.Ends m now r → run.Ends m now r) : Paced a m P now run id s (.going t)
  | stepping {st : Stint τ} {next : Option Answer → Activity LaneResult} {ok : Option Answer → Prop}
      {cues : List Cue} (trail : Outlasts s.alarms.count st.limit (s.cues id) cues)
      (stage : st.Stage a m P ok s.world.timer cues (s.bells id))
      (ends : ∀ answer, ok answer → ∀ r, (next answer).Ends m now r → run.Ends m now r) :
      Paced a m P now run id s (.stepping st next)
  | ended {r : LaneResult} (ends : run.Ends m now r) : Paced a m P now run id s (.ended r)

variable {now : Moment} {run t : Activity LaneResult} {l : Lane τ}

/-- The turns of a run that has gone on since its last step. -/
def Past (id : LaneId) (s : Scene σ) : Prop :=
  ∀ cue ∈ s.cues id, ∃ number, cue = .report (some number) ∧ number < s.alarms.count

theorem Past.outlasts (past : Past id s) {count : Nat} (hcount : s.alarms.count ≤ count)
    (limit : Option Nat) (new : ∀ number, limit = some number → s.alarms.count ≤ number)
    (cues : List Cue) : Outlasts count limit (s.cues id ++ cues) cues := by
  refine ⟨s.cues id, rfl, fun cue hcue => ?_⟩
  obtain ⟨number, rfl, hlt⟩ := past cue hcue
  refine ⟨number, rfl, hlt.trans_le hcount, fun hlimit => ?_⟩
  exact absurd hlt (Nat.not_lt.mpr (new number hlimit))

theorem paced_beginStep (ok : Option Answer → Prop) {limit : Binary64}
    {call : Option (DestinationRef × Request)} {next : Option Answer → Activity LaneResult}
    (past : Past id s) (quiet : s.bells id = 0) (hurried : limit.le .zero = true → ok none)
    (idle : call = none → ok none)
    (calls : limit.le .zero = false → ∀ ref request, call = some (ref, request) →
      ok (m.within limit ref request))
    (ends : ∀ answer, ok answer → ∀ r, (next answer).Ends m now r → run.Ends m now r)
    (decisive : (beginStep id limit call next s : Lane τ × Scene σ).1.Decisive
      (beginStep id limit call next s : Lane τ × Scene σ).2) :
    (beginStep id limit call next s).1.Paced a m P now run id
      (beginStep id limit call next s : Lane τ × Scene σ).2 := by
  unfold beginStep at decisive ⊢
  cases htime : limit.le .zero with
  | true =>
    rw [if_pos rfl]
    have htrail : Outlasts s.alarms.count none ((s.callFor (.lane id .work)).cues id) [.work] := by
      rw [Scene.cues_callFor_own]
      exact past.outlasts (Nat.le_refl _) none nofun _
    refine .stepping htrail ?_ ends
    rw [Scene.bells_callFor, quiet]
    exact .yields (fun _ h => absurd h (Multiset.notMem_zero _)) (hurried htime) (later_zero _)
  | false =>
    rw [htime, if_neg Bool.false_ne_true] at decisive
    rw [if_neg Bool.false_ne_true]
    have hbells := Scene.bells_setAlarm_own id limit .limit s
    rw [quiet] at hbells
    have htrail : Outlasts (s.alarms.count + 1) (some s.alarms.count)
        (((s.setAlarm limit (.lane id .limit)).2.callFor (.lane id .work)).cues id) [.work] := by
      rw [Scene.cues_callFor_own, Scene.cues_setAlarm]
      refine past.outlasts (Nat.le_succ _) _ (fun number h => ?_) _
      exact Nat.le_of_eq (Option.some.inj h)
    refine .stepping htrail ?_ ends
    rw [Scene.bells_callFor, hbells]
    have hdecisive : ({ work := .fresh call, limit := some s.alarms.count } : Stint τ).Decisive
      ((s.setAlarm limit (.lane id .limit)).2.callFor (.lane id .work)) := decisive
    refine .fresh limit htime idle (calls htime) fun b hb => ?_
    have hmem : b ∈ ((s.setAlarm limit (.lane id .limit)).2.callFor (.lane id .work)).bells id := by
      rw [Scene.bells_callFor, hbells]
      exact hb
    refine hdecisive.later hmem ?_
    rw [Multiset.mem_singleton.mp hb]
    rfl

/-- A run goes on until it has to let others go first. -/
theorem paced_goOn (past : Past id s) (quiet : s.bells id = 0)
    (ends : ∀ r, t.Ends m s.world.now r → run.Ends m s.world.now r)
    (decisive : (goOn a id t s).1.Decisive (goOn a id t s).2) :
    (goOn a id t s).1.Paced a m P s.world.now run id (goOn a id t s).2 := by
  have hhalted : ∀ r, Halted m s.world.now (t.advance (World.reply a) s.world).1 r →
      run.Ends m s.world.now r := fun r h => ends r (World.ends_of_halted a t h)
  unfold goOn at decisive ⊢
  simp only at decisive ⊢
  generalize t.advance (World.reply a) s.world = halted at hhalted decisive ⊢
  obtain ⟨halt, world⟩ := halted
  cases halt with
  | ended r => exact .ended (hhalted r (.ended r))
  | turn limit next =>
    exact paced_beginStep (fun _ => True) past quiet (fun _ => trivial) (fun _ => trivial)
      (fun _ _ _ _ => trivial) (fun _ _ r h => hhalted r (.turn h)) decisive
  | call limit ref request next =>
    refine paced_beginStep (m.Allows s.world.now (.call limit ref request)) past quiet
      (fun hurried time => ?_) nofun (fun _ ref' request' heq _ => ?_)
      (fun answer allowed r h => hhalted r (.call answer allowed h)) decisive
    · rw [hurried] at time
      cases time
    · obtain ⟨rfl, rfl⟩ := Prod.mk.inj (Option.some.inj heq)
      rfl
  | wait seconds next =>
    have hends : ∀ r, next.Ends m s.world.now r → run.Ends m s.world.now r :=
      fun r h => hhalted r (.wait h)
    have hpast : Past id { s with world } := past
    have hquiet : Scene.bells id { s with world } = 0 := quiet
    simp only
    generalize ({ s with world } : Scene σ) = s₁ at hpast hquiet ⊢
    split
    · have htrail : Outlasts s₁.alarms.count none ((s₁.callFor (.lane id .goOn)).cues id) [.goOn] := by
        rw [Scene.cues_callFor_own]
        exact hpast.outlasts (Nat.le_refl _) none nofun _
      refine .going htrail ?_ hends
      rw [Scene.bells_callFor, hquiet]
      exact .calls
    · have htrail : Outlasts (s₁.alarms.count + 1) none
          ((s₁.setAlarm seconds (.lane id .rested)).2.cues id) [] := by
        have htrail : Outlasts (s₁.alarms.count + 1) none (s₁.cues id ++ []) [] :=
          hpast.outlasts (Nat.le_succ _) none nofun []
        rwa [List.append_nil] at htrail
      refine .going htrail ?_ hends
      rw [Scene.bells_setAlarm_own, hquiet]
      exact .rests (.waits _)

theorem outlasts_refl (count : Nat) (limit : Option Nat) (cues : List Cue) :
    Outlasts count limit cues cues := ⟨[], rfl, nofun⟩

/-- A turn is one that the run waits for, or a report that comes too late. -/
theorem Outlasts.cons {count : Nat} {limit : Option Nat} {all : List Cue}
    (h : Outlasts count limit (cue :: all) cues) :
    cues = cue :: all ∨ ∃ number, cue = .report (some number) ∧ limit ≠ some number ∧
      Outlasts count limit all cues := by
  obtain ⟨past, hall, hpast⟩ := h
  cases past with
  | nil => exact .inl hall.symm
  | cons c past =>
    obtain ⟨rfl, rfl⟩ := List.cons.inj hall
    obtain ⟨number, hcue, -, hlimit⟩ := hpast cue List.mem_cons_self
    exact .inr ⟨number, hcue, hlimit, past, rfl, fun c hc => hpast c (List.mem_cons_of_mem _ hc)⟩

/-- A turn of a run that goes on. -/
theorem paced_act_going (trail : Outlasts s.alarms.count none (cue :: s.cues id) cues)
    (pauses : Pauses cues (s.bells id))
    (ends : ∀ r, t.Ends m s.world.now r → run.Ends m s.world.now r)
    (decisive : ((going t).act a id cue s).1.Decisive ((going t).act a id cue s).2) :
    ((going t).act a id cue s).1.Paced a m P s.world.now run id ((going t).act a id cue s).2 := by
  rcases trail.cons with rfl | ⟨number, rfl, -, trail⟩
  · generalize hall : cue :: s.cues id = all at pauses
    generalize hbells : s.bells id = bells at pauses
    cases pauses with
    | enters => cases hall
    | calls =>
      obtain ⟨rfl, hcues⟩ := List.cons.inj hall
      refine paced_goOn (fun c hc => ?_) hbells ends decisive
      rw [hcues] at hc
      exact absurd hc List.not_mem_nil
    | rests alarmed =>
      cases alarmed with
      | waits => cases hall
      | rings =>
        obtain ⟨rfl, hcues⟩ := List.cons.inj hall
        refine .going (outlasts_refl _ _ _) ?_ ends
        show Pauses ((s.callFor (.lane id .goOn)).cues id) (s.bells id)
        rw [Scene.cues_callFor_own, hcues, hbells]
        exact .calls
  · exact .going trail pauses ends

/-- The time of a step whose work is looked at when it has ended is not waited for any more. -/
theorem paced_look_ended {answer : Option Answer} {next : Option Answer → Activity LaneResult}
    (hwork : st.work = .ended answer) (own : ∀ b ∈ s.bells id, st.limit = some b.number)
    (past : Past id s) (ends : ∀ r, (next answer).Ends m s.world.now r → run.Ends m s.world.now r)
    (decisive : (look a id st next s).1.Decisive (look a id st next s).2) :
    (look a id st next s).1.Paced a m P s.world.now run id (look a id st next s).2 := by
  unfold look at decisive ⊢
  rw [hwork] at decisive ⊢
  simp only at decisive ⊢
  cases hlimit : st.limit with
  | none =>
    rw [hlimit] at decisive
    refine paced_goOn past (Multiset.eq_zero_of_forall_notMem fun b hb => ?_) ends decisive
    have hnone := own b hb
    rw [hlimit] at hnone
    cases hnone
  | some number =>
    rw [hlimit] at decisive
    refine paced_goOn (s := s.callOff number) past ?_ ends decisive
    rw [Scene.bells_callOff, Multiset.filter_eq_nil]
    intro b hb hne
    have hnumber := own b hb
    rw [hlimit, Option.some.injEq] at hnumber
    exact hne hnumber.symm

/-- The run looks at its step. -/
theorem paced_look {next : Option Answer → Activity LaneResult} (owns : st.Owns id s)
    (stage : st.Stage a m P ok s.world.timer (.goOn :: s.cues id) (s.bells id))
    (ends : ∀ answer, ok answer → ∀ r, (next answer).Ends m s.world.now r →
      run.Ends m s.world.now r)
    (decisive : (look a id st next s).1.Decisive (look a id st next s).2) :
    (look a id st next s).1.Paced a m P s.world.now run id (look a id st next s).2 := by
  generalize hall : Cue.goOn :: s.cues id = all at stage
  generalize hbells : s.bells id = bells at stage
  cases stage with
  | fresh | resting | rested | dueNoticed | late | yields | ended => cases hall
  | due alarmed =>
    cases alarmed with
    | waits => cases hall
    | rings => cases hall
  | lateNoticed alarmed none_ later =>
    cases alarmed with
    | waits =>
      -- what rests is given up in a turn of its own
      obtain ⟨-, hcues⟩ := List.cons.inj hall
      refine .stepping (outlasts_refl _ _ _) ?_ ends
      show Stint.Stage _ _ _ _ _ _ ((s.callFor (.lane id .work)).cues id) (s.bells id)
      rw [Scene.cues_callFor_own, hbells, show s.cues id = [] from hcues]
      refine .yields (fun b hb => ?_) none_ later
      rw [Multiset.mem_singleton.mp hb]
      exact ⟨_, rfl⟩
    | rings => cases hall
  | lateDue none_ =>
    obtain ⟨-, hcues⟩ := List.cons.inj hall
    refine .stepping (outlasts_refl _ _ _) ?_ ends
    show Stint.Stage _ _ _ _ _ _ (s.cues id) (s.bells id)
    rw [hcues, hbells]
    exact .yields (fun _ h => absurd h (Multiset.notMem_zero _)) none_ (later_zero _)
  | looks own answered report later =>
    obtain ⟨-, hcues⟩ := List.cons.inj hall
    refine paced_look_ended rfl (hbells ▸ own) (fun cue hcue => ?_) (ends _ answered) decisive
    obtain ⟨number, hlimit, hreport⟩ := report cue (hcues ▸ hcue)
    exact ⟨number, hreport, (owns.limit number hlimit).lt⟩

/-- A run that has a turn keeps its pace. -/
theorem paced_act (gives : a.Gives m P) (here : P s.world.destinations) (owns : l.Owns id s)
    (h : l.Paced a m P s.world.now run id { s with turns := .lane id cue :: s.turns })
    (decisive : (l.act a id cue s).1.Decisive (l.act a id cue s).2) :
    (l.act a id cue s).1.Paced a m P s.world.now run id (l.act a id cue s).2 := by
  have hcues : Scene.cues id { s with turns := .lane id cue :: s.turns } = cue :: s.cues id :=
    List.filterMap_cons_some (Scene.cue?_own id cue)
  cases h with
  | going trail pauses ends => exact paced_act_going (hcues ▸ trail) pauses ends decisive
  | ended ends =>
    have hact : ∀ r : LaneResult, (ended r : Lane τ).act a id cue s = (ended r, s) := fun r => by
      cases cue <;> rfl
    rw [hact]
    exact .ended ends
  | @stepping st next ok cues trail stage ends =>
    rw [hcues] at trail
    have hturn : cue ≠ .goOn → (stepping st next).act a id cue s =
        (stepping (stepTurn a id st cue s).1 next, (stepTurn a id st cue s).2) := by
      intro hne
      cases cue with
      | goOn => exact absurd rfl hne
      | work | report | rested | limit => rfl
    rcases trail.cons with rfl | ⟨number, rfl, hlimit, trail⟩
    · by_cases hcue : cue = .goOn
      · subst hcue
        exact paced_look owns stage ends decisive
      · rw [hturn hcue] at decisive ⊢
        refine .stepping (outlasts_refl _ _ _) ?_ ends
        exact stands_stepTurn gives here stage hcue decisive
    · -- the report of a step that is over
      have hignored : stepTurn a id st (.report (some number)) s = (st, s) := if_neg hlimit.symm
      rw [hturn nofun, hignored]
      exact .stepping trail stage ends

/-! ## The passing of time -/

theorem Outlasts.append {count : Nat} {limit : Option Nat} {all : List Cue}
    (h : Outlasts count limit all cues) (more : List Cue) :
    Outlasts count limit (all ++ more) (cues ++ more) := by
  obtain ⟨past, rfl, hpast⟩ := h
  exact ⟨past, List.append_assoc _ _ _, hpast⟩

/-- What a run waits for is as it was. -/
theorem Paced.congr (h : l.Paced a m P now run id s) (cues : s'.cues id = s.cues id)
    (bells : s'.bells id = s.bells id) (timer : s'.world.timer = s.world.timer)
    (count : s.alarms.count ≤ s'.alarms.count) : l.Paced a m P now run id s' := by
  have htrail : ∀ {limit : Option Nat} {all cues : List Cue},
      Outlasts s.alarms.count limit all cues → Outlasts s'.alarms.count limit all cues := by
    rintro limit all cues ⟨past, hall, hpast⟩
    refine ⟨past, hall, fun cue hcue => ?_⟩
    obtain ⟨number, hreport, hlt, hlimit⟩ := hpast cue hcue
    exact ⟨number, hreport, hlt.trans_le count, hlimit⟩
  cases h with
  | going trail pauses ends =>
    rw [← cues] at trail
    rw [← bells] at pauses
    exact .going (htrail trail) pauses ends
  | stepping trail stage ends =>
    rw [← cues] at trail
    rw [← bells, ← timer] at stage
    exact .stepping (htrail trail) stage ends
  | ended ends => exact .ended ends

/-- A run gets its first turn. -/
theorem Paced.enter (h : (Lane.going t).Paced a m P now run id s) (cues : s'.cues id = [.goOn])
    (quiet : s'.bells id = 0) : (Lane.going t).Paced a m P now run id s' := by
  cases h with
  | going _ _ ends =>
    refine .going (outlasts_refl _ _ _) ?_ ends
    rw [cues, quiet]
    exact .calls

variable {rung : List Bell}

/-- No alarm of a run goes off that waits for a turn. -/
theorem rung_eq_nil (passes : s.Passes id s' rung) (busy : s.cues id ≠ [])
    (later : Later s.world.timer (s.bells id)) : rung = [] := by
  refine List.eq_nil_iff_forall_not_mem.mpr fun b hb => ?_
  have hmem : b ∈ s.bells id := passes.bells ▸ Multiset.mem_add.mpr (.inl (Multiset.mem_coe.mpr hb))
  have hbefore := passes.before b hb
  rw [passes.timer (Scene.turns_ne_nil busy), later b hmem] at hbefore
  cases hbefore

/-- A run that waits for a turn is left as it is. -/
theorem Paced.passes_of_busy (h : l.Paced a m P now run id s) (passes : s.Passes id s' rung)
    (busy : s.cues id ≠ []) (later : Later s.world.timer (s.bells id)) :
    l.Paced a m P now run id s' := by
  obtain rfl := rung_eq_nil passes busy later
  have hcues := passes.cues
  have hbells := passes.bells
  rw [List.map_nil, List.append_nil] at hcues
  rw [Multiset.coe_nil, zero_add] at hbells
  exact h.congr hcues hbells.symm (passes.timer (Scene.turns_ne_nil busy))
    (Nat.le_of_eq passes.count.symm)

/-- A run that goes on rests until its alarm goes off. -/
theorem Pauses.passes (h : Pauses cues (s.bells id)) (passes : s.Passes id s' rung) :
    Pauses (cues ++ rung.map Bell.cue) (s'.bells id) := by
  have hbells := passes.bells
  generalize s.bells id = bells at h hbells
  have hquiet : bells = 0 → Pauses cues 0 → Pauses (cues ++ rung.map Bell.cue) (s'.bells id) := by
    rintro rfl hsame
    obtain ⟨hrung, hrest⟩ := add_eq_zero.mp hbells.symm
    rw [(Multiset.coe_eq_zero rung).mp hrung, hrest, List.map_nil, List.append_nil]
    exact hsame
  cases h with
  | enters => exact hquiet rfl .enters
  | calls => exact hquiet rfl .calls
  | @rests _ _ number alarmed =>
    have hrings : Alarmed .rested number [.rested] 0 := .rings
    cases alarmed with
    | rings => exact hquiet rfl (.rests hrings)
    | waits wake =>
      rcases split_singleton hbells with ⟨rfl, hrest⟩ | ⟨rfl, hrest⟩
      · rw [hrest]
        exact .rests (.waits wake)
      · rw [hrest]
        exact .rests hrings

/-- A run keeps its pace as time passes. -/
theorem Paced.passes (h : l.Paced a m P now run id s) (passes : s.Passes id s' rung) :
    l.Paced a m P now run id s' := by
  have hbusy : ∀ {cues : List Cue} {limit : Option Nat},
      Outlasts s.alarms.count limit (s.cues id) cues → cues ≠ [] → s.cues id ≠ [] := by
    rintro cues limit ⟨past, hall, -⟩ hne
    rw [hall]
    exact List.append_ne_nil_of_right_ne_nil _ hne
  have hstays := h.passes_of_busy passes
  cases h with
  | ended ends => exact .ended ends
  | going trail pauses ends =>
    have htrail := trail.append (rung.map Bell.cue)
    rw [← passes.cues, ← passes.count] at htrail
    exact .going htrail (pauses.passes passes) ends
  | @stepping st next ok cues trail stage ends =>
    by_cases hcues : cues = []
    · subst hcues
      have htrail := trail.append (rung.map Bell.cue)
      rw [← passes.cues, ← passes.count] at htrail
      exact .stepping htrail (stage.passes passes) ends
    · exact hstays (hbusy trail hcues) (stage.later hcues)

end Lane
end Conveyor.Worker
