import Conveyor.Proofs.Run.Journal
import Conveyor.Proofs.Worker.Lane
import Conveyor.Proofs.Worker.Trace
import Conveyor.Worker.Floor

/-!
# Several runs and one log

The runs of a record take turns, each by events of its own, and the log sees the events of all of
them. Each run that has a result has an entry under an id that no other one has, so what the log has
under that id is what the run alone would have left there.
-/

namespace Conveyor

open Activity

/-! ## Changes of one entry among others -/

namespace MemoryLog

variable {l l' : MemoryLog} {id : String}

/-- A change of an entry depends on what the log had under its id. -/
theorem get?_apply_congr (op : LogOp) (h : l.entries.keys.Nodup) (h' : l'.entries.keys.Nodup)
    (same : l.get? id = l'.get? id) : (op.apply l).get? id = (op.apply l').get? id := by
  by_cases hid : op.id = id
  · subst hid
    cases op with
    | append e => exact (Keyed.get?_put_same _ _ _).trans (Keyed.get?_put_same _ _ _).symm
    | discard id => exact (Keyed.get?_erase_same h id).trans (Keyed.get?_erase_same h' id).symm
    | update e =>
      show (l.update e).get? e.id = (l'.update e).get? e.id
      rw [get?_update, get?_update, show l.get? e.id = l'.get? e.id from same]
  · rw [get?_apply_of_ne op l hid, get?_apply_of_ne op l' hid, same]

/-- Only the changes of an entry change it. -/
theorem get?_foldl_filter (ops : List LogOp) (id : String) (h : l.entries.keys.Nodup)
    (h' : l'.entries.keys.Nodup) (same : l.get? id = l'.get? id) :
    (ops.foldl LogOp.apply l).get? id = ((ops.filter (·.id = id)).foldl LogOp.apply l').get? id := by
  induction ops generalizing l l' with
  | nil => exact same
  | cons op ops ih =>
    rw [List.foldl_cons]
    by_cases hid : op.id = id
    · rw [List.filter_cons_of_pos (by simpa using hid), List.foldl_cons]
      exact ih (nodup_apply op h) (nodup_apply op h') (get?_apply_congr op h h' same)
    · rw [List.filter_cons_of_neg (by simpa using hid)]
      exact ih (nodup_apply op h) h' ((get?_apply_of_ne op l hid).trans same)

end MemoryLog

namespace Worker

variable {τ σ : Type}

/-! ## Events of several runs -/

/-- The events of one of several runs. -/
def eventsOf (i : Nat) (all : List (Nat × Event)) : List Event := (all.filter (·.1 = i)).map (·.2)

variable {all : List (Nat × Event)} {i k : Nat}

theorem mem_eventsOf {e : Event} : e ∈ eventsOf i all ↔ (i, e) ∈ all := by
  unfold eventsOf
  rw [List.mem_map]
  constructor
  · rintro ⟨⟨k, e'⟩, hx, rfl⟩
    obtain ⟨hx, hk⟩ := List.mem_filter.mp hx
    rwa [← of_decide_eq_true hk]
  · exact fun h => ⟨(i, e), List.mem_filter.mpr ⟨h, decide_eq_true rfl⟩, rfl⟩

theorem eventsOf_append_same (more : List Event) :
    eventsOf i (all ++ more.map (i, ·)) = eventsOf i all ++ more := by
  have hmine : (more.map (i, ·)).filter (·.1 = i) = more.map (i, ·) := by
    refine List.filter_eq_self.mpr fun x hx => ?_
    obtain ⟨e, -, rfl⟩ := List.mem_map.mp hx
    exact decide_eq_true rfl
  unfold eventsOf
  rw [List.filter_append, hmine, List.map_append, List.map_map]
  exact congrArg (_ ++ ·) (List.map_id more)

theorem eventsOf_append_other (more : List Event) (h : k ≠ i) :
    eventsOf k (all ++ more.map (i, ·)) = eventsOf k all := by
  have hnone : (more.map (i, ·)).filter (·.1 = k) = [] := by
    refine List.filter_eq_nil_iff.mpr fun x hx => ?_
    obtain ⟨e, -, rfl⟩ := List.mem_map.mp hx
    simpa using Ne.symm h
  unfold eventsOf
  rw [List.filter_append, hnone, List.append_nil]

/-- The changes under an id that one run alone has are the changes of that run. -/
theorem filter_logOps {id : String}
    (own : ∀ x ∈ all, ∀ op, x.2.logOp? = some op → (op.id = id ↔ x.1 = i)) :
    (logOps (all.map (·.2))).filter (·.id = id) = logOps (eventsOf i all) := by
  induction all with
  | nil => rfl
  | cons x all ih =>
    have hrest := ih fun y hy => own y (List.mem_cons_of_mem _ hy)
    unfold logOps eventsOf at hrest ⊢
    rw [List.map_cons, List.filterMap_cons]
    cases hop : x.2.logOp? with
    | none =>
      simp only
      rw [hrest]
      by_cases hi : x.1 = i
      · rw [List.filter_cons_of_pos (by simpa using hi), List.map_cons, List.filterMap_cons, hop]
      · rw [List.filter_cons_of_neg (by simpa using hi)]
    | some op =>
      simp only
      have hid := own x List.mem_cons_self op hop
      by_cases hi : x.1 = i
      · rw [List.filter_cons_of_pos (by simpa using hid.mpr hi),
          List.filter_cons_of_pos (a := x) (by simpa using hi), List.map_cons, List.filterMap_cons, hop,
          hrest]
      · rw [List.filter_cons_of_neg (by simpa using fun h => hi (hid.mp h)),
          List.filter_cons_of_neg (a := x) (by simpa using hi), hrest]

/-- No two runs draw the same id. -/
theorem eq_of_drawn {id : String} (nodup : (drawnIds (all.map (·.2))).Nodup)
    (hi : id ∈ drawnIds (eventsOf i all)) (hk : id ∈ drawnIds (eventsOf k all)) : i = k := by
  obtain ⟨e, he, hid⟩ := List.mem_filterMap.mp hi
  obtain ⟨e', he', hid'⟩ := List.mem_filterMap.mp hk
  have heq : ∀ all : List (Nat × Event), (drawnIds (all.map (·.2))).Nodup → (i, e) ∈ all →
      (k, e') ∈ all → i = k := by
    intro all
    induction all with
    | nil => exact fun _ h => absurd h List.not_mem_nil
    | cons x all ih =>
      intro nodup hx hy
      unfold drawnIds at nodup
      rw [List.map_cons, List.filterMap_cons] at nodup
      have hrest : ∀ {n : Nat} {e : Event}, e.drawnId? = some id → (n, e) ∈ all →
          id ∈ List.filterMap Event.drawnId? (all.map (·.2)) := fun hid h =>
        List.mem_filterMap.mpr ⟨_, List.mem_map_of_mem h, hid⟩
      rcases List.mem_cons.mp hx with rfl | hxs
      · rcases List.mem_cons.mp hy with heq | hy
        · exact (congrArg Prod.fst heq).symm
        · rw [hid] at nodup
          exact absurd (hrest hid' hy) (List.nodup_cons.mp nodup).1
      · rcases List.mem_cons.mp hy with rfl | hy
        · rw [hid'] at nodup
          exact absurd (hrest hid hxs) (List.nodup_cons.mp nodup).1
        · refine ih ?_ hxs hy
          split at nodup
          · exact nodup
          · exact (List.nodup_cons.mp nodup).2
  exact heq all nodup (mem_eventsOf.mp he) (mem_eventsOf.mp he')

/-! ## Runs that have got on -/

/-- Several runs have got on, each by events of its own, and the world by the events of all of them. -/
structure Told (runs : List (Activity LaneResult)) (w : World σ) (all : List (Nat × Event))
    (lanes : List (Lane τ)) (w' : World σ) : Prop where
  follows : w.Follows (all.map (·.2)) w'
  numbered : ∀ x ∈ all, x.1 < runs.length
  length : lanes.length = runs.length
  lane : ∀ (i : Nat) (run : Activity LaneResult) (l : Lane τ), runs[i]? = some run →
    lanes[i]? = some l → l.Traces run (eventsOf i all)

variable {runs : List (Activity LaneResult)} {w w' : World σ} {lanes : List (Lane τ)}

theorem told_going (runs : List (Activity LaneResult)) (w : World σ) :
    Told runs w [] (runs.map Lane.going : List (Lane τ)) w where
  follows := World.follows_nil rfl rfl rfl
  numbered _ hx := absurd hx List.not_mem_nil
  length := List.length_map _
  lane i run l hrun hl := by
    rw [List.getElem?_map, hrun] at hl
    obtain rfl := Option.some.inj hl
    exact Lane.traces_going run

/-- A turn of one run. -/
theorem Told.act {s : Scene σ} {l : Lane τ} (ad : Adapter τ σ) (id : LaneId) (cue : Cue)
    (h : Told runs w all lanes s.world) (hl : lanes[i]? = some l) :
    ∃ all', Told runs w all' (lanes.set i (l.act ad id cue s).1) (l.act ad id cue s).2.world := by
  have hi : i < runs.length := h.length ▸ (List.getElem?_eq_some_iff.mp hl).1
  have hrun : runs[i]? = some runs[i] := List.getElem?_eq_getElem hi
  obtain ⟨more, traces, follows⟩ :=
    Lane.follows_act ad id cue s (h.lane i _ l hrun hl)
  refine ⟨all ++ more.map (i, ·), ?_, fun x hx => ?_, ?_, fun k run m hk hm => ?_⟩
  · rw [List.map_append, List.map_map]
    have hmore : more.map ((·.2) ∘ (i, ·)) = more := List.map_id more
    rw [hmore]
    exact h.follows.trans follows
  · rcases List.mem_append.mp hx with hx | hx
    · exact h.numbered x hx
    · obtain ⟨e, -, rfl⟩ := List.mem_map.mp hx
      exact hi
  · rw [List.length_set]
    exact h.length
  · rw [List.getElem?_set] at hm
    by_cases hik : i = k
    · subst hik
      rw [if_pos rfl, if_pos (h.length.symm ▸ hi)] at hm
      obtain rfl := Option.some.inj hm
      obtain rfl := Option.some.inj (hrun.symm.trans hk)
      rw [eventsOf_append_same]
      exact traces
    · rw [if_neg hik] at hm
      rw [eventsOf_append_other _ (Ne.symm hik)]
      exact h.lane k run m hk hm

theorem Told.congr {w'' : World σ} (h : Told runs w all lanes w') (log : w''.log = w'.log)
    (drawn : w''.drawn = w'.drawn) (now : w''.now = w'.now) : Told runs w all lanes w'' where
  follows := by
    have hstay : w'.Follows [] w'' := World.follows_nil log drawn now
    have hfollows := h.follows.trans hstay
    rwa [List.append_nil] at hfollows
  numbered := h.numbered
  length := h.length
  lane := h.lane

/-! ## Runs that have ended -/

/-- The results of runs that have one. -/
def resultsOf (lanes : List (Lane τ)) : List RunResult :=
  lanes.filterMap fun l => l.result?.bind Except.toOption

/-- The run of a record through a pipeline has a result and an entry. The entry is in the log as the
result has it, or without a trace if it was thrown away. -/
inductive Entered (s : Settings) (r : InboundRecord) (w w' : World σ) (pw : Pipeline × Workflow)
    (result : RunResult) : Prop where
  | intro {events : List Event} {first last : LogEntry}
      (course : Course (runOf s r pw) events (.ok result))
      (recorded : Run.Recorded r pw.1 (some pw.2) w.now events result first last)
      (fresh : w.log.get? first.id = none)
      (log : w'.log.get? first.id =
        if Run.discards result.isComplete (some pw.2) then none else some last)

/-- The id of the entry of a run. -/
def entryId? (x : RunResult) : Option String := x.entry.map (·.id)

/-- Every one of some pipelines has a result, in their order, and an entry of its own; the other
entries are as they were. -/
structure Logged (s : Settings) (r : InboundRecord) (w w' : World σ)
    (pws : List (Pipeline × Workflow)) (results : List RunResult) : Prop where
  each : List.Forall₂ (Entered s r w w') pws results
  nodup : (results.map entryId?).Nodup
  others : ∀ id, some id ∉ results.map entryId? → w'.log.get? id = w.log.get? id

/-- The entry of a run can be opened: it has a moment to expire at. -/
def opens (now : Moment) (pw : Pipeline × Workflow) : Bool := (Run.entryExpiry now (some pw.2)).isOk

theorem entryId?_eq {r : InboundRecord} {p : Pipeline} {w : Option Workflow} {now : Moment}
    {events : List Event} {x : RunResult} {first last : LogEntry}
    (h : Run.Recorded r p w now events x first last) : entryId? x = some first.id := by
  obtain ⟨versions, story⟩ := h.story
  unfold entryId?
  rw [story.entry, Option.map_some, (story.same last (by simp)).1]

theorem forall₂_filterMap {α β γ : Type} {p : α → Bool} {g : β → Option γ} {R : α → γ → Prop}
    {as : List α} {bs : List β}
    (h : List.Forall₂ (fun a b => p a = false ∧ g b = none ∨ p a = true ∧ ∃ c, g b = some c ∧ R a c)
      as bs) : List.Forall₂ R (as.filter p) (bs.filterMap g) := by
  induction h with
  | nil => exact .nil
  | cons head _ ih =>
    rcases head with ⟨hp, hg⟩ | ⟨hp, c, hg, hR⟩
    · rw [List.filter_cons_of_neg (by simp [hp]), List.filterMap_cons_none hg]
      exact ih
    · rw [List.filter_cons_of_pos hp, List.filterMap_cons_some hg]
      exact .cons hR ih

section ended

variable {s : Settings} {r : InboundRecord} {pws : List (Pipeline × Workflow)}
  {pw : Pipeline × Workflow} {l : Lane τ}

/-- What a run among others has come to. -/
theorem Told.ended (h : Told (pws.map (runOf s r)) w all lanes w')
    (ended : ∀ l ∈ lanes, l.isEnded = true) (hpw : pws[i]? = some pw) (hl : lanes[i]? = some l) :
    ∃ out, l = .ended out ∧ Course (runOf s r pw) (eventsOf i all) out ∧
      ((∃ f, out = .error f ∧ opens w.now pw = false ∧ logOps (eventsOf i all) = []) ∨
        ∃ result first last, out = .ok result ∧ opens w.now pw = true ∧
          Run.Recorded r pw.1 (some pw.2) w.now (eventsOf i all) result first last) := by
  have hrun : (pws.map (runOf s r))[i]? = some (runOf s r pw) := by rw [List.getElem?_map, hpw]; rfl
  have htraces := h.lane i _ l hrun hl
  have hended := ended l (List.mem_of_getElem? hl)
  cases l with
  | going t => cases hended
  | stepping st next => cases hended
  | ended out =>
    refine ⟨out, rfl, htraces, ?_⟩
    have hclock : ∀ t : Moment, ⟨.now, t⟩ ∈ eventsOf i all → t = w.now := fun t ht =>
      h.follows.clock t (List.mem_map_of_mem (f := (·.2)) (mem_eventsOf.mp ht))
    rcases Run.course_logged htraces hclock with ⟨f, hf, never, hops⟩ | ⟨x, first, last, hx, hrecorded⟩
    · refine .inl ⟨f, hf, ?_, hops⟩
      rw [opens, never]
      rfl
    · refine .inr ⟨x, first, last, hx, ?_, hrecorded⟩
      obtain ⟨until_, due, -⟩ := hrecorded.opened
      rw [opens, due]
      rfl

theorem Told.nodup_drawn (h : Told runs w all lanes w') : (drawnIds (all.map (·.2))).Nodup := by
  rw [h.follows.ids]
  exact List.Nodup.map (fun _ _ => World.idText_inj) List.nodup_range'

/-- The ids that are drawn are new to the log. -/
theorem Told.fresh (h : Told runs w all lanes w') (orderly : w.Orderly) {id : String}
    (drawn : id ∈ drawnIds (eventsOf i all)) : w.log.get? id = none := by
  obtain ⟨e, he, hid⟩ := List.mem_filterMap.mp drawn
  have hdrawn : id ∈ drawnIds (all.map (·.2)) :=
    List.mem_filterMap.mpr ⟨e, List.mem_map_of_mem (f := (·.2)) (mem_eventsOf.mp he), hid⟩
  rw [h.follows.ids] at hdrawn
  obtain ⟨n, hn, rfl⟩ := List.mem_map.mp hdrawn
  exact orderly.fresh n (Nat.lt_of_succ_le (List.mem_range'_1.mp hn).1)

/-- Every change to the log was made by one of the runs, and under the id of its entry. -/
theorem Told.exists_recorded (h : Told (pws.map (runOf s r)) w all lanes w')
    (ended : ∀ l ∈ lanes, l.isEnded = true) {y : Nat × Event} {op : LogOp} (hy : y ∈ all)
    (hop : y.2.logOp? = some op) :
    ∃ (pw : Pipeline × Workflow) (x : RunResult) (first last : LogEntry),
      lanes[y.1]? = some (.ended (.ok x)) ∧
      Run.Recorded r pw.1 (some pw.2) w.now (eventsOf y.1 all) x first last ∧ op.id = first.id := by
  have hlength : pws.length = lanes.length := by rw [h.length, List.length_map]
  have hk : y.1 < pws.length := by
    have := h.numbered y hy
    rwa [List.length_map] at this
  have hops : op ∈ logOps (eventsOf y.1 all) :=
    List.mem_filterMap.mpr ⟨y.2, mem_eventsOf.mpr hy, hop⟩
  have hlane : lanes[y.1]? = some lanes[y.1] := List.getElem?_eq_getElem (hlength ▸ hk)
  obtain ⟨out, hout, -, ⟨f, -, -, hnone⟩ | ⟨x, first, last, rfl, -, hrecorded⟩⟩ :=
    h.ended ended (List.getElem?_eq_getElem hk) hlane
  · rw [hnone] at hops
    cases hops
  · obtain ⟨versions, story⟩ := hrecorded.story
    exact ⟨_, x, first, last, hout ▸ hlane, hrecorded, story.id_of_mem op hops⟩

/-- The changes of a run are those under the id of its entry. -/
theorem Told.id_eq_iff (h : Told (pws.map (runOf s r)) w all lanes w')
    (ended : ∀ l ∈ lanes, l.isEnded = true) {x : RunResult} {first last : LogEntry}
    (recorded : Run.Recorded r pw.1 (some pw.2) w.now (eventsOf i all) x first last)
    (y : Nat × Event) (hy : y ∈ all) (op : LogOp) (hop : y.2.logOp? = some op) :
    op.id = first.id ↔ y.1 = i := by
  constructor
  · intro heq
    obtain ⟨_, _, first', _, -, hrecorded, hid⟩ := h.exists_recorded ended hy hop
    refine eq_of_drawn h.nodup_drawn hrecorded.drawn ?_
    rw [← hid, heq]
    exact recorded.drawn
  · rintro rfl
    obtain ⟨versions, story⟩ := recorded.story
    exact story.id_of_mem op (List.mem_filterMap.mpr ⟨y.2, mem_eventsOf.mpr hy, hop⟩)

/-- Each run that could open its entry has a result and an entry. -/
theorem Told.entered (h : Told (pws.map (runOf s r)) w all lanes w') (orderly : w.Orderly)
    (ended : ∀ l ∈ lanes, l.isEnded = true) :
    List.Forall₂ (Entered s r w w') (pws.filter (opens w.now)) (resultsOf lanes) := by
  have hlength : pws.length = lanes.length := by rw [h.length, List.length_map]
  refine forall₂_filterMap (List.forall₂_iff_get.mpr ⟨hlength, fun i hi hk => ?_⟩)
  obtain ⟨out, hout, course, ⟨f, rfl, hopens, -⟩ | ⟨x, first, last, rfl, hopens, hrecorded⟩⟩ :=
    h.ended ended (List.getElem?_eq_getElem hi) (List.getElem?_eq_getElem hk)
  · refine .inl ⟨hopens, ?_⟩
    rw [List.get_eq_getElem, hout]
    rfl
  · have hnew := h.fresh orderly hrecorded.drawn
    obtain ⟨versions, story⟩ := hrecorded.story
    refine .inr ⟨hopens, x, by rw [List.get_eq_getElem, hout]; rfl, .intro course hrecorded hnew ?_⟩
    rw [h.follows.log, MemoryLog.get?_foldl_filter _ _ orderly.nodup orderly.nodup rfl,
      filter_logOps (h.id_eq_iff ended hrecorded)]
    split
    · rename_i hdiscards
      rw [story.eq_of_discarded hdiscards hnew]
      exact hnew
    · rename_i hkept
      exact story.get?_of_kept (Bool.eq_false_iff.mpr hkept) _

/-- No two runs share an entry. -/
theorem Told.nodup_entryIds (h : Told (pws.map (runOf s r)) w all lanes w')
    (ended : ∀ l ∈ lanes, l.isEnded = true) : ((resultsOf lanes).map entryId?).Nodup := by
  have hrecorded : ∀ {i : Nat} (hi : i < lanes.length) {x : RunResult},
      lanes[i].result?.bind Except.toOption = some x →
      ∃ id, entryId? x = some id ∧ id ∈ drawnIds (eventsOf i all) := by
    intro i hi x hx
    have hlength : pws.length = lanes.length := by rw [h.length, List.length_map]
    obtain ⟨out, hout, -, ⟨f, rfl, -⟩ | ⟨x', first, last, rfl, -, hrecorded⟩⟩ :=
      h.ended ended (List.getElem?_eq_getElem (hlength ▸ hi)) (List.getElem?_eq_getElem hi)
    · rw [hout] at hx
      cases hx
    · rw [hout] at hx
      obtain rfl : x' = x := Option.some.inj hx
      exact ⟨first.id, entryId?_eq hrecorded, hrecorded.drawn⟩
  rw [resultsOf, List.nodup_iff_pairwise_ne, List.pairwise_map, List.pairwise_filterMap,
    List.pairwise_iff_getElem]
  intro i k hi hk hik x hx y hy heq
  obtain ⟨id, hid, hdrawn⟩ := hrecorded hi hx
  obtain ⟨id', hid', hdrawn'⟩ := hrecorded hk hy
  rw [hid, hid', Option.some.injEq] at heq
  exact Nat.ne_of_lt hik (eq_of_drawn h.nodup_drawn hdrawn (heq ▸ hdrawn'))

/-- Entries that are not those of the results are as they were. -/
theorem Told.get?_other (h : Told (pws.map (runOf s r)) w all lanes w')
    (ended : ∀ l ∈ lanes, l.isEnded = true) {id : String}
    (other : some id ∉ (resultsOf lanes).map entryId?) : w'.log.get? id = w.log.get? id := by
  rw [h.follows.log]
  refine MemoryLog.get?_foldl_of_ne fun op hop heq => ?_
  obtain ⟨e, he, hop⟩ := List.mem_filterMap.mp hop
  obtain ⟨y, hy, rfl⟩ := List.mem_map.mp he
  obtain ⟨pw, x, first, last, hlane, hrecorded, hid⟩ := h.exists_recorded ended hy hop
  have hmem : x ∈ resultsOf lanes :=
    List.mem_filterMap.mpr ⟨_, List.mem_of_getElem? hlane, rfl⟩
  refine other (List.mem_map.mpr ⟨x, hmem, ?_⟩)
  rw [entryId?_eq hrecorded, ← heq, hid]

/-- When all runs have ended, each that could open its entry has a result and an entry of its own. -/
theorem Told.logged (h : Told (pws.map (runOf s r)) w all lanes w') (orderly : w.Orderly)
    (ended : ∀ l ∈ lanes, l.isEnded = true) :
    Logged s r w w' (pws.filter (opens w.now)) (resultsOf lanes) where
  each := h.entered orderly ended
  nodup := h.nodup_entryIds ended
  others _ := h.get?_other ended

end ended

end Worker
end Conveyor
