import Mathlib.Data.List.Induction
import Mathlib.Data.List.Nodup
import Conveyor.Vault

/-!
# The vault in use

A vault answers by what it has disclosed so far. The secrets of an application are numbered from one
without a gap, only the latest of them is verified, and calls about other applications make no
difference (`vault_answers_disclosures`).
-/

namespace Conveyor.Vault

/-- What is asked of a vault. A new secret comes with the salt that is drawn for it. -/
inductive Call where
  | issue (application salt plaintext : String)
  | rotate (application salt plaintext : String)
  | verify (application candidate : String)
  | describe (application : String)

namespace Call

/-- The application that a call is about. -/
def application : Call → String
  | .issue a _ _ | .rotate a _ _ | .verify a _ | .describe a => a

/-- The salt and the plaintext of a new secret. -/
def drawn? : Call → Option (String × String)
  | .issue _ salt plaintext | .rotate _ salt plaintext => some (salt, plaintext)
  | .verify .. | .describe _ => none

end Call

inductive Reply where
  | disclosed (secret : IssuedSecret)
  | refused (e : SecretAlreadyIssued)
  | verified (holds : Bool)
  | described (version : Option Nat)

/-- The secret that a reply shows. -/
def Reply.secret? : Reply → Option IssuedSecret
  | .disclosed s => some s
  | _ => none

variable (derive : KeyDerivation)

/-- Answer a call. -/
def answer (v : Vault) : Call → Reply × Vault
  | .issue a salt plaintext =>
    match v.issue derive a salt plaintext with
    | .ok (secret, v') => (.disclosed secret, v')
    | .error e => (.refused e, v)
  | .rotate a salt plaintext =>
    (.disclosed (v.rotate derive a salt plaintext).1, (v.rotate derive a salt plaintext).2)
  | .verify a candidate => (.verified (v.verify derive a candidate), v)
  | .describe a => (.described (v.version? a), v)

/-- A vault in use, and what it was asked with what it answered. -/
structure InUse where
  vault : Vault := {}
  history : List (Call × Reply) := []

def InUse.answer (u : InUse) (c : Call) : InUse :=
  ⟨(u.vault.answer derive c).2, u.history ++ [(c, (u.vault.answer derive c).1)]⟩

/-- A new vault after calls one after the other. -/
def InUse.ofCalls (calls : List Call) : InUse := calls.foldl (InUse.answer derive) {}

/-- All secrets that were disclosed, in order. -/
def secrets (history : List (Call × Reply)) : List IssuedSecret :=
  history.filterMap fun e => e.2.secret?

/-- The secrets that were disclosed for an application, in order. -/
def secretsOf (application : String) (history : List (Call × Reply)) : List IssuedSecret :=
  (secrets history).filter fun s => s.application = application

/-- With this salt, the derivation tells the plaintext from every other candidate. -/
def IsExact (salt plaintext : String) : Prop :=
  ∀ candidate, derive salt candidate = derive salt plaintext ↔ candidate = plaintext

variable {derive} {v v' : Vault} {c : Call} {a : String}

/-! ## One call -/

/-- A secret is disclosed for the application that is asked about, under the number after that of the
last one, and stored with the salt that was drawn for it. -/
theorem answer_disclosed {s : IssuedSecret} (h : (v.answer derive c).1.secret? = some s) :
    s.application = c.application ∧
      s.version = ((v.stored.get? c.application).map (·.version)).getD 0 + 1 ∧
      ∃ salt, c.drawn? = some (salt, s.plaintext) ∧
        (v.answer derive c).2.stored.get? c.application =
          some ⟨s.version, salt, derive salt s.plaintext⟩ := by
  cases c with
  | issue a salt plaintext =>
    cases hstored : v.stored.get? a with
    | none =>
      simp [answer, issue, Keyed.has, hstored, store, Reply.secret?] at h
      subst h
      simp [answer, issue, Keyed.has, hstored, store, Call.application, Call.drawn?,
        Keyed.get?_put_same]
    | some stored => simp [answer, issue, Keyed.has, hstored, Reply.secret?] at h
  | rotate a salt plaintext =>
    simp only [answer, rotate, store, Reply.secret?, Option.some.injEq] at h
    subst h
    cases hstored : v.stored.get? a with
    | none => simp [answer, rotate, store, hstored, Call.application, Call.drawn?, Keyed.get?_put_same]
    | some stored =>
      simp [answer, rotate, store, hstored, Call.application, Call.drawn?, Keyed.get?_put_same]
  | verify a candidate => cases h
  | describe a => cases h

/-- A call that discloses nothing changes nothing. -/
theorem answer_undisclosed (h : (v.answer derive c).1.secret? = none) :
    (v.answer derive c).2 = v := by
  cases c with
  | issue a salt plaintext =>
    by_cases hissued : v.stored.has a = true
    · simp [answer, issue, hissued]
    · simp [answer, issue, hissued, Reply.secret?] at h
  | rotate a salt plaintext => cases h
  | verify a candidate => rfl
  | describe a => rfl

/-- A call leaves what is stored for other applications alone. -/
theorem get?_answer_other (h : a ≠ c.application) :
    (v.answer derive c).2.stored.get? a = v.stored.get? a := by
  cases c with
  | issue a' salt plaintext =>
    by_cases hissued : v.stored.has a' = true
    · simp [answer, issue, hissued]
    · simp only [answer, issue, hissued, store]
      exact Keyed.get?_put_other _ _ h
  | rotate a' salt plaintext => exact Keyed.get?_put_other _ _ h
  | verify a' candidate => rfl
  | describe a' => rfl

/-- An answer depends on nothing but what is stored for the application, and so does what is stored
for it then. -/
theorem answer_congr (derive : KeyDerivation)
    (h : v.stored.get? c.application = v'.stored.get? c.application) :
    (v.answer derive c).1 = (v'.answer derive c).1 ∧
      (v.answer derive c).2.stored.get? c.application =
        (v'.answer derive c).2.stored.get? c.application := by
  cases c with
  | issue a salt plaintext =>
    have hhas : v.stored.has a = v'.stored.has a := congrArg Option.isSome h
    by_cases hissued : v'.stored.has a = true
    · rw [hissued] at hhas
      simpa [answer, issue, hissued, hhas] using h
    · rw [Bool.not_eq_true] at hissued
      rw [hissued] at hhas
      simp [answer, issue, hissued, hhas, store, Call.application, Keyed.get?_put_same]
  | rotate a salt plaintext =>
    simp only [Call.application] at h
    simp [answer, rotate, h, store, Call.application, Keyed.get?_put_same]
  | verify a candidate =>
    simp only [Call.application] at h
    simp [answer, verify, h, Call.application]
  | describe a =>
    simp only [Call.application] at h
    simp [answer, version?, h, Call.application]

/-! ## Any calls -/

theorem secretsOf_concat (a : String) (history : List (Call × Reply)) (e : Call × Reply) :
    secretsOf a (history ++ [e]) =
      secretsOf a history ++ e.2.secret?.toList.filter fun s => s.application = a := by
  unfold secretsOf secrets
  cases h : e.2.secret? <;> simp [List.filterMap_append, h]

/-- What a vault stores for a secret that it has disclosed. -/
structure Keeps (derive : KeyDerivation) (stored : StoredSecret) (s : IssuedSecret) : Prop where
  version : stored.version = s.version
  digest : stored.digest = derive stored.salt s.plaintext
  exact_ : IsExact derive stored.salt s.plaintext

namespace InUse

/-- For every application the vault stores its latest secret, and the secrets are numbered. -/
structure IsSound (derive : KeyDerivation) (u : InUse) : Prop where
  stored : ∀ a, Option.Rel (Keeps derive) (u.vault.stored.get? a)
    (secretsOf a u.history).getLast?
  versions : ∀ a, (secretsOf a u.history).map (·.version) =
    List.range' 1 (secretsOf a u.history).length

theorem isSound_new : IsSound derive {} where
  stored _ := .none
  versions _ := rfl

variable {u : InUse}

/-- The latest of so many secrets has their number. -/
theorem IsSound.version_getLast? (h : u.IsSound derive) (a : String) :
    ((u.vault.stored.get? a).map (·.version)).getD 0 = (secretsOf a u.history).length := by
  have hnumbers := congrArg List.getLast? (h.versions a)
  rw [List.getLast?_map, List.getLast?_range'] at hnumbers
  have hkept := h.stored a
  generalize u.vault.stored.get? a = stored at hkept
  generalize (secretsOf a u.history).getLast? = last at hkept hnumbers
  cases hkept with
  | none =>
    by_cases hempty : (secretsOf a u.history).length = 0
    · simp [hempty]
    · simp [hempty] at hnumbers
  | some keeps =>
    by_cases hempty : (secretsOf a u.history).length = 0
    · simp [hempty] at hnumbers
    · simp [hempty] at hnumbers
      simp [keeps.version]
      omega

/-- A call keeps the vault in line with what was disclosed. -/
theorem IsSound.answer (h : u.IsSound derive)
    (exact_ : ∀ salt plaintext, c.drawn? = some (salt, plaintext) → IsExact derive salt plaintext) :
    (u.answer derive c).IsSound derive := by
  have hshown : ∀ a, secretsOf a (u.answer derive c).history = secretsOf a u.history ++
      (u.vault.answer derive c).1.secret?.toList.filter fun s => s.application = a :=
    fun a => secretsOf_concat a _ _
  cases hs : (u.vault.answer derive c).1.secret? with
  | none =>
    have hvault : (u.answer derive c).vault = u.vault := answer_undisclosed hs
    simp only [hs, Option.toList_none, List.filter_nil, List.append_nil] at hshown
    constructor
    · intro a
      rw [hvault, hshown]
      exact h.stored a
    · intro a
      rw [hshown]
      exact h.versions a
  | some s =>
    obtain ⟨happlication, hversion, salt, hdrawn, hstored⟩ := answer_disclosed hs
    rw [h.version_getLast?] at hversion
    have hsame : secretsOf c.application (u.answer derive c).history =
        secretsOf c.application u.history ++ [s] := by
      rw [hshown, hs]
      simp [happlication]
    have hother : ∀ a, a ≠ c.application →
        secretsOf a (u.answer derive c).history = secretsOf a u.history := by
      intro a ha
      rw [hshown, hs]
      simp [happlication, Ne.symm ha]
    constructor
    · intro a
      by_cases ha : a = c.application
      · subst ha
        show Option.Rel _ ((u.vault.answer derive c).2.stored.get? c.application) _
        rw [hsame, hstored, List.getLast?_concat]
        exact .some ⟨rfl, rfl, exact_ salt s.plaintext hdrawn⟩
      · show Option.Rel _ ((u.vault.answer derive c).2.stored.get? a) _
        rw [hother a ha, get?_answer_other ha]
        exact h.stored a
    · intro a
      by_cases ha : a = c.application
      · subst ha
        rw [hsame, List.map_append, List.length_append, h.versions, List.map_singleton,
          List.length_singleton, List.range'_concat, hversion]
        simp [Nat.add_comm]
      · rw [hother a ha]
        exact h.versions a

theorem ofCalls_concat (calls : List Call) (c : Call) :
    ofCalls derive (calls ++ [c]) = (ofCalls derive calls).answer derive c := by
  simp [ofCalls]

theorem isSound_ofCalls {calls : List Call} (exact_ : ∀ c ∈ calls, ∀ salt plaintext,
    c.drawn? = some (salt, plaintext) → IsExact derive salt plaintext) :
    (ofCalls derive calls).IsSound derive := by
  induction calls using List.reverseRecOn with
  | nil => exact isSound_new
  | append_singleton calls c ih =>
    rw [ofCalls_concat]
    apply IsSound.answer
    · exact ih fun c' hc' => exact_ c' (List.mem_append_left _ hc')
    · exact exact_ c (List.mem_append_right _ List.mem_cons_self)

/-- The calls about one application are answered as if there were no others, and leave the same
stored for it. -/
theorem ofCalls_filter (calls : List Call) (a : String) :
    (ofCalls derive calls).history.filter (fun e => e.1.application = a) =
        (ofCalls derive (calls.filter fun c => c.application = a)).history ∧
      (ofCalls derive calls).vault.stored.get? a =
        (ofCalls derive (calls.filter fun c => c.application = a)).vault.stored.get? a := by
  induction calls using List.reverseRecOn with
  | nil => exact ⟨rfl, rfl⟩
  | append_singleton calls c ih =>
    obtain ⟨hhistory, hstored⟩ := ih
    rw [ofCalls_concat, List.filter_append]
    by_cases hc : c.application = a
    · subst hc
      obtain ⟨hreply, hafter⟩ := answer_congr derive hstored
      simp [ofCalls_concat, InUse.answer, hhistory, hreply, hafter]
    · simp [hc, InUse.answer, hhistory, get?_answer_other (Ne.symm hc), hstored]

/-! ## What the vault answers -/

/-- The latest secret is verified and nothing else. -/
theorem IsSound.verify (h : u.IsSound derive) (a candidate : String) :
    u.vault.verify derive a candidate = true ↔
      ((secretsOf a u.history).getLast?).map (·.plaintext) = some candidate := by
  have hkept := h.stored a
  unfold Vault.verify
  generalize u.vault.stored.get? a = stored at hkept
  generalize (secretsOf a u.history).getLast? = last at hkept
  cases hkept with
  | none => simp
  | some keeps =>
    simp only [decide_eq_true_eq, Option.map_some, Option.some.injEq]
    rw [keeps.digest, keeps.exact_ candidate]
    exact eq_comm

theorem IsSound.version? (h : u.IsSound derive) (a : String) :
    u.vault.version? a = ((secretsOf a u.history).getLast?).map (·.version) := by
  have hkept := h.stored a
  unfold Vault.version?
  generalize u.vault.stored.get? a = stored at hkept
  generalize (secretsOf a u.history).getLast? = last at hkept
  cases hkept with
  | none => rfl
  | some keeps => simp [keeps.version]

theorem IsSound.has (h : u.IsSound derive) (a : String) :
    u.vault.stored.has a = true ↔ secretsOf a u.history ≠ [] := by
  have hkept := h.stored a
  unfold Keyed.has
  generalize u.vault.stored.get? a = stored at hkept
  generalize hlast : (secretsOf a u.history).getLast? = last at hkept
  cases hkept with
  | none => simpa using hlast
  | some keeps =>
    simp only [Option.isSome_some, true_iff]
    intro hempty
    simp [hempty] at hlast

/-- A first secret is disclosed if there is none yet; otherwise the call is refused. -/
theorem IsSound.issue (h : u.IsSound derive) (a salt plaintext : String) :
    (secretsOf a u.history = [] →
        (u.vault.answer derive (.issue a salt plaintext)).1 = .disclosed ⟨a, 1, plaintext⟩) ∧
      (secretsOf a u.history ≠ [] →
        u.vault.answer derive (.issue a salt plaintext) = (.refused ⟨a⟩, u.vault)) := by
  have hhas := h.has a
  constructor
  · intro hempty
    simp [hempty] at hhas
    simp [Vault.answer, Vault.issue, hhas, store]
  · intro hissued
    simp [hissued] at hhas
    simp [Vault.answer, Vault.issue, hhas]

/-- A new secret is disclosed under the next number. -/
theorem IsSound.rotate (h : u.IsSound derive) (a salt plaintext : String) :
    (u.vault.answer derive (.rotate a salt plaintext)).1 =
      .disclosed ⟨a, (secretsOf a u.history).length + 1, plaintext⟩ := by
  rw [← h.version_getLast?]
  cases hstored : u.vault.stored.get? a <;> simp [Vault.answer, Vault.rotate, store, hstored]

/-- If no plaintext is disclosed twice, a secret is verified for its own application only, and only
until the next one is disclosed. -/
theorem IsSound.latest_of_verify (h : u.IsSound derive)
    (distinct : ((secrets u.history).map (·.plaintext)).Nodup) {s : IssuedSecret}
    (disclosed : s ∈ secrets u.history) {a : String}
    (verified : u.vault.verify derive a s.plaintext = true) :
    (secretsOf a u.history).getLast? = some s := by
  obtain ⟨last, hlast, hplaintext⟩ := Option.map_eq_some_iff.mp ((h.verify a s.plaintext).mp verified)
  have hmem : last ∈ secrets u.history := 
    (List.mem_filter.mp (List.mem_of_getLast? hlast)).1
  rw [hlast, List.inj_on_of_nodup_map distinct hmem disclosed hplaintext]

end InUse

/-- After any calls, with salts that tell each new plaintext from every other candidate, a vault
answers by the secrets that it has disclosed. Those of an application have the numbers from one on;
a first secret is refused, and nothing changes, exactly if there is one already; the plaintext of
the latest is verified and nothing else, and its number is what is told about it. The calls about
one application are answered as if there were no others. If no plaintext is disclosed twice, a
secret is never verified again once it is superseded, and never for another application. -/
theorem vault_answers_disclosures {calls : List Call} (exact_ : ∀ c ∈ calls, ∀ salt plaintext,
    c.drawn? = some (salt, plaintext) → IsExact derive salt plaintext) :
    let u := InUse.ofCalls derive calls
    (∀ a, (secretsOf a u.history).map (·.version) = List.range' 1 (secretsOf a u.history).length) ∧
    (∀ a salt plaintext,
      (secretsOf a u.history = [] →
        (u.vault.answer derive (.issue a salt plaintext)).1 = .disclosed ⟨a, 1, plaintext⟩) ∧
      (secretsOf a u.history ≠ [] →
        u.vault.answer derive (.issue a salt plaintext) = (.refused ⟨a⟩, u.vault))) ∧
    (∀ a salt plaintext, (u.vault.answer derive (.rotate a salt plaintext)).1 =
      .disclosed ⟨a, (secretsOf a u.history).length + 1, plaintext⟩) ∧
    (∀ a candidate, u.vault.answer derive (.verify a candidate) =
      (.verified (decide (((secretsOf a u.history).getLast?).map (·.plaintext) = some candidate)),
        u.vault)) ∧
    (∀ a, u.vault.answer derive (.describe a) =
      (.described (((secretsOf a u.history).getLast?).map (·.version)), u.vault)) ∧
    (∀ a, u.history.filter (fun e => e.1.application = a) =
      (InUse.ofCalls derive (calls.filter fun c => c.application = a)).history) ∧
    (((secrets u.history).map (·.plaintext)).Nodup → ∀ s ∈ secrets u.history, ∀ a,
      u.vault.verify derive a s.plaintext = true → (secretsOf a u.history).getLast? = some s) := by
  intro u
  have sound : u.IsSound derive := InUse.isSound_ofCalls exact_
  refine ⟨sound.versions, sound.issue, sound.rotate, ?_, ?_,
    fun a => (InUse.ofCalls_filter calls a).1, ?_⟩
  · intro a candidate
    have hverify : u.vault.verify derive a candidate =
        decide (((secretsOf a u.history).getLast?).map (·.plaintext) = some candidate) := by
      rw [Bool.eq_iff_iff, decide_eq_true_eq]
      exact sound.verify a candidate
    simp [answer, hverify]
  · intro a
    simp [answer, sound.version?]
  · intro distinct s disclosed a verified
    exact sound.latest_of_verify distinct disclosed verified

/-- A derivation that puts the salt before the secret. -/
def salted : KeyDerivation := fun salt secret => salt ++ secret

theorem isExact_salted (salt plaintext : String) : IsExact salted salt plaintext := by
  intro candidate
  simp [salted, ← String.toList_inj]

/-- Two applications: one begins with a rotation, asks for a first secret in vain, and rotates
again. -/
def twoTenants : List Call :=
  [.rotate "meters" "s1" "first", .issue "gates" "s2" "second", .issue "meters" "s3" "third",
    .rotate "meters" "s4" "fourth"]

theorem twoTenants_answers_disclosures :
    (∀ c ∈ twoTenants, ∀ salt plaintext,
      c.drawn? = some (salt, plaintext) → IsExact salted salt plaintext) ∧
    let u := InUse.ofCalls salted twoTenants
    secretsOf "meters" u.history = [⟨"meters", 1, "first"⟩, ⟨"meters", 2, "fourth"⟩] ∧
    (u.vault.answer salted (.issue "meters" "s5" "fifth")).1 = .refused ⟨"meters"⟩ ∧
    (u.vault.answer salted (.verify "meters" "fourth")).1 = .verified true ∧
    (u.vault.answer salted (.verify "meters" "first")).1 = .verified false ∧
    (u.vault.answer salted (.verify "gates" "fourth")).1 = .verified false ∧
    (u.vault.answer salted (.describe "meters")).1 = .described (some 2) := by
  have exact_ : ∀ c ∈ twoTenants, ∀ salt plaintext,
      c.drawn? = some (salt, plaintext) → IsExact salted salt plaintext :=
    fun _ _ salt plaintext _ => isExact_salted salt plaintext
  obtain ⟨-, issues, -, verifies, describes, -, -⟩ := vault_answers_disclosures exact_
  have hmeters : secretsOf "meters" (InUse.ofCalls salted twoTenants).history =
      [⟨"meters", 1, "first"⟩, ⟨"meters", 2, "fourth"⟩] := rfl
  have hgates : secretsOf "gates" (InUse.ofCalls salted twoTenants).history =
      [⟨"gates", 1, "second"⟩] := rfl
  refine ⟨exact_, hmeters, ?_, ?_, ?_, ?_, ?_⟩
  · rw [(issues "meters" "s5" "fifth").2 (by simp [hmeters])]
  · simp [verifies, hmeters]
  · simp [verifies, hmeters]
  · simp [verifies, hgates]
  · rw [describes, hmeters]
    rfl

end Conveyor.Vault
