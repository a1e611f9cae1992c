import Conveyor.Destination.Rest
import Conveyor.Proofs.Keyed
import Conveyor.Proofs.Outcome

/-!
# Headers of requests

The name of a header is the same in capital and in small letters. The maps that a request is made of
tell such names apart. So a header whose name is spelled in one way in all of them has the one value
that is meant for it: the call's, or else the connection's, or else the token. A header whose name is
spelled in several ways has a value for each of them (`values_sent`). The user of an address replaces
every other authorization.
-/

namespace Conveyor

/-! ## Values under a name -/

/-- Texts are the same in small letters if their characters are. -/
theorem toLower_eq_iff {a b : String} :
    a.toLower = b.toLower ↔ a.toList.map Char.toLower = b.toList.map Char.toLower := by
  have heq : ∀ s : String, s.toLower.toList = s.toList.map Char.toLower := fun s =>
    String.toList_map
  rw [← String.toList_inj, heq, heq]

namespace Keyed

variable {m other : Keyed String} {name spelling : String}

/-- Where both bind a name, the second wins. -/
theorem get?_merge (m : Keyed String) (h : other.keys.Nodup) (key : String) :
    (merge m other).get? key = (other.get? key).or (m.get? key) := by
  induction other generalizing m with
  | nil => rfl
  | cons head rest ih =>
    obtain ⟨k, v⟩ := head
    rw [keys, List.map_cons, List.nodup_cons] at h
    rw [merge, List.foldl_cons]
    show (merge (put k v m) rest).get? key = _
    rw [ih _ h.2, get?]
    by_cases hk : k = key
    · subst hk
      rw [get?_eq_none_iff.mpr h.1, get?_put_same, if_pos rfl]
      rfl
    · rw [get?_put_other v m (Ne.symm hk), if_neg hk]

theorem nodup_keys_merge (other : Keyed String) (h : m.keys.Nodup) : (merge m other).keys.Nodup := by
  induction other generalizing m with
  | nil => exact h
  | cons head rest ih => exact ih (nodup_keys_put _ _ h)

theorem mem_keys_iff {key : String} : key ∈ m.keys ↔ (m.get? key).isSome = true := by
  rw [← Option.ne_none_iff_isSome, ne_eq, get?_eq_none_iff, not_not]

/-- The values under a name, whatever the case of its letters. -/
def valuesOf (name : String) (m : Keyed String) : List String :=
  (m.filter fun p => p.1.toLower = name.toLower).map (·.2)

/-- There is one value for each spelling of the name. -/
theorem forall₂_valuesOf (h : m.keys.Nodup) (name : String) :
    List.Forall₂ (fun s value => m.get? s = some value)
      (m.keys.filter fun s => s.toLower = name.toLower) (m.valuesOf name) := by
  rw [keys, List.filter_map, valuesOf, List.forall₂_map_left_iff, List.forall₂_map_right_iff]
  exact List.forall₂_same.mpr fun p hp =>
    (get?_eq_some_iff h).mpr (List.mem_of_mem_filter hp)

/-- A name with no more than one value is spelled in one way. -/
theorem eq_of_valuesOf {value : Option String} {s s' : String} (h : m.keys.Nodup)
    (hvalues : m.valuesOf name = value.toList) (hs : s ∈ m.keys ∧ s.toLower = name.toLower)
    (hs' : s' ∈ m.keys ∧ s'.toLower = name.toLower) : s = s' := by
  have hspellings := forall₂_valuesOf h name
  have hmem : ∀ s, s ∈ m.keys ∧ s.toLower = name.toLower →
      s ∈ m.keys.filter fun s => s.toLower = name.toLower :=
    fun s hs => List.mem_filter.mpr ⟨hs.1, decide_eq_true hs.2⟩
  have hmem₁ := hmem s hs
  have hmem₂ := hmem s' hs'
  rw [hvalues] at hspellings
  cases value with
  | none =>
    rw [List.forall₂_nil_right_iff.mp hspellings] at hmem₁
    cases hmem₁
  | some value =>
    obtain ⟨k, rest, -, hrest, heq⟩ := List.forall₂_cons_right_iff.mp hspellings
    rw [heq, List.forall₂_nil_right_iff.mp hrest, List.mem_singleton] at hmem₁ hmem₂
    rw [hmem₁, hmem₂]

/-- A name that is spelled in one way has at most the value under this spelling. -/
theorem valuesOf_of_only (h : m.keys.Nodup) (hname : spelling.toLower = name.toLower)
    (only : ∀ s ∈ m.keys, s.toLower = name.toLower → s = spelling) :
    m.valuesOf name = (m.get? spelling).toList := by
  induction m with
  | nil => rfl
  | cons head rest ih =>
    obtain ⟨k, v⟩ := head
    rw [keys, List.map_cons, List.nodup_cons] at h
    have hrest := ih h.2 fun s hs => only s (List.mem_cons_of_mem _ hs)
    by_cases hk : k = spelling
    · subst hk
      rw [get?_eq_none_iff.mpr h.1] at hrest
      rw [valuesOf, List.filter_cons_of_pos (by simpa using hname), get?, if_pos rfl, List.map_cons]
      exact congrArg (v :: ·) hrest
    · have hother : ¬k.toLower = name.toLower := fun heq => hk (only k List.mem_cons_self heq)
      rw [valuesOf, List.filter_cons_of_neg (by simpa using hother), get?, if_neg hk]
      exact hrest

end Keyed

def HttpRequest.valuesOf (req : HttpRequest) (name : String) : List String :=
  Keyed.valuesOf name req.headers

/-! ## Headers that are meant -/

namespace RestConnection

variable {c : RestConnection} {r : RestRequest} {req : HttpRequest} {name s : String}

/-- The authorization of the connection's token, if it has one. -/
def bearer? (c : RestConnection) : Option String :=
  (c.authToken.filter fun t => !t.isEmpty).map ("Bearer " ++ ·)

/-- The value that is meant for a header: the call's, or else the connection's, or else the token for
the authorization. -/
def intended? (c : RestConnection) (r : RestRequest) (name : String) : Option String :=
  ((r.headers.valuesOf name).head?.or (c.headers.valuesOf name).head?).or
    (if name.toLower = authorization.toLower then c.bearer? else none)

/-- The value under one spelling of a name. -/
def spelled? (c : RestConnection) (r : RestRequest) (s : String) : Option String :=
  ((r.headers.get? s).or (c.headers.get? s)).or (if s = authorization then c.bearer? else none)

/-- Whether a name is spelled so where a request gets its headers from. -/
def IsSpelling (c : RestConnection) (r : RestRequest) (name s : String) : Prop :=
  s.toLower = name.toLower ∧
    (s ∈ r.headers.keys ∨ s ∈ c.headers.keys ∨ s = authorization ∧ c.bearer?.isSome = true)

theorem requestHeaders_eq (c : RestConnection) (r : RestRequest) :
    c.requestHeaders r =
      let headers := Keyed.merge c.headers r.headers
      match c.bearer? with
      | some text => if headers.has authorization then headers else headers.put authorization text
      | none => headers := by
  unfold requestHeaders bearer?
  cases c.authToken.filter fun t => !t.isEmpty <;> rfl

theorem get?_requestHeaders (hr : r.headers.keys.Nodup) (s : String) :
    (c.requestHeaders r).get? s = c.spelled? r s := by
  have hmerge := Keyed.get?_merge c.headers hr
  rw [requestHeaders_eq, spelled?, ← hmerge]
  dsimp only
  cases c.bearer? with
  | none => simp
  | some text =>
    dsimp only
    by_cases hs : s = authorization
    · subst hs
      rw [if_pos rfl, Keyed.has]
      split
      · rename_i hhas
        obtain ⟨value, hvalue⟩ := Option.isSome_iff_exists.mp hhas
        rw [hvalue]
        rfl
      · rename_i hhas
        rw [Keyed.get?_put_same, Option.not_isSome_iff_eq_none.mp hhas]
        rfl
    · rw [if_neg hs, Option.or_none]
      split
      · rfl
      · rw [Keyed.get?_put_other _ _ hs]

theorem nodup_keys_requestHeaders (hc : c.headers.keys.Nodup) (r : RestRequest) :
    (c.requestHeaders r).keys.Nodup := by
  have hmerge := Keyed.nodup_keys_merge r.headers hc
  rw [requestHeaders_eq]
  dsimp only
  split
  · split
    · exact hmerge
    · exact Keyed.nodup_keys_put _ _ hmerge
  · exact hmerge

theorem mem_keys_requestHeaders (hr : r.headers.keys.Nodup) :
    s ∈ (c.requestHeaders r).keys ∧ s.toLower = name.toLower ↔ c.IsSpelling r name s := by
  rw [Keyed.mem_keys_iff, get?_requestHeaders hr, spelled?, IsSpelling, and_comm,
    Keyed.mem_keys_iff, Keyed.mem_keys_iff]
  by_cases hs : s = authorization <;> simp [hs, or_assoc]

/-- A name that is spelled in one way only has the value under its spelling. -/
theorem intended?_of_only (hc : c.headers.keys.Nodup) (hr : r.headers.keys.Nodup)
    (hname : s.toLower = name.toLower) (only : ∀ s', c.IsSpelling r name s' → s' = s) :
    c.intended? r name = c.spelled? r s := by
  have hcall := Keyed.valuesOf_of_only hr hname fun s' hs' heq => only s' ⟨heq, .inl hs'⟩
  have hown := Keyed.valuesOf_of_only hc hname fun s' hs' heq => only s' ⟨heq, .inr (.inl hs')⟩
  have htoken : (if name.toLower = authorization.toLower then c.bearer? else none) =
      if s = authorization then c.bearer? else none := by
    cases hbearer : c.bearer? with
    | none => simp
    | some text =>
      have heq : name.toLower = authorization.toLower ↔ s = authorization := by
        constructor
        · intro h
          exact (only authorization ⟨h.symm, .inr (.inr ⟨rfl, by rw [hbearer]; rfl⟩)⟩).symm
        · rintro rfl
          exact hname.symm
      simp only [heq]
  rw [intended?, hcall, hown, htoken, Option.head?_toList, Option.head?_toList, spelled?]

/-- Before the user of an address comes in, a header has exactly the value that is meant for it if its
name is spelled in one way. -/
theorem valuesOf_requestHeaders_iff (hc : c.headers.keys.Nodup) (hr : r.headers.keys.Nodup)
    (name : String) :
    (c.requestHeaders r).valuesOf name = (c.intended? r name).toList ↔
      ∀ s s', c.IsSpelling r name s → c.IsSpelling r name s' → s = s' := by
  have hkeys := nodup_keys_requestHeaders hc r
  constructor
  case mp =>
    intro hvalues s s' hs hs'
    exact Keyed.eq_of_valuesOf hkeys hvalues ((mem_keys_requestHeaders hr).mpr hs)
      ((mem_keys_requestHeaders hr).mpr hs')
  case mpr =>
    intro hone
    have honly : ∃ s, s.toLower = name.toLower ∧ ∀ s', c.IsSpelling r name s' → s' = s := by
      by_cases hnone : ∃ s, c.IsSpelling r name s
      · obtain ⟨s, hs⟩ := hnone
        exact ⟨s, hs.1, fun s' hs' => hone s' s hs' hs⟩
      · exact ⟨name, rfl, fun s' hs' => absurd ⟨s', hs'⟩ hnone⟩
    obtain ⟨s, hname, only⟩ := honly
    rw [intended?_of_only hc hr hname only, ← get?_requestHeaders hr]
    refine Keyed.valuesOf_of_only hkeys hname fun s' hs' heq => only s' ?_
    exact (mem_keys_requestHeaders hr).mp ⟨hs', heq⟩

/-! ## The user of an address -/

/-- A user replaces every authorization. -/
theorem valuesOf_authorized_same {a : Address} {user password : String}
    (h : a.credentials? = some (user, password)) (headers : Keyed String)
    (hname : name.toLower = authorization.toLower) :
    (authorized a headers).valuesOf name = [basic user password] := by
  have hgone : (headers.filter fun p => p.1.toLower ≠ authorization.toLower).filter
      (fun p => p.1.toLower = authorization.toLower) = [] := by
    rw [List.filter_filter]
    exact List.filter_eq_nil_iff.mpr fun p _ => by simp
  rw [authorized, h]
  show ((_ ++ _ : Keyed String).filter _).map _ = _
  rw [List.filter_append, hname, hgone]
  simp

/-- A user changes no other header. -/
theorem valuesOf_authorized_other (a : Address) (headers : Keyed String)
    (hname : name.toLower ≠ authorization.toLower) :
    (authorized a headers).valuesOf name = headers.valuesOf name := by
  have hkept : (headers.filter fun p => p.1.toLower ≠ authorization.toLower).filter
      (fun p => p.1.toLower = name.toLower) =
        headers.filter fun p => p.1.toLower = name.toLower := by
    rw [List.filter_filter]
    refine List.filter_congr fun p _ => ?_
    by_cases hp : p.1.toLower = name.toLower <;> simp [hp, hname]
  rw [authorized]
  split
  · show ((_ ++ _ : Keyed String).filter _).map _ = _
    rw [List.filter_append, hkept]
    simp [Ne.symm hname, Keyed.valuesOf]
  · rfl

/-- The headers that are sent. -/
theorem headers_of_httpRequest (sent : c.httpRequest r = .ok req) :
    req.headers = authorized req.address (c.requestHeaders r) := by
  unfold httpRequest at sent
  obtain ⟨read, -, sent⟩ := Outcome.bind_eq_ok_iff.mp sent
  obtain ⟨anchored, -, sent⟩ := Outcome.bind_eq_ok_iff.mp sent
  dsimp only at sent
  split at sent
  · cases sent
  generalize (if (decide (c.requestMethod r = "GET") || r.body.isNull) = true then none
    else some r.body) = body at sent
  -- with a query of the call's own or not, the headers are those of the address that comes of it
  split at sent
  all_goals
    obtain ⟨address, -, sent⟩ := Outcome.bind_eq_ok_iff.mp sent
    split at sent
    · cases sent
    split at sent
    · cases sent
    · cases sent
      rfl

/-- In every request that is sent, a header has one value for each spelling of its name, unless the user
of the address replaces it; and it has just the value that is meant for it exactly if there are no two
spellings. -/
theorem values_sent (hc : c.headers.keys.Nodup) (hr : r.headers.keys.Nodup)
    (sent : c.httpRequest r = .ok req) (name : String) :
    (∀ user password, req.address.credentials? = some (user, password) →
      name.toLower = authorization.toLower → req.valuesOf name = [basic user password]) ∧
    (req.address.credentials? = none ∨ name.toLower ≠ authorization.toLower →
      (∃ spellings : List String, spellings.Nodup ∧
        (∀ s, s ∈ spellings ↔ c.IsSpelling r name s) ∧
        List.Forall₂ (fun s value => c.spelled? r s = some value) spellings (req.valuesOf name)) ∧
      (req.valuesOf name = (c.intended? r name).toList ↔
        ∀ s s', c.IsSpelling r name s → c.IsSpelling r name s' → s = s')) := by
  have hheaders := headers_of_httpRequest sent
  constructor
  case left =>
    intro user password hcredentials hname
    rw [HttpRequest.valuesOf, hheaders]
    exact valuesOf_authorized_same hcredentials _ hname
  case right =>
    intro hfree
    have hvalues : req.valuesOf name = (c.requestHeaders r).valuesOf name := by
      rw [HttpRequest.valuesOf, hheaders]
      by_cases hname : name.toLower = authorization.toLower
      · rw [authorized, hfree.resolve_right (not_not.mpr hname)]
      · exact valuesOf_authorized_other _ _ hname
    have hkeys := nodup_keys_requestHeaders hc r
    rw [hvalues]
    let spellings := (c.requestHeaders r).keys.filter fun s => s.toLower = name.toLower
    refine ⟨⟨spellings, hkeys.filter _, fun s => ?_, ?_⟩, valuesOf_requestHeaders_iff hc hr name⟩
    · rw [List.mem_filter, decide_eq_true_iff]
      exact mem_keys_requestHeaders hr
    · simpa only [get?_requestHeaders hr] using Keyed.forall₂_valuesOf hkeys name

/-- A request without a body to a host with a plain name. -/
theorem httpRequest_eq_ok {address : Address} (hbody : r.body = .null)
    (hread : Address.read (c.addressText r.path) = .ok address)
    (hanchored : address.anchored = .ok address)
    (hplain : (c.requestHeaders r).all (fun p => isPlain p.1 && isPlain p.2) = true)
    (hhost : Host.isPlain address.host = true ∧
      ['x', 'n', '-', '-'].isPrefixOf address.host = false) :
    c.httpRequest r = .ok {
      method := c.requestMethod r
      address
      headers := authorized address (c.requestHeaders r)
      body := none } := by
  have hfault : hostFault? address (c.requestHeaders r) = none := by
    rw [hostFault?, hhost.1, hhost.2]
    split <;> rfl
  have hstart : orRefused (Address.read (c.addressText r.path)) = .ok address := by
    rw [hread]
    rfl
  have hplace : orRefused address.anchored = .ok address := by
    rw [hanchored]
    rfl
  refine Outcome.bind_eq_ok_iff.mpr ⟨address, hstart, Outcome.bind_eq_ok_iff.mpr
    ⟨address, hplace, ?_⟩⟩
  simp only [hplain, hbody, Value.isNull]
  simp only [Bool.not_true, Bool.false_eq_true, if_false, Bool.or_true, if_true, Option.any_none]
  rw [pure_bind]
  split
  · rename_i heq
    rw [hfault] at heq
    cases heq
  · rfl

/-- A connection with headers and a token. -/
def tokened (baseUrl : String) (headers : Keyed String) : RestConnection :=
  { baseUrl, headers, authToken := some "token" }

/-- A call that asks for headers. -/
def calling (headers : Keyed String) : RestRequest := { headers }

/-- A host with a short name, as its user sees it. -/
def hostOf (user : List Char) : Address :=
  { scheme := ['h', 't', 't', 'p'], user, host := ['a', 'p', 'i'] }

/-- The call's header is sent, not the connection's. -/
theorem tokened_sent : ∃ req,
    (tokened "http://api" [("X-Key", "own")]).httpRequest (calling [("X-Key", "asked")]) = .ok req ∧
      req.valuesOf "x-key" = ["asked"] := by
  have hread : Address.read ((tokened "http://api" [("X-Key", "own")]).addressText
      (calling [("X-Key", "asked")]).path) = .ok (hostOf []) := by rfl
  have hsent := httpRequest_eq_ok rfl hread rfl (by decide) (by decide)
  have honly : ∀ s, IsSpelling (tokened "http://api" [("X-Key", "own")])
      (calling [("X-Key", "asked")]) "x-key" s → s = "X-Key" := by
    rintro s ⟨hname, hasked | hown | ⟨rfl, -⟩⟩
    · exact List.mem_singleton.mp hasked
    · exact List.mem_singleton.mp hown
    · exact absurd (toLower_eq_iff.mp hname) (by decide)
  have hvalues := (values_sent (by decide) (by decide) hsent "x-key").2 (.inl (by decide))
  rw [intended?_of_only (by decide) (by decide) (toLower_eq_iff.mpr (by decide)) honly] at hvalues
  exact ⟨_, hsent, hvalues.2.mpr fun s s' hs hs' => (honly s hs).trans (honly s' hs').symm⟩

/-- A token joins an authorization in small letters, a header of a call joins one of its connection in
other letters, and the user of an address replaces the authorization that a call asks for. -/
theorem tokened_joined :
    (∃ req, (tokened "http://api" [("authorization", "own")]).httpRequest (calling []) = .ok req ∧
      req.valuesOf "Authorization" = ["own", "Bearer token"]) ∧
    (∃ req, (tokened "http://api" [("X-Key", "own")]).httpRequest
        (calling [("x-key", "asked")]) = .ok req ∧
      req.valuesOf "X-Key" = ["own", "asked"]) ∧
    ∃ req, (tokened "http://me@api" []).httpRequest
        (calling [("Authorization", "asked")]) = .ok req ∧
      req.valuesOf "Authorization" = ["Basic bWU6"] := by
  have hhost : ∀ user, Host.isPlain (hostOf user).host = true ∧
      ['x', 'n', '-', '-'].isPrefixOf (hostOf user).host = false := fun _ => ⟨rfl, rfl⟩
  refine ⟨⟨_, httpRequest_eq_ok rfl (by rfl) rfl (by decide) (hhost []), ?_⟩,
    ⟨_, httpRequest_eq_ok rfl (by rfl) rfl (by decide) (hhost []), ?_⟩,
    ⟨_, httpRequest_eq_ok rfl (by rfl) rfl (by decide) (hhost ['m', 'e']), ?_⟩⟩
  · show Keyed.valuesOf _ [("authorization", "own"), ("Authorization", "Bearer token")] = _
    simp [Keyed.valuesOf, toLower_eq_iff]
  · show Keyed.valuesOf _
      [("X-Key", "own"), ("x-key", "asked"), ("Authorization", "Bearer token")] = _
    simp [Keyed.valuesOf, toLower_eq_iff]
  · have hcredentials : (hostOf ['m', 'e']).credentials? = some ("me", "") := by decide
    exact valuesOf_authorized_same hcredentials _ rfl

end RestConnection
end Conveyor
