import Conveyor.Keyed

/-!
# The vault

Master secrets of applications. A secret is shown once, when it is issued or rotated; the vault
keeps only a salt and what a key derivation makes of the secret with it. The derivation is a
parameter. Of what the vault may tell anyone, only the version is here: the application is the one
that it is asked about, and nothing is decided by the time of issue.
-/

namespace Conveyor

/-- From a salt and a secret to a digest. -/
abbrev KeyDerivation := String → String → String

/-- What the vault keeps of a secret. -/
structure StoredSecret where
  version : Nat
  salt : String
  digest : String

/-- A secret as it is shown once. -/
structure IssuedSecret where
  application : String
  version : Nat
  plaintext : String

/-- The application already has a secret. -/
structure SecretAlreadyIssued where
  application : String

def SecretAlreadyIssued.message (e : SecretAlreadyIssued) : String :=
  s!"secret for '{e.application}' was already issued"

/-- The stored secrets of applications. -/
structure Vault where
  stored : Keyed StoredSecret := []

namespace Vault

variable (derive : KeyDerivation)

/-- Keep a secret under a version and show it. -/
def store (v : Vault) (application salt plaintext : String) (version : Nat) :
    IssuedSecret × Vault :=
  (⟨application, version, plaintext⟩,
    ⟨v.stored.put application ⟨version, salt, derive salt plaintext⟩⟩)

/-- The first secret of an application. -/
def issue (v : Vault) (application salt plaintext : String) :
    Except SecretAlreadyIssued (IssuedSecret × Vault) :=
  if v.stored.has application then .error ⟨application⟩
  else .ok (v.store derive application salt plaintext 1)

/-- A new secret in the place of the last one. -/
def rotate (v : Vault) (application salt plaintext : String) : IssuedSecret × Vault :=
  let version := match v.stored.get? application with
    | some s => s.version + 1
    | none => 1
  v.store derive application salt plaintext version

/-- Whether a candidate is the application's current secret. -/
def verify (v : Vault) (application candidate : String) : Bool :=
  match v.stored.get? application with
  | some s => derive s.salt candidate = s.digest
  | none => false

/-- The version of an application's secret, which is told to anyone. -/
def version? (v : Vault) (application : String) : Option Nat :=
  (v.stored.get? application).map (·.version)

end Vault
end Conveyor
