import AgentOAuth.Model.Value
import Mathlib.Data.Finset.Basic

/-!
# Registered clients and settings

The records of `src/models.py` and `src/config.py`.  Both classes validate
themselves when they are built, so here the checks of `__post_init__` are
fields: a record that fails one cannot exist.
-/

namespace AgentOAuth

/-- The two values `clients.status` may hold. -/
inductive ClientStatus
  | active
  | suspended
  deriving DecidableEq

/-- A stored client. -/
structure RegisteredClient where
  clientId : String
  subject : String
  allowedScopes : Finset String := ∅
  allowedAudiences : Finset String := ∅
  status : ClientStatus := .active
  secretHash : Option String := none
  authMethod : String := "client_secret_post"
  tenant : String := "default"
  clientId_ne : clientId ≠ ""
  subject_ne : subject ≠ ""
  deriving DecidableEq

/-- One public key a client may sign a client assertion with. -/
structure ClientKey where
  clientId : String
  kid : String
  publicJwk : Dict

/-- The values that define the server's security boundary. -/
structure Settings where
  issuer : String
  resourceAudience : String
  accessTokenTtlSeconds : ℤ := 600
  maxDelegationDepth : ℤ := 3
  issuer_ne : issuer ≠ ""
  issuer_no_trailing_slash : issuer.toList.getLast? ≠ some '/'
  resourceAudience_ne : resourceAudience ≠ ""
  maxDelegationDepth_mem : 1 ≤ maxDelegationDepth ∧ maxDelegationDepth ≤ 10
  accessTokenTtlSeconds_mem : 1 ≤ accessTokenTtlSeconds ∧ accessTokenTtlSeconds ≤ 3600

/-- `Settings.url_for(path)`. -/
def Settings.urlFor (settings : Settings) (path : String) : String :=
  settings.issuer ++ path

end AgentOAuth
