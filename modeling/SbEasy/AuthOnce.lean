import SbEasy.AuthCodes

/-!
One-time codes: what holds in every run of calls, from every state of the tables.
-/

namespace SbEasy.Auth

variable [Platform] [Crypto] {s : Security} {w : Clocked Db} {cs : List Call}

variable {l₁ l₂ : List Attempt}

variable {x y : Attempt} {l₃ : List Attempt}

def sampleFailure : Err := ⟨.generic, "database or disk is full"⟩

def exampleSecurity : Security := ⟨lit "k", false⟩

/-- A user with an enabled secret and one recovery code. -/
def exampleWorld : Clocked Db where
  db :=
    { users := [⟨lit "u", lit "u", lit "admin"⟩]
      sessions := []
      mfa := [
        { userId := lit "u"
          secretEnc := (@encrypt .sample exampleSecurity (mfaPurpose (lit "u")) (lit "ABCDEFGHABCDEFGH")
            (List.replicate 12 7)).toOption }]
      recovery := [⟨lit "u", @recoveryHash .sample exampleSecurity (lit "u") (lit "rescue"), none⟩]
      challenges := [] }
  now := 90

/-- A time code, the same again, the recovery code twice, and wrong codes; one call cannot read the
row. -/
def exampleCalls : List Call :=
  [.mfaVerify (lit "u") (lit "000000") 0, .mfaVerify (lit "u") (lit "000000") 0,
    .mfaVerify (lit "u") (lit "rescue") 0 (some (.select, sampleFailure)),
    .mfaVerify (lit "u") (lit "rescue") 0, .mfaVerify (lit "u") (lit "rescue") 0] ++
  List.replicate 5 (.mfaVerify (lit "u") (lit "wrong") 0)

end SbEasy.Auth
