import SbEasy.AuthEffects

/-!
No call turns the clock back.
-/

namespace SbEasy.Auth

open Clocked

variable {α : Type} {userId method code raw hashed challenge text role : Bytes}
  {sessionId keepToken clientLabel browserBinding : Option Bytes} {d d₁ d₂ d₃ : ℕ} {fault : Fault}

lemma forward_requiredUserLocked : Forward (requiredUserLocked userId) :=
  forward_query.bind fun _ => forward_require

lemma forward_unlessLater {m : Op α} (hm : Forward m) : Forward (unlessLater fault m) := by
  unfold unlessLater
  split
  · exact forward_throw
  · exact hm

variable [Crypto] {s : Security}

lemma forward_revokeLocked : Forward (revokeLocked s userId sessionId keepToken d) :=
  forward_clock.bind fun _ => forward_update

lemma forward_addRecoveries {raws : List Bytes} : Forward (addRecoveries s userId raws) := by
  induction raws with
  | nil => exact forward_pure
  | cons raw raws ih =>
    refine Forward.bind ?_ fun _ => ih.bind fun _ => forward_pure
    exact forward_query.bind fun _ => forward_require.bind fun _ => forward_update.bind fun _ =>
      forward_pure

lemma forward_enableLocked {raws : Fin 10 → Bytes} {step : ℤ} :
    Forward (enableLocked s userId keepToken raws d step) :=
  forward_update.bind fun _ => forward_update.bind fun _ => forward_addRecoveries.bind fun _ =>
    forward_revokeLocked.bind fun _ => Forward.bind forward_update fun _ => forward_pure

variable [Platform]

lemma forward_issueLocked {mfaCompleted : Bool} :
    Forward (issueLocked s userId method clientLabel mfaCompleted raw d) := by
  refine forward_require.bind fun _ => forward_requiredUserLocked.bind fun _ =>
    forward_query.bind fun user => ?_
  cases user with
  | none => exact forward_throw
  | some user =>
    exact forward_query.bind fun _ => forward_require.bind fun _ => forward_clock.bind fun _ =>
      forward_query.bind fun _ => forward_require.bind fun _ => forward_require.bind fun _ =>
      forward_update.bind fun _ => forward_pure

lemma forward_finishLocked {c : Challenge} :
    Forward (finishLocked s challenge c clientLabel raw d) :=
  forward_update.bind fun _ => forward_issueLocked

end SbEasy.Auth
