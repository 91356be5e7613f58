import SbEasy.Prog

/-!
Programs that run alone, and programs that use the operations of a part of the state.
-/

namespace SbEasy.Prog

variable {S S' Op Op' : Type} {Reply : Op → Type} {Reply' : Op' → Type} {ε α β : Type}

/-- Nobody else acts. -/
def alone (act : (o : Op) → S → Reply o → S → Prop) : Setting S Op Reply where
  act := act
  rely := Eq
  inv _ := True
  guard _ _ := True
  rely_refl _ := rfl
  rely_trans _ _ _ := Eq.trans
  inv_rely _ _ _ _ := trivial

variable {act : (o : Op) → S → Reply o → S → Prop} {act' : (o : Op') → S' → Reply' o → S' → Prop}

lemma stable_alone (P : S → Prop) : (alone act).Stable P := by
  rintro s s' hs rfl
  exact hs

variable {E : ε → S → Prop} {p : Prog Op Reply ε α}

lemma triple_alone {o : Op} {P : S → Prop} {Q : Reply o → S → Prop}
    (h : ∀ s r s', P s → act o s r s' → Q r s') :
    Triple (alone act) P (perform o : Prog Op Reply ε (Reply o)) Q E :=
  triple_perform (stable_alone P) (fun _ _ => ⟨trivial, trivial⟩) h

/-- A run to the end. -/
inductive Runs (act : (o : Op) → S → Reply o → S → Prop) :
    Prog Op Reply ε α → S → Except ε α → S → Prop
  | pure {a : α} {s : S} : Runs act (.pure a) s (.ok a) s
  | throw {e : ε} {s : S} : Runs act (.throw e) s (.error e) s
  | call {o : Op} {k : Reply o → Prog Op Reply ε α} {s s' s'' : S} {r : Reply o} {out : Except ε α}
    (h : act o s r s') (hk : Runs act (k r) s' out s'') : Runs act (.call o k) s out s''

variable {Q : α → S → Prop} {s s' : S} {out : Except ε α}

lemma runs_of_wp (h : wp (alone act) p Q E s) (hrun : Runs act p s out s') :
    (∀ a, out = .ok a → Q a s') ∧ ∀ e, out = .error e → E e s' := by
  induction hrun with
  | pure => exact ⟨fun a ha => Except.ok.inj ha ▸ h, fun e he => nomatch he⟩
  | throw => exact ⟨fun a ha => (nomatch ha), fun e he => Except.error.inj he ▸ h⟩
  | call hact _ ih => exact ih ((h _ rfl).2.2 _ _ hact)

/-- A program over the operations of a part. -/
def inject (f : Op → Op') (g : (o : Op) → Reply' (f o) → Reply o) :
    Prog Op Reply ε α → Prog Op' Reply' ε α
  | .pure a => .pure a
  | .throw e => .throw e
  | .call o k => .call (f o) fun r => (k (g o r)).inject f g

lemma wp_inject {f : Op → Op'} {g : (o : Op) → Reply' (f o) → Reply o} {frame : S → S'}
    (hframe : ∀ o s r w', act' (f o) (frame s) r w' → ∃ s', w' = frame s' ∧ act o s (g o r) s')
    (h : wp (alone act) p Q E s) :
    wp (alone act') (p.inject f g) (fun a w => ∃ s', w = frame s' ∧ Q a s')
      (fun e w => ∃ s', w = frame s' ∧ E e s') (frame s) := by
  induction p generalizing s with
  | pure a => exact ⟨s, rfl, h⟩
  | throw e => exact ⟨s, rfl, h⟩
  | call o k ih =>
    rintro w rfl
    refine ⟨trivial, trivial, fun r w' hact => ?_⟩
    obtain ⟨s', rfl, hs'⟩ := hframe o s r w' hact
    exact ih (g o r) ((h s rfl).2.2 _ _ hs')

/-- A run to the end, said by what the operations meet. -/
def play {χ : Type} (exec : χ → S → (o : Op) → Option (Reply o × S)) :
    List χ → Prog Op Reply ε α → S → Option (Except ε α × S)
  | _, .pure a, s => some (.ok a, s)
  | _, .throw e, s => some (.error e, s)
  | [], .call _ _, _ => none
  | x :: xs, .call o k, s =>
    match exec x s o with
    | some (r, s') => play exec xs (k r) s'
    | none => none

lemma play_sound {χ : Type} {exec : χ → S → (o : Op) → Option (Reply o × S)} {xs : List χ}
    (h : play exec xs p s = some (out, s')) :
    Runs (fun o s r s' => ∃ x, exec x s o = some (r, s')) p s out s' := by
  fun_induction play exec xs p s with
  | case1 =>
    cases h
    exact .pure
  | case2 =>
    cases h
    exact .throw
  | case3 => cases h
  | case4 x xs o k s r s' hexec ih => exact .call ⟨x, hexec⟩ (ih h)
  | case5 => cases h

end SbEasy.Prog
