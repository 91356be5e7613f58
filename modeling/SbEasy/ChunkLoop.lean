import Mathlib.Tactic

/-!
Loops that read a chunk of a list, write something for it and go on behind it, to another list or in
place, where the writer must not overtake the reader.
-/

namespace SbEasy.ChunkLoop

variable {α β γ : Type*}

/-- One round: what is written for the head of a non-empty list, and how much of it is read. -/
abbrev Round (α β : Type*) := List α → List β × ℕ

/-- Each round reads something. -/
def Advances (f : Round α β) : Prop := ∀ l, l ≠ [] → 0 < (f l).2

def loop (f : Round α β) : ℕ → List α → List β
  | 0, _ => []
  | fuel + 1, l => if l.isEmpty then [] else (f l).1 ++ loop f fuel (l.drop (f l).2)

/-- The loop with fuel for as many rounds as there are elements. -/
def run (f : Round α β) (l : List α) : List β := loop f l.length l

variable {f : Round α β}

lemma Advances.induction (hf : Advances f) {P : List α → Prop} (nil : P [])
    (round : ∀ l, l ≠ [] → P (l.drop (f l).2) → P l) (l : List α) : P l := by
  suffices hn : ∀ n (l : List α), l.length ≤ n → P l from hn _ l le_rfl
  intro n
  induction n with
  | zero =>
    intro l hl
    rw [List.length_eq_zero_iff.mp (Nat.le_zero.mp hl)]
    exact nil
  | succ n ih =>
    intro l hl
    by_cases hnil : l = []
    · rw [hnil]
      exact nil
    · refine round l hnil (ih _ ?_)
      have hpos := hf l hnil
      rw [List.length_drop]
      omega

lemma loop_nil (f : Round α β) (fuel : ℕ) : loop f fuel [] = [] := by
  cases fuel <;> rfl

lemma Advances.loop_eq (hf : Advances f) {fuel : ℕ} {l : List α} (h : l.length ≤ fuel) :
    loop f fuel l = run f l := by
  suffices hn : ∀ n m (l : List α), l.length ≤ n → l.length ≤ m → loop f n l = loop f m l from
    hn _ _ l h le_rfl
  intro n
  induction n with
  | zero =>
    intro m l hl _
    rw [List.length_eq_zero_iff.mp (Nat.le_zero.mp hl), loop_nil, loop_nil]
  | succ n ih =>
    intro m l hn hm
    by_cases hnil : l = []
    · rw [hnil, loop_nil, loop_nil]
    · have hlen : 0 < l.length := List.length_pos_of_ne_nil hnil
      have hpos := hf l hnil
      obtain ⟨m, rfl⟩ := Nat.exists_eq_succ_of_ne_zero (by omega : m ≠ 0)
      have hempty : l.isEmpty = false := by simpa using hnil
      rw [loop, loop, hempty, ih m _ (by rw [List.length_drop]; omega)
        (by rw [List.length_drop]; omega)]

@[simp] lemma run_nil (f : Round α β) : run f [] = [] := rfl

lemma Advances.run_cons (hf : Advances f) {l : List α} (h : l ≠ []) :
    run f l = (f l).1 ++ run f (l.drop (f l).2) := by
  have hlen : 0 < l.length := List.length_pos_of_ne_nil h
  have hpos := hf l h
  have hempty : l.isEmpty = false := by simpa using h
  obtain ⟨n, hn⟩ := Nat.exists_eq_succ_of_ne_zero (by omega : l.length ≠ 0)
  rw [run, hn, loop, hempty]
  simp only [Bool.false_eq_true, if_false]
  rw [hf.loop_eq (by rw [List.length_drop]; omega)]

lemma Advances.run_units (hf : Advances f) {text : γ → List α} {value : γ → List β} {us : List γ}
    (h : ∀ u ∈ us, text u ≠ [] ∧ ∀ rest, f (text u ++ rest) = (value u, (text u).length)) :
    run f (us.flatMap text) = us.flatMap value := by
  induction us with
  | nil => rfl
  | cons u us ih =>
    obtain ⟨hne, hround⟩ := h u (by simp)
    have hne' : text u ++ us.flatMap text ≠ [] := by simp [hne]
    rw [List.flatMap_cons, List.flatMap_cons, hf.run_cons hne', hround, List.drop_left,
      ih fun v hv => h v (by simp [hv])]

lemma Advances.run_flatMap (hf : Advances f) {g : Round α γ} {text : β → List γ}
    (h : ∀ l, l ≠ [] → g l = ((f l).1.flatMap text, (f l).2)) (l : List α) :
    run g l = (run f l).flatMap text := by
  have hg : Advances g := fun l hl => by
    rw [h l hl]
    exact hf l hl
  induction l using hf.induction with
  | nil => rfl
  | round l hl ih => rw [hg.run_cons hl, hf.run_cons hl, h l hl, ih, List.flatMap_append]

lemma Advances.run_forall (hf : Advances f) {P : β → Prop}
    (h : ∀ l, l ≠ [] → ∀ b ∈ (f l).1, P b) (l : List α) : ∀ b ∈ run f l, P b := by
  induction l using hf.induction with
  | nil => simp
  | round l hl ih =>
    rw [hf.run_cons hl]
    intro b hb
    rcases List.mem_append.mp hb with hb | hb
    · exact h l hl b hb
    · exact ih b hb

lemma Advances.run_inverse (hf : Advances f) {value : β → List α}
    (h : ∀ l, l ≠ [] → (f l).1.flatMap value = l.take (f l).2) (l : List α) :
    (run f l).flatMap value = l := by
  induction l using hf.induction with
  | nil => rfl
  | round l hl ih => rw [hf.run_cons hl, List.flatMap_append, ih, h l hl, List.take_append_drop]

/-- Overwrite a part of a list. -/
def writeAt (s : List α) (w : ℕ) (d : List α) : List α := s.take w ++ d ++ s.drop (w + d.length)

/-- The loop that writes into the list it reads: the list, and how much of it is written. -/
def inPlaceLoop (f : Round α α) : ℕ → List α → ℕ → ℕ → List α × ℕ
  | 0, s, _, w => (s, w)
  | fuel + 1, s, r, w =>
    if r < s.length then
      let d := (f (s.drop r)).1
      inPlaceLoop f fuel (writeAt s w d) (r + (f (s.drop r)).2) (w + d.length)
    else (s, w)

def inPlace (f : Round α α) (s : List α) : List α :=
  let result := inPlaceLoop f s.length s 0 0
  result.1.take result.2

/-- No round writes more than it reads, and none reads behind the end. -/
structure Shrinks (f : Round α α) : Prop where
  advances : Advances f
  written : ∀ l, l ≠ [] → (f l).1.length ≤ (f l).2
  read : ∀ l, l ≠ [] → (f l).2 ≤ l.length

section

variable {f : Round α α}

lemma inPlaceLoop_eq (hf : Shrinks f) {fuel : ℕ} {s : List α} {r w : ℕ} (hw : w ≤ r)
    (hfuel : s.length ≤ r + fuel) :
    (inPlaceLoop f fuel s r w).1.take (inPlaceLoop f fuel s r w).2 =
      s.take w ++ loop f fuel (s.drop r) := by
  induction fuel generalizing s r w with
  | zero => simp [inPlaceLoop, loop]
  | succ fuel ih =>
    rw [inPlaceLoop]
    split_ifs with hr
    · have hne : s.drop r ≠ [] := by
        rw [ne_eq, List.drop_eq_nil_iff]
        omega
      have hempty : (s.drop r).isEmpty = false := by simpa using hne
      have hpos := hf.advances _ hne
      have hwritten := hf.written _ hne
      have hread := hf.read _ hne
      rw [List.length_drop] at hread
      dsimp only
      generalize hd : (f (s.drop r)).1 = d at hwritten
      have hlen : (writeAt s w d).length = s.length := by
        simp only [writeAt, List.length_append, List.length_take, List.length_drop]
        omega
      have htake : (writeAt s w d).take (w + d.length) = s.take w ++ d := by
        have hl : (s.take w ++ d).length = w + d.length := by
          rw [List.length_append, List.length_take]
          omega
        rw [writeAt, ← hl, List.take_left]
      -- What is written ends before the place where reading goes on.
      have hdrop : (writeAt s w d).drop (r + (f (s.drop r)).2) =
          (s.drop r).drop (f (s.drop r)).2 := by
        have hl : (s.take w ++ d).length = w + d.length := by
          rw [List.length_append, List.length_take]
          omega
        rw [writeAt, List.drop_append, List.drop_eq_nil_iff.mpr (by omega), List.nil_append, hl,
          List.drop_drop, List.drop_drop]
        congr 1
        omega
      rw [ih (by omega) (by omega), htake, hdrop, loop, hempty, hd]
      simp
    · rw [List.drop_eq_nil_iff.mpr (by omega), loop_nil, List.append_nil]

lemma Shrinks.inPlace_eq (hf : Shrinks f) (s : List α) : inPlace f s = run f s := by
  rw [inPlace, inPlaceLoop_eq hf le_rfl (by omega), List.take_zero, List.nil_append, List.drop_zero,
    run]

lemma Shrinks.length_run_le (hf : Shrinks f) (l : List α) : (run f l).length ≤ l.length := by
  induction l using hf.advances.induction with
  | nil => simp
  | round l hl ih =>
    have hwritten := hf.written l hl
    have hread := hf.read l hl
    rw [List.length_drop] at ih
    rw [hf.advances.run_cons hl, List.length_append]
    omega

end

end SbEasy.ChunkLoop
