import Mathlib.Data.List.DropRight
import SbEasy.Utf8

/-!
Configuration texts: lines with comments, section headers and assignments.

A text that is put together line by line parses as what it is meant to say exactly if every
line does.
-/

namespace SbEasy.Ini

def strip (s : Bytes) : Bytes := (s.dropWhile isSpace).rdropWhile isSpace

/-- A line without its comment. -/
def cut (line : Bytes) : Bytes := line.takeWhile (· != 0x23)

def lines : Bytes → List Bytes
  | [] => [[]]
  | c :: s => if c = 0x0A then [] :: lines s else (lines s).modifyHead (c :: ·)

inductive Token
  | header (name : Bytes)
  | entry (key value : Bytes)
  | bad
  deriving DecidableEq

/-- What a line says, if it says anything. -/
def token (line : Bytes) : Option Token :=
  let text := cut line
  let bare := strip text
  if bare = [] then none
  else if bare.head? = some 0x5B ∧ bare.getLast? = some 0x5D then
    some (.header bare.tail.dropLast)
  else if 0x3D ∈ text then
    some (.entry (strip (text.takeWhile (· != 0x3D))) (strip (text.dropWhile (· != 0x3D)).tail))
  else some .bad

def tokens (text : Bytes) : List Token := (lines text).filterMap token

structure Section where
  name : Bytes
  entries : List (Bytes × Bytes)
  deriving DecidableEq

/-- The sections, and the assignments in front of the first one. -/
def group : List Token → Option (List (Bytes × Bytes) × List Section)
  | [] => some ([], [])
  | .header name :: ts => (group ts).map fun p => ([], ⟨name, p.1⟩ :: p.2)
  | .entry key value :: ts => (group ts).map fun p => ((key, value) :: p.1, p.2)
  | .bad :: _ => none

/-- A text is well formed if every line is, and every assignment is in a section. -/
def parse (text : Bytes) : Option (List Section) :=
  match group (tokens text) with
  | some ([], sections) => some sections
  | _ => none

def Section.tokens (s : Section) : List Token :=
  .header s.name :: s.entries.map fun p => .entry p.1 p.2

lemma group_eq_some {ts : List Token} {es : List (Bytes × Bytes)} {ss : List Section} :
    group ts = some (es, ss) ↔
      ts = es.map (fun p => .entry p.1 p.2) ++ ss.flatMap Section.tokens := by
  induction ts generalizing es ss with
  | nil => cases es <;> cases ss <;> simp [group, Section.tokens]
  | cons t ts ih =>
    cases t with
    | header name =>
      simp only [group, Option.map_eq_some_iff, Prod.exists, Prod.mk.injEq, ih]
      constructor
      · rintro ⟨es', ss', rfl, rfl, rfl⟩
        simp [Section.tokens]
      · intro h
        cases es with
        | cons e es => simp at h
        | nil =>
          cases ss with
          | nil => simp at h
          | cons s ss =>
            simp only [List.map_nil, List.nil_append, List.flatMap_cons, Section.tokens,
              List.cons_append, List.cons.injEq, Token.header.injEq] at h
            exact ⟨s.entries, ss, h.2, rfl, by rw [h.1]⟩
    | entry key value =>
      simp only [group, Option.map_eq_some_iff, Prod.exists, Prod.mk.injEq, ih]
      constructor
      · rintro ⟨es', ss', rfl, rfl, rfl⟩
        simp
      · intro h
        cases es with
        | nil => cases ss <;> simp [Section.tokens] at h
        | cons e es =>
          simp only [List.map_cons, List.cons_append, List.cons.injEq, Token.entry.injEq] at h
          exact ⟨es, ss, h.2, by rw [h.1.1, h.1.2], rfl⟩
    | bad =>
      cases es <;> cases ss <;> simp [group, Section.tokens]

lemma parse_eq_some {text : Bytes} {ss : List Section} :
    parse text = some ss ↔ tokens text = ss.flatMap Section.tokens := by
  have h : group (tokens text) = some ([], ss) ↔ tokens text = ss.flatMap Section.tokens :=
    group_eq_some
  rw [← h, parse]
  split
  · rename_i sections hg
    rw [hg, Option.some.injEq, Option.some.injEq, Prod.mk.injEq]
    exact (and_iff_right rfl).symm
  · rename_i hne
    exact ⟨fun h => (by cases h), fun h => absurd h (hne ss)⟩

lemma lines_ne_nil (s : Bytes) : lines s ≠ [] := by
  induction s with
  | nil => simp [lines]
  | cons c s ih =>
    rw [lines]
    split_ifs
    · simp
    · simpa using ih

lemma lines_append (a b : Bytes) : lines (a ++ 0x0A :: b) = lines a ++ lines b := by
  induction a with
  | nil => simp [lines]
  | cons c a ih =>
    rw [List.cons_append, lines, lines, ih]
    split_ifs
    · rfl
    · cases h : lines a with
      | nil => exact absurd h (lines_ne_nil a)
      | cons l ls => rfl

lemma lines_of_not_mem {s : Bytes} (h : 0x0A ∉ s) : lines s = [s] := by
  induction s with
  | nil => rfl
  | cons c s ih =>
    simp only [List.mem_cons, not_or] at h
    rw [lines, if_neg (Ne.symm h.1), ih h.2, List.modifyHead_cons]

lemma lines_prepend {a : Bytes} (h : 0x0A ∉ a) (s : Bytes) :
    lines (a ++ s) = (lines s).modifyHead (a ++ ·) := by
  induction a with
  | nil =>
    rw [List.nil_append]
    cases lines s <;> rfl
  | cons c a ih =>
    simp only [List.mem_cons, not_or] at h
    rw [List.cons_append, lines, if_neg (Ne.symm h.1), ih h.2]
    cases lines s <;> rfl

variable {ls : List Bytes}

lemma lines_head_starts {s l : Bytes} (h : lines s = l :: ls) : l <+: s := by
  induction s generalizing l ls with
  | nil =>
    cases h
    exact List.prefix_rfl
  | cons c s ih =>
    rw [lines] at h
    split_ifs at h
    · cases h
      exact List.nil_prefix
    · cases hs : lines s with
      | nil => exact absurd hs (lines_ne_nil s)
      | cons l' ls' =>
        rw [hs, List.modifyHead_cons] at h
        cases h
        exact List.cons_prefix_cons.mpr ⟨rfl, ih hs⟩

lemma not_mem_of_head {s : Bytes} (h : lines s = s :: ls) : 0x0A ∉ s := by
  induction s generalizing ls with
  | nil => simp
  | cons c s ih =>
    rw [lines] at h
    split_ifs at h with hc
    · cases h
    · cases hs : lines s with
      | nil => exact absurd hs (lines_ne_nil s)
      | cons l' ls' =>
        rw [hs, List.modifyHead_cons] at h
        simp only [List.cons.injEq, true_and] at h
        rw [h.1] at hs
        simpa [Ne.symm hc] using ih hs

lemma tokens_append (a b : Bytes) : tokens (a ++ 0x0A :: b) = tokens a ++ tokens b := by
  rw [tokens, lines_append, List.filterMap_append]
  rfl

@[simp] lemma tokens_nil : tokens [] = [] := rfl

/-- A text that a line holds as it is. -/
structure Plain (v : Bytes) : Prop where
  newline : 0x0A ∉ v
  hash : 0x23 ∉ v
  strip : strip v = v

lemma cut_append {a : Bytes} (h : 0x23 ∉ a) (l : Bytes) : cut (a ++ l) = a ++ cut l := by
  refine List.takeWhile_append_of_pos fun c hc => ?_
  simpa using fun he : c = 0x23 => h (he ▸ hc)

lemma cut_starts (l : Bytes) : cut l <+: l := List.takeWhile_prefix _

lemma cut_eq_self {l : Bytes} (h : 0x23 ∉ l) : cut l = l := by
  have h1 := cut_append h []
  rwa [List.append_nil, cut, cut, List.takeWhile_nil, List.append_nil] at h1

lemma length_strip_le (s : Bytes) : (strip s).length ≤ s.length :=
  (List.rdropWhile_prefix _ _).length_le.trans (List.dropWhile_suffix _).length_le

lemma strip_cons_blank {c : UInt8} (h : isSpace c = true) (s : Bytes) : strip (c :: s) = strip s := by
  rw [strip, strip, List.dropWhile_cons_of_pos h]

/-- What is read of a value is the value exactly if the value is plain. -/
lemma plain_iff {v l : Bytes} (h : lines v = l :: ls) : strip (cut l) = v ↔ Plain v := by
  constructor
  · intro he
    have h1 := (lines_head_starts h).length_le
    have h2 := (cut_starts l).length_le
    have h3 := length_strip_le (cut l)
    rw [he] at h3
    have hl : l = v := (lines_head_starts h).eq_of_length (by omega)
    subst hl
    have hcut : cut l = l := (cut_starts l).eq_of_length (by omega)
    have hhash : 0x23 ∉ l := by
      intro hmem
      rw [← hcut] at hmem
      simpa using List.mem_takeWhile_imp hmem
    rw [hcut] at he
    exact ⟨not_mem_of_head h, hhash, he⟩
  · intro hv
    rw [lines_of_not_mem hv.newline] at h
    cases h
    rw [cut_eq_self hv.hash, hv.strip]

lemma Plain.of_nonblank {v : Bytes} (h : ∀ c ∈ v, isSpace c = false ∧ c ≠ 0x23) : Plain v := by
  refine ⟨fun hmem => ?_, fun hmem => (h _ hmem).2 rfl, ?_⟩
  · exact absurd (h _ hmem).1 (by decide)
  · have hdrop : v.dropWhile isSpace = v := by
      cases v with
      | nil => rfl
      | cons c v => exact List.dropWhile_cons_of_neg (by simp [(h c (by simp)).1])
    rw [Ini.strip, hdrop, List.rdropWhile_eq_self_iff]
    intro hne
    simp [(h _ (List.getLast_mem hne)).1]

/-! ### Lines that are put together -/

inductive Line
  | empty
  | comment (text : Bytes)
  | header (name : Bytes)
  | entry (key value : Bytes)

def Line.text : Line → Bytes
  | .empty => []
  | .comment text => 0x23 :: text
  | .header name => 0x5B :: name ++ [0x5D]
  | .entry key value => key ++ lit " = " ++ value

/-- What a line is meant to say. -/
def Line.tokens : Line → List Token
  | .empty => []
  | .comment _ => []
  | .header name => [.header name]
  | .entry key value => [.entry key value]

/-- A word that can stand in front of a value. -/
structure Keyword (k : Bytes) : Prop where
  ne_nil : k ≠ []
  newline : 0x0A ∉ k
  hash : 0x23 ∉ k
  equals : 0x3D ∉ k
  bracket : k.head? ≠ some 0x5B
  first : ∀ c ∈ k.head?, isSpace c = false
  last : strip (k ++ [0x20]) = k

/-- A name that can stand in a header. -/
structure Name (n : Bytes) : Prop where
  newline : 0x0A ∉ n
  token : token (0x5B :: n ++ [0x5D]) = some (.header n)

/-- The parts of a line that do not vary are well formed. -/
def Line.Fixed : Line → Prop
  | .header name => Name name
  | .entry key _ => Keyword key
  | _ => True

/-- A line says what it is meant to say: a comment ends with its line or goes on in comments and
blank lines, and a value is plain. -/
def Line.Sound : Line → Prop
  | .comment text => ∀ l ∈ (lines text).tail, token l = none
  | .entry _ value => Plain value
  | _ => True

lemma token_entry {k : Bytes} (hk : Keyword k) (l : Bytes) :
    token (k ++ lit " = " ++ l) = some (.entry k (strip (cut l))) := by
  obtain ⟨c, k', rfl⟩ := List.exists_cons_of_ne_nil hk.ne_nil
  have hc : isSpace c = false := hk.first c rfl
  have hcut : cut (c :: k' ++ lit " = " ++ l) = c :: k' ++ lit " = " ++ cut l := by
    refine cut_append ?_ l
    rw [List.mem_append, not_or]
    exact ⟨hk.hash, by decide⟩
  have htext : c :: k' ++ lit " = " ++ cut l = (c :: k' ++ [0x20]) ++ 0x3D :: 0x20 :: cut l := by
    simp [lit]
  have hne : ∀ x ∈ c :: k' ++ [0x20], (x != 0x3D) = true := by
    intro x hx
    rcases List.mem_append.mp hx with hx | hx
    · simpa using fun he : x = 0x3D => hk.equals (he ▸ hx)
    · rw [List.mem_singleton.mp hx]
      decide
  -- The text begins with the keyword, so it is neither blank nor a header.
  have hbare : ∃ rest, strip (c :: k' ++ lit " = " ++ cut l) = c :: rest := by
    rw [strip, List.cons_append, List.cons_append, List.dropWhile_cons_of_neg (by simp [hc])]
    generalize k' ++ lit " = " ++ cut l = s
    cases hs : (c :: s).rdropWhile isSpace with
    | nil =>
      rw [List.rdropWhile_eq_nil_iff] at hs
      exact absurd (hs c (by simp)) (by simp [hc])
    | cons d rest =>
      have hpre : d :: rest <+: c :: s := hs ▸ List.rdropWhile_prefix _ _
      rw [(List.cons_prefix_cons.mp hpre).1]
      exact ⟨rest, rfl⟩
  obtain ⟨rest, hbare⟩ := hbare
  have hhead : (c :: rest).head? ≠ some 0x5B := hk.bracket
  unfold token
  simp only [hcut, hbare]
  rw [if_neg (by simp), if_neg (fun h => hhead h.1), if_pos (by simp [lit]), htext,
    List.takeWhile_append_of_pos hne, List.dropWhile_append_of_pos hne,
    List.takeWhile_cons_of_neg (by simp), List.dropWhile_cons_of_neg (by simp), List.append_nil,
    hk.last, List.tail_cons, strip_cons_blank (by decide)]

lemma tokens_entry {k : Bytes} (hk : Keyword k) {v l : Bytes} (h : lines v = l :: ls) :
    tokens (Line.entry k v).text = .entry k (strip (cut l)) :: ls.filterMap token := by
  have hpre : 0x0A ∉ k ++ lit " = " := by
    rw [List.mem_append, not_or]
    exact ⟨hk.newline, by decide⟩
  rw [Line.text, tokens, lines_prepend hpre, h, List.modifyHead_cons, List.filterMap_cons,
    token_entry hk]

lemma tokens_comment {t l : Bytes} (h : lines t = l :: ls) :
    tokens (Line.comment t).text = ls.filterMap token := by
  have hnone : token (0x23 :: l) = none := by
    rw [token, cut, List.takeWhile_cons_of_neg (by simp)]
    rfl
  rw [Line.text, tokens, lines, if_neg (by decide), h, List.modifyHead_cons, List.filterMap_cons,
    hnone]

lemma tokens_header {n : Bytes} (hn : Name n) : tokens (Line.header n).text = [.header n] := by
  have hnl : 0x0A ∉ 0x5B :: n ++ [0x5D] := by
    simpa using hn.newline
  rw [Line.text, tokens, lines_of_not_mem hnl, List.filterMap_cons, hn.token, List.filterMap_nil]

lemma Line.tokens_text_iff {l : Line} (h : l.Fixed) : Ini.tokens l.text = l.tokens ↔ l.Sound := by
  cases l with
  | empty => simp [Line.text, Line.tokens, Line.Sound]
  | comment t =>
    obtain ⟨l, ls, hl⟩ := List.exists_cons_of_ne_nil (lines_ne_nil t)
    rw [tokens_comment hl, Line.tokens, List.filterMap_eq_nil_iff, Line.Sound, hl, List.tail_cons]
  | header n => simp [tokens_header h, Line.tokens, Line.Sound]
  | entry k v =>
    obtain ⟨l, ls, hl⟩ := List.exists_cons_of_ne_nil (lines_ne_nil v)
    rw [tokens_entry h hl, Line.tokens, Line.Sound, ← plain_iff hl]
    simp only [List.cons.injEq, Token.entry.injEq, true_and, and_iff_left_iff_imp]
    intro hv
    -- A value that is read as it is leaves no further lines.
    rw [lines_of_not_mem ((plain_iff hl).mp hv).newline] at hl
    cases hl
    rfl

lemma Line.length_tokens_le {l : Line} (h : l.Fixed) :
    l.tokens.length ≤ (Ini.tokens l.text).length := by
  cases l with
  | empty => simp [Line.tokens]
  | comment t => simp [Line.tokens]
  | header n => rw [tokens_header h, Line.tokens]
  | entry k v =>
    obtain ⟨l, ls, hl⟩ := List.exists_cons_of_ne_nil (lines_ne_nil v)
    rw [tokens_entry h hl, Line.tokens]
    simp

def render (ls : List Line) : Bytes := ls.flatMap fun l => l.text ++ [0x0A]

lemma render_append (ls ms : List Line) : render (ls ++ ms) = render ls ++ render ms :=
  List.flatMap_append

lemma tokens_render (ls : List Line) : tokens (render ls) = ls.flatMap fun l => tokens l.text := by
  induction ls with
  | nil => rfl
  | cons l ls ih =>
    rw [render, List.flatMap_cons, List.append_assoc, List.singleton_append, tokens_append,
      List.flatMap_cons, ← ih]
    rfl

/-- Pieces that are not shorter than they are meant to be say together what they are meant to
say only if each does. -/
lemma flatMap_eq_iff {α β : Type*} {l : List α} {f g : α → List β}
    (h : ∀ x ∈ l, (g x).length ≤ (f x).length) :
    l.flatMap f = l.flatMap g ↔ ∀ x ∈ l, f x = g x := by
  induction l with
  | nil => simp
  | cons x l ih =>
    have hx := h x (by simp)
    have hl : ∀ y ∈ l, (g y).length ≤ (f y).length := fun y hy => h y (by simp [hy])
    have hrest : (l.flatMap g).length ≤ (l.flatMap f).length := by
      rw [List.length_flatMap, List.length_flatMap]
      exact List.sum_le_sum hl
    rw [List.flatMap_cons, List.flatMap_cons, List.forall_mem_cons, ← ih hl]
    constructor
    · intro he
      have hlength := congrArg List.length he
      rw [List.length_append, List.length_append] at hlength
      exact List.append_inj he (by omega)
    · rintro ⟨h1, h2⟩
      rw [h1, h2]

/-- **A rendered text parses as it is meant exactly if every line is sound.** -/
theorem parse_render_iff {ls : List Line} {ss : List Section} (hfixed : ∀ l ∈ ls, l.Fixed)
    (hmeant : ls.flatMap Line.tokens = ss.flatMap Section.tokens) :
    parse (render ls) = some ss ↔ ∀ l ∈ ls, l.Sound := by
  rw [parse_eq_some, tokens_render, ← hmeant,
    flatMap_eq_iff fun l hl => Line.length_tokens_le (hfixed l hl)]
  exact forall₂_congr fun l hl => Line.tokens_text_iff (hfixed l hl)

end SbEasy.Ini
