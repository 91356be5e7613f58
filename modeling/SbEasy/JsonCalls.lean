import SbEasy.JsonArray
import SbEasy.PlaceStore

/-!
Objects as finite maps: programs that call the object functions of `json.c` on values in registers,
and the same programs on values whose objects are functions from keys.
-/

namespace SbEasy

open PlaceStore (Place Step Op Api Store)

/-- What `sbj_null`, `sbj_bool`, `sbj_int`, `sbj_uint`, `sbj_float` and `sbj_strn` make. -/
inductive SbjScalar
  | null
  | bool (b : Bool)
  | int (i : ℤ)
  | uint (u : ℕ)
  | float (bits : UInt64)
  | str (s : Bytes)

def SbjScalar.sbj : SbjScalar → Sbj
  | .null => .null
  | .bool b => .bool b
  | .int i => .int i
  | .uint u => .ofUint u
  | .float f => .float f
  | .str s => .str s

namespace Sbj

mutual
/-- `sbj_clone` -/
def clone : Sbj → Sbj
  | .null => .null
  | .bool b => .bool b
  | .int i => .int i
  | .uint u => .ofUint u
  | .float f => .float f
  | .str s => .str s
  | .arr l => .arr (cloneItems l)
  | .obj m => .obj (cloneMembers m)
def cloneItems : List Sbj → List Sbj
  | [] => []
  | v :: l => v.clone :: cloneItems l
def cloneMembers : List (Bytes × Sbj) → List (Bytes × Sbj)
  | [] => []
  | (k, v) :: m => (k, v.clone) :: cloneMembers m
end

/-- `sbj_update` -/
def update (dst src : Sbj) : Sbj :=
  match dst, src with
  | .obj _, .obj m => m.foldl (fun dst p => dst.set p.1 p.2.clone) dst
  | _, _ => dst

/-- A part of a value, by `sbj_getn` or `sbj_arr_at`. -/
def child (v : Sbj) : Step Bytes → Option Sbj
  | .key k => get (some v) k
  | .item i => (items (some v))[i]?

/-- What a caller does to a part it holds a pointer to. -/
def editChild (s : Step Bytes) (f : Sbj → Sbj) (v : Sbj) : Sbj :=
  match s with
  | .key k => v.modify k f
  | .item i => v.modifyAt i f

end Sbj

/-- The object functions of `json.c`; a text is read by `sbj_parse_strict` or `sbj_parse`. -/
def codeApi [Platform] : Api Bytes SbjScalar (Bool × Bytes) Sbj where
  null := .null
  object := .obj []
  scalar := SbjScalar.sbj
  parse t := (if t.1 then JsonParse.sbjParseStrict t.2 else JsonParse.sbjParse t.2).toOption
  clone := Sbj.clone
  child := Sbj.child
  edit := Sbj.editChild
  set := Sbj.set
  del := Sbj.del
  update := Sbj.update

/-- A call; `sbj_set`, `sbj_take` and `sbj_del` get their key as a C string. -/
inductive SbjCall
  | object (r : ℕ)
  | scalar (r : ℕ) (s : SbjScalar)
  | parse (r : ℕ) (text : Bytes)
  | parseStrict (r : ℕ) (text : Bytes)
  | clone (r : ℕ) (src : Place Bytes)
  | setn (dst : Place Bytes) (key : Bytes) (r : ℕ)
  | set (dst : Place Bytes) (key : Bytes) (r : ℕ)
  | take (r : ℕ) (src : Place Bytes) (key : Bytes)
  | del (src : Place Bytes) (key : Bytes)
  | update (dst src : Place Bytes)

/-- No value is merged with a part of itself. -/
def SbjCall.apart : SbjCall → Bool
  | .update dst src => dst.apart src
  | _ => true

def SbjCall.op : SbjCall → Op Bytes SbjScalar (Bool × Bytes)
  | .object r => .object r
  | .scalar r s => .scalar r s
  | .parse r text => .parse r (false, text)
  | .parseStrict r text => .parse r (true, text)
  | .clone r src => .clone r src
  | .setn dst key r => .set dst key r
  | .set dst key r => .set dst (Sbj.cstr key) r
  | .take r src key => .take r src (Sbj.cstr key)
  | .del src key => .del src (Sbj.cstr key)
  | .update dst src => .update dst src

section

variable [Platform]

/-- `sbj_update` of a part of a value with another one, by the ways down to them. A member is copied
as it is by then; there is no result if the members are freed while they are read. -/
def Sbj.updateParts (dst src : List (Step Bytes)) (v : Sbj) : Option Sbj :=
  match codeApi.at_ v src with
  | none => some v
  | some s =>
    if (members (some s)).any fun p => src.head? == some (.key p.1) then none
    else some ((members (some s)).foldl (fun o p =>
      let value := (codeApi.at_ o (src ++ [.key p.1])).getD .null
      codeApi.editAt (·.set p.1 value.clone) dst o) v)

/-- One call, wherever its places are. -/
def codeStep (st : Store Sbj) : SbjCall → Option (Store Sbj)
  | .update dst src =>
    if dst.apart src then codeApi.step st (.update dst src)
    else
      let outer := if src.path.isPrefixOf dst.path then src else dst
      let inside (p : Place Bytes) := p.path.drop outer.path.length
      match codeApi.find st outer with
      | some v => (v.updateParts (inside dst) (inside src)).map fun v' =>
          codeApi.change st outer fun _ => v'
      | none => some st
  | c => codeApi.step st c.op

def codeRun (calls : List SbjCall) : Option (Store Sbj) := calls.foldlM codeStep fun _ => none

end

/-- A value whose objects are maps; how an integer is stored does not matter. -/
inductive MapValue
  | null
  | bool (b : Bool)
  | int (i : ℤ)
  | float (bits : UInt64)
  | str (s : Bytes)
  | arr (items : List MapValue)
  | obj (lookup : Bytes → Option MapValue)

mutual
/-- The value an `sbj` stands for. -/
def Sbj.toMap : Sbj → MapValue
  | .null => .null
  | .bool b => .bool b
  | .int i => .int i
  | .uint u => .int u
  | .float f => .float f
  | .str s => .str s
  | .arr l => .arr (Sbj.toMapItems l)
  | .obj m => .obj fun k => Sbj.toMapMembers m k
def Sbj.toMapItems : List Sbj → List MapValue
  | [] => []
  | v :: l => v.toMap :: Sbj.toMapItems l
def Sbj.toMapMembers : List (Bytes × Sbj) → Bytes → Option MapValue
  | [], _ => none
  | (k, v) :: m, k' => if k' = k then some v.toMap else Sbj.toMapMembers m k'
end

namespace MapValue

/-- Lookup; what is no object holds nothing. -/
def lookup : Option MapValue → Bytes → Option MapValue
  | some (.obj f), k => f k
  | _, _ => none

def child : MapValue → Step Bytes → Option MapValue
  | .obj f, .key k => f k
  | .arr l, .item i => l[i]?
  | _, _ => none

def editChild (s : Step Bytes) (g : MapValue → MapValue) (v : MapValue) : MapValue :=
  match s, v with
  | .key k, .obj f => .obj (Function.update f k ((f k).map g))
  | .item i, .arr l => .arr (l.modify i g)
  | _, v => v

/-- Set overwrites. -/
def set (o : MapValue) (k : Bytes) (v : MapValue) : MapValue :=
  match o with
  | .obj f => .obj (Function.update f k (some v))
  | o => o

/-- Removal of one key. -/
def del (o : MapValue) (k : Bytes) : MapValue :=
  match o with
  | .obj f => .obj (Function.update f k none)
  | o => o

/-- The right-biased union. -/
def update (dst src : MapValue) : MapValue :=
  match dst, src with
  | .obj f, .obj g => .obj fun k => (g k).or (f k)
  | dst, _ => dst

end MapValue

namespace Rfc8259.Tree

variable [Platform]

mutual
/-- The value of a text, member after member. -/
def flat : Tree → MapValue
  | .null => .null
  | .bool b => .bool b
  | .number s => (JsonParse.numberValue s (isFloat s)).toMap
  | .string s => .str s
  | .array ts => .arr (flatItems ts)
  | .object ms => .obj fun k => flatMembers (fun _ => none) ms k
def flatItems : List Tree → List MapValue
  | [] => []
  | t :: ts => t.flat :: flatItems ts
def flatMembers : (Bytes → Option MapValue) → List (Bytes × Tree) → Bytes → Option MapValue
  | f, [], k => f k
  | f, m :: ms, k => flatMembers (Function.update f m.1 (some m.2.flat)) ms k
end

end Rfc8259.Tree

open Classical in
/-- The same functions on finite maps; a text has the value that the grammar gives it. -/
noncomputable def mapApi [Platform] : Api Bytes SbjScalar (Bool × Bytes) MapValue where
  null := .null
  object := .obj fun _ => none
  scalar s := s.sbj.toMap
  parse t :=
    if h : ∃ tree, Rfc8259.Text tree t.2 ∧ tree.depth ≤ JsonParse.maxDepth ∧
        (t.1 = true → tree.DistinctKeys) then some h.choose.flat
    else none
  clone := id
  child := MapValue.child
  edit := MapValue.editChild
  set := MapValue.set
  del := MapValue.del
  update := MapValue.update

namespace Sbj

variable {m : List (Bytes × Sbj)}

lemma toMapMembers_eq (h : SortedAssoc.Sorted m) (k : Bytes) :
    toMapMembers m k = (SortedAssoc.get m k).map toMap := by
  have hfirst : ∀ l : List (Bytes × Sbj), toMapMembers l k =
      (l.find? fun p => k = p.1).map fun p => p.2.toMap := by
    intro l
    induction l with
    | nil => rfl
    | cons p l ih =>
      obtain ⟨k', v⟩ := p
      rw [toMapMembers, ih, List.find?_cons]
      by_cases hk : k = k'
      · simp [hk]
      · simp [hk]
  rw [hfirst]
  cases hf : m.find? fun p => k = p.1 with
  | none =>
    cases hg : SortedAssoc.get m k with
    | none => rfl
    | some v =>
      have hmem := (SortedAssoc.get_eq_some_iff h).mp hg
      simpa using List.find?_eq_none.mp hf _ hmem
  | some p =>
    obtain ⟨k', v⟩ := p
    have hk : k = k' := by simpa using List.find?_some hf
    subst hk
    rw [(SortedAssoc.get_eq_some_iff h).mpr (List.mem_of_find?_eq_some hf)]
    rfl

lemma toMap_obj (h : SortedAssoc.Sorted m) :
    (Sbj.obj m).toMap = .obj fun k => (SortedAssoc.get m k).map toMap := by
  rw [toMap]
  simp only [toMapMembers_eq h]

lemma toMapItems_eq (l : List Sbj) : toMapItems l = l.map toMap := by
  induction l with
  | nil => rfl
  | cons v l ih => rw [toMapItems, ih, List.map_cons]

lemma toMap_arr (l : List Sbj) : (Sbj.arr l).toMap = .arr (l.map toMap) := by
  rw [toMap, toMapItems_eq]

lemma get_toMap {v : Sbj} (h : v.Ordered) (k : Bytes) :
    (get (some v) k).map toMap = MapValue.lookup (some v.toMap) k := by
  cases v with
  | obj m => rw [toMap_obj h.1]; rfl
  | _ => rw [get_of_not_object rfl]; rfl

lemma toMap_set {o v : Sbj} (h : o.Ordered) (k : Bytes) :
    (o.set k v).toMap = o.toMap.set k v.toMap := by
  cases o with
  | obj m =>
    rw [Sbj.set, toMap_obj (SortedAssoc.sorted_set h.1 v), toMap_obj h.1, MapValue.set]
    congr 1
    funext k'
    by_cases hk : k' = k
    · rw [hk, SortedAssoc.get_set_self h.1, Function.update_self]
      rfl
    · rw [SortedAssoc.get_set_of_ne h.1 v hk, Function.update_of_ne hk]
  | _ => rfl

lemma toMap_del {o : Sbj} (h : o.Ordered) (k : Bytes) : (o.del k).toMap = o.toMap.del k := by
  cases o with
  | obj m =>
    rw [Sbj.del, toMap_obj (SortedAssoc.sorted_del h.1), toMap_obj h.1, MapValue.del]
    congr 1
    funext k'
    by_cases hk : k' = k
    · rw [hk, SortedAssoc.get_del_self h.1, Function.update_self]
      rfl
    · rw [SortedAssoc.get_del_of_ne h.1 hk, Function.update_of_ne hk]
  | _ => rfl

lemma cloneMembers_eq (m : List (Bytes × Sbj)) :
    cloneMembers m = m.map fun p => (p.1, p.2.clone) := by
  induction m with
  | nil => rfl
  | cons p m ih =>
    obtain ⟨k, v⟩ := p
    rw [cloneMembers, ih, List.map_cons]

lemma toMap_ofUint (u : ℕ) : (ofUint u).toMap = .int u := by
  unfold ofUint
  split_ifs <;> rfl

lemma ordered_ofUint (u : ℕ) : (ofUint u).Ordered := by
  unfold ofUint
  split_ifs <;> trivial

mutual
lemma clone_spec (v : Sbj) (h : v.Ordered) : v.clone.Ordered ∧ v.clone.toMap = v.toMap := by
  cases v with
  | uint u => exact ⟨ordered_ofUint u, toMap_ofUint u⟩
  | arr l =>
    have hl := cloneItems_spec l h
    refine ⟨?_, ?_⟩
    · exact hl.1
    · rw [clone, toMap, hl.2, toMap]
  | obj m =>
    have hm := cloneMembers_spec m h.2
    refine ⟨⟨?_, hm.1⟩, ?_⟩
    · rw [cloneMembers_eq]
      exact SortedAssoc.sorted_map _ h.1
    · rw [clone, toMap, toMap]
      simp only [hm.2]
  | _ => exact ⟨trivial, rfl⟩
lemma cloneItems_spec (l : List Sbj) (h : OrderedItems l) :
    OrderedItems (cloneItems l) ∧ toMapItems (cloneItems l) = toMapItems l := by
  match l with
  | [] => exact ⟨trivial, rfl⟩
  | v :: l =>
    have hv := clone_spec v h.1
    have hl := cloneItems_spec l h.2
    exact ⟨⟨hv.1, hl.1⟩, by rw [cloneItems, toMapItems, toMapItems, hv.2, hl.2]⟩
lemma cloneMembers_spec (m : List (Bytes × Sbj)) (h : OrderedMembers m) :
    OrderedMembers (cloneMembers m) ∧
      ∀ k, toMapMembers (cloneMembers m) k = toMapMembers m k := by
  match m with
  | [] => exact ⟨trivial, fun _ => rfl⟩
  | (k, v) :: m =>
    have hv := clone_spec v h.1
    have hm := cloneMembers_spec m h.2
    refine ⟨⟨hv.1, hm.1⟩, fun k' => ?_⟩
    rw [cloneMembers, toMapMembers, toMapMembers, hv.2, hm.2]
end

lemma ordered_foldl_set (hm : ∀ p ∈ m, p.2.Ordered) {dst : Sbj}
    (h : dst.Ordered) : (m.foldl (fun dst p => dst.set p.1 p.2.clone) dst).Ordered := by
  induction m generalizing dst with
  | nil => exact h
  | cons p m ih =>
    refine ih (fun q hq => hm q (List.mem_cons_of_mem _ hq)) ?_
    exact h.set (clone_spec p.2 (hm p List.mem_cons_self)).1 p.1

/-- One `sbj_setn` after the other is the union, since no key comes twice. -/
lemma toMap_foldl_set (hs : SortedAssoc.Sorted m)
    (hm : ∀ p ∈ m, p.2.Ordered) {dst : Sbj} (h : dst.Ordered) :
    (m.foldl (fun dst p => dst.set p.1 p.2.clone) dst).toMap =
      dst.toMap.update (.obj fun k => toMapMembers m k) := by
  induction m generalizing dst with
  | nil =>
    rw [List.foldl_nil]
    cases hd : dst.toMap <;> rfl
  | cons p m ih =>
    obtain ⟨k, v⟩ := p
    have hv := clone_spec v (hm (k, v) List.mem_cons_self)
    have hrest := List.pairwise_cons.mp hs
    rw [List.foldl_cons, ih hrest.2 (fun q hq => hm q (List.mem_cons_of_mem _ hq))
      (h.set hv.1 k), toMap_set h, hv.2]
    -- The key of this member is not among the rest.
    have hfresh : toMapMembers m k = none := by
      rw [toMapMembers_eq hrest.2, Option.map_eq_none_iff]
      refine Option.eq_none_iff_forall_ne_some.mpr fun w hw => ?_
      have hlt := hrest.1 _ ((SortedAssoc.get_eq_some_iff hrest.2).mp hw)
      simp at hlt
    cases hd : dst.toMap with
    | obj f =>
      simp only [MapValue.set, MapValue.update]
      congr 1
      funext k'
      rw [toMapMembers]
      by_cases hk : k' = k
      · rw [hk, hfresh, Function.update_self, if_pos rfl]
        rfl
      · rw [Function.update_of_ne hk, if_neg hk]
    | _ => rfl

lemma update_spec {dst src : Sbj} (h : dst.Ordered) (hs : src.Ordered) :
    (dst.update src).Ordered ∧ (dst.update src).toMap = dst.toMap.update src.toMap := by
  cases dst with
  | obj d =>
    cases src with
    | obj m =>
      have hm := orderedMembers_iff.mp hs.2
      refine ⟨ordered_foldl_set hm h, ?_⟩
      rw [Sbj.update, toMap_foldl_set hs.1 hm h]
      rfl
    | _ => exact ⟨h, rfl⟩
  | _ => exact ⟨h, rfl⟩

lemma child_spec {v : Sbj} (h : v.Ordered) (s : Step Bytes) :
    (v.child s).map toMap = v.toMap.child s ∧ ∀ w, v.child s = some w → w.Ordered := by
  cases s with
  | key k =>
    refine ⟨?_, fun w hw => h.get hw⟩
    rw [child, get_toMap h]
    cases v <;> rfl
  | item i =>
    cases v with
    | arr l =>
      refine ⟨?_, fun w hw => h.items (List.mem_of_getElem? hw)⟩
      rw [toMap_arr, MapValue.child, List.getElem?_map]
      rfl
    | _ => exact ⟨rfl, fun w hw => by simp [child, items] at hw⟩

lemma editChild_spec {f : Sbj → Sbj} {g : MapValue → MapValue}
    (hf : ∀ v : Sbj, v.Ordered → (f v).Ordered ∧ (f v).toMap = g v.toMap) (s : Step Bytes) {v : Sbj}
    (h : v.Ordered) :
    (editChild s f v).Ordered ∧ (editChild s f v).toMap = MapValue.editChild s g v.toMap := by
  cases s with
  | key k =>
    refine ⟨h.modify (fun w hw => (hf w hw).1) k, ?_⟩
    cases v with
    | obj m =>
      have hlookup : (Sbj.obj m).toMap = .obj fun k => (get (some (.obj m)) k).map toMap :=
        toMap_obj h.1
      unfold editChild Sbj.modify
      cases hg : get (some (.obj m)) k with
      | some w =>
        simp only [toMap_set h, (hf w (h.get hg)).2, hlookup, MapValue.set, MapValue.editChild, hg,
          Option.map_some]
      | none =>
        have hsame := Function.update_eq_self k fun k => (get (some (.obj m)) k).map toMap
        simp only [hg, Option.map_none] at hsame
        simp only [hlookup, MapValue.editChild, hg, Option.map_none, hsame]
    | _ => rfl
  | item i =>
    refine ⟨h.modifyAt (fun w hw => (hf w hw).1) i, ?_⟩
    cases v with
    | arr l =>
      rw [editChild, modifyAt, toMap_arr, toMap_arr, MapValue.editChild]
      congr 1
      refine List.ext_getElem? fun j => ?_
      rw [List.getElem?_map, List.getElem?_modify, List.getElem?_modify, List.getElem?_map]
      cases hj : l[j]? with
      | none => rfl
      | some w =>
        have hw := hf w (h.items (List.mem_of_getElem? hj))
        simp only [Option.map_some, Option.map_eq_map]
        split_ifs
        · rw [hw.2]
        · rfl
    | _ => rfl

end Sbj

namespace Rfc8259.Tree

variable [Platform]

mutual
lemma flat_value (t : Tree) : t.value.toMap = t.flat := by
  cases t with
  | array ts =>
    rw [value, Sbj.toMap, flatItems_value ts, flat]
  | object ms =>
    rw [value, Sbj.toMap, flat]
    congr 1
    funext k
    exact flatMembers_value ms .nil k
  | _ => rfl
lemma flatItems_value (ts : List Tree) : Sbj.toMapItems (valueItems ts) = flatItems ts := by
  match ts with
  | [] => rfl
  | t :: ts => rw [valueItems, Sbj.toMapItems, flat_value t, flatItems_value ts, flatItems]
lemma flatMembers_value (ms : List (Bytes × Tree)) {o : List (Bytes × Sbj)}
    (ho : SortedAssoc.Sorted o) (k : Bytes) :
    Sbj.toMapMembers (valueMembers o ms) k = flatMembers (Sbj.toMapMembers o) ms k := by
  match ms with
  | [] => rw [valueMembers, flatMembers]
  | m :: ms =>
    have hset : Sbj.toMapMembers (SortedAssoc.set o m.1 m.2.value) =
        Function.update (Sbj.toMapMembers o) m.1 (some m.2.flat) := by
      funext k'
      rw [Sbj.toMapMembers_eq (SortedAssoc.sorted_set ho _)]
      by_cases hk : k' = m.1
      · rw [hk, SortedAssoc.get_set_self ho, Function.update_self, Option.map_some,
          flat_value m.2]
      · rw [SortedAssoc.get_set_of_ne ho _ hk, Function.update_of_ne hk, Sbj.toMapMembers_eq ho]
    rw [valueMembers, flatMembers, flatMembers_value ms (SortedAssoc.sorted_set ho _), hset]
end

end Rfc8259.Tree

/-! ### Runs -/

section

variable [Platform]

/-- An `sbj` whose keys are in order, and what it stands for. -/
def Stands (v : Sbj) (w : MapValue) : Prop := v.Ordered ∧ v.toMap = w

lemma parse_stands (t : Bool × Bytes) :
    Option.Rel Stands (codeApi.parse t) (mapApi.parse t) := by
  obtain ⟨strict, text⟩ := t
  have hiff : ∀ v, (if strict then JsonParse.sbjParseStrict text else JsonParse.sbjParse text) =
      .ok v ↔ ∃ tree, Rfc8259.Text tree text ∧ tree.depth ≤ JsonParse.maxDepth ∧
        (strict = true → tree.DistinctKeys) ∧ v = tree.value := by
    intro v
    rw [← JsonParse.parseDocument_iff]
    cases strict with
    | true => exact JsonParse.strict_iff_document text v
    | false => exact JsonParse.lax_iff_document text v
  simp only [codeApi, mapApi]
  cases hp : if strict then JsonParse.sbjParseStrict text else JsonParse.sbjParse text with
  | error e =>
    rw [dif_neg]
    · exact .none
    · rintro ⟨tree, h1, h2, h3⟩
      rw [(hiff tree.value).mpr ⟨tree, h1, h2, h3, rfl⟩] at hp
      cases hp
  | ok v =>
    obtain ⟨tree, h1, h2, h3, -⟩ := (hiff v).mp hp
    have hex : ∃ tree, Rfc8259.Text tree text ∧ tree.depth ≤ JsonParse.maxDepth ∧
        (strict = true → tree.DistinctKeys) := ⟨tree, h1, h2, h3⟩
    have hchosen := (hiff hex.choose.value).mpr
      ⟨_, hex.choose_spec.1, hex.choose_spec.2.1, hex.choose_spec.2.2, rfl⟩
    rw [hp] at hchosen
    cases hchosen
    rw [dif_pos hex]
    refine .some ⟨?_, Rfc8259.Tree.flat_value _⟩
    refine Sbj.Wf.ordered _ ?_
    cases strict with
    | true => exact (JsonParse.sbjParseStrict_fits hp).1
    | false => exact (JsonParse.sbjParse_fits hp).1

lemma simulates : Api.Simulates codeApi mapApi Stands where
  null := ⟨trivial, rfl⟩
  object := ⟨Sbj.ordered_nil, rfl⟩
  scalar s := by
    refine ⟨?_, rfl⟩
    cases s with
    | uint u => exact Sbj.ordered_ofUint u
    | _ => trivial
  parse := parse_stands
  clone := by
    rintro v w ⟨hv, rfl⟩
    exact Sbj.clone_spec v hv
  child := by
    rintro v w ⟨hv, rfl⟩ s
    obtain ⟨hmap, hord⟩ := Sbj.child_spec hv s
    change Option.Rel Stands (v.child s) (v.toMap.child s)
    rw [← hmap]
    cases hc : v.child s with
    | none => exact .none
    | some w => exact .some ⟨hord w hc, rfl⟩
  edit := by
    rintro f g hf s v w ⟨hv, rfl⟩
    exact Sbj.editChild_spec (fun v hv => hf ⟨hv, rfl⟩) s hv
  set := by
    rintro v w v' w' ⟨hv, rfl⟩ ⟨hv', rfl⟩ k
    exact ⟨hv.set hv' k, Sbj.toMap_set hv k⟩
  del := by
    rintro v w ⟨hv, rfl⟩ k
    exact ⟨hv.del k, Sbj.toMap_del hv k⟩
  update := by
    rintro v w v' w' ⟨hv, rfl⟩ ⟨hv', rfl⟩
    exact Sbj.update_spec hv hv'

omit [Platform] in
lemma lt_of_compare_byte {x y : UInt8} (h : compare x y = .lt) : x < y := by
  simp only [compare, compareOfLessAndEq] at h
  split_ifs at h with hlt
  exact hlt

omit [Platform] in
lemma lt_of_compare_key {a b : Bytes} (h : compare a b = .lt) : a < b := by
  induction a generalizing b with
  | nil =>
    cases b with
    | nil => simp at h
    | cons y b => exact List.nil_lt_cons y b
  | cons x a ih =>
    cases b with
    | nil => simp [compare, List.compareLex] at h
    | cons y b =>
      rw [List.cons_lt_cons_iff]
      rw [List.compare_eq_compareLex, List.compareLex_cons_cons, Ordering.then_eq_lt] at h
      rcases h with h | ⟨hxy, h⟩
      · exact .inl (lt_of_compare_byte h)
      · exact .inr ⟨Std.LawfulEqOrd.eq_of_compare hxy, ih h⟩

lemma ordered_updateParts {dst src : List (Step Bytes)} {v v' : Sbj} (h : v.Ordered)
    (hv : v.updateParts dst src = some v') : v'.Ordered := by
  unfold Sbj.updateParts at hv
  split at hv
  · cases hv
    exact h
  split_ifs at hv
  cases hv
  refine List.foldlRecOn (motive := Sbj.Ordered) _ _ h fun o ho p _ => ?_
  have hvalue : Stands ((codeApi.at_ o (src ++ [.key p.1])).getD .null).clone
      (((codeApi.at_ o (src ++ [.key p.1])).getD .null).clone.toMap) := by
    refine ⟨(Sbj.clone_spec _ ?_).1, rfl⟩
    have hpart := simulates.at_ (v := o) ⟨ho, rfl⟩ (src ++ [.key p.1])
    generalize codeApi.at_ o (src ++ [.key p.1]) = x at hpart
    generalize mapApi.at_ o.toMap (src ++ [.key p.1]) = y at hpart
    cases hpart with
    | none => trivial
    | some hs => exact hs.1
  exact (simulates.editAt (fun hd => simulates.set hd hvalue p.1) dst ⟨ho, rfl⟩).1

lemma codeStep_apart (st : Store Sbj) {c : SbjCall} (h : c.apart = true) :
    codeStep st c = codeApi.step st c.op := by
  cases c with
  | update dst src => exact if_pos h
  | _ => rfl

lemma codeStep_stands {st st' : Store Sbj} {maps : Store MapValue} (h : Api.StoreRel Stands st maps)
    {c : SbjCall} (hc : codeStep st c = some st') : ∃ maps', Api.StoreRel Stands st' maps' := by
  by_cases hapart : c.apart = true
  · have hrel := simulates.step h c.op
    rw [← codeStep_apart st hapart, hc] at hrel
    generalize mapApi.step maps c.op = out at hrel
    cases hrel with
    | some hst => exact ⟨_, hst⟩
  cases c with
  | update dst src =>
    simp only [codeStep, if_neg (show ¬ dst.apart src = true from hapart)] at hc
    generalize (if src.path.isPrefixOf dst.path then src else dst) = outer at hc
    have hfound := simulates.find h outer
    split at hc
    · rename_i v hv
      obtain ⟨v', hv', rfl⟩ := Option.map_eq_some_iff.mp hc
      rw [hv] at hfound
      generalize mapApi.find maps outer = out at hfound
      cases hfound with
      | some hs =>
        exact ⟨_, simulates.change h outer fun _ => ⟨ordered_updateParts hs.1 hv', rfl⟩⟩
    · cases hc
      exact ⟨maps, h⟩
  | _ => exact absurd rfl hapart

lemma codeRun_stands {calls : List SbjCall} {st : Store Sbj} (h : codeRun calls = some st) :
    ∃ maps, Api.StoreRel Stands st maps := by
  have hrun : ∀ (calls : List SbjCall) (st₀ : Store Sbj) (maps : Store MapValue),
      Api.StoreRel Stands st₀ maps → calls.foldlM codeStep st₀ = some st →
      ∃ maps, Api.StoreRel Stands st maps := by
    intro calls
    induction calls with
    | nil => rintro st₀ maps h₀ ⟨⟩; exact ⟨maps, h₀⟩
    | cons c calls ih =>
      intro st₀ maps h₀ hrest
      rw [List.foldlM_cons] at hrest
      obtain ⟨st₁, hstep, hrest⟩ := Option.bind_eq_some_iff.mp hrest
      obtain ⟨maps₁, h₁⟩ := codeStep_stands h₀ hstep
      exact ih st₁ maps₁ h₁ hrest
  exact hrun calls _ (fun _ => none) (fun _ => .none) h

lemma codeRun_apart {calls : List SbjCall} (h : calls.all SbjCall.apart = true) :
    codeRun calls = codeApi.run (fun _ => none) (calls.map SbjCall.op) := by
  have hrun : ∀ (calls : List SbjCall) (st : Store Sbj), calls.all SbjCall.apart = true →
      calls.foldlM codeStep st = codeApi.run st (calls.map SbjCall.op) := by
    intro calls
    induction calls with
    | nil => exact fun _ _ => rfl
    | cons c calls ih =>
      intro st hall
      rw [List.all_cons, Bool.and_eq_true] at hall
      rw [Api.run, List.map_cons, List.foldlM_cons, List.foldlM_cons, codeStep_apart st hall.1]
      congr 1
      funext st'
      exact ih st' hall.2
  exact hrun calls _ h

/-- **Objects are finite maps**: after any calls, every object at any depth has its keys in strictly
increasing order, and if no call has merged a value with a part of itself, lookup finds what the same
calls leave in finite maps. -/
theorem calls_keep_maps (calls : List SbjCall) (st : Store Sbj) (h : codeRun calls = some st) :
    (∀ p m, codeApi.find st p = some (.obj m) → (m.map Prod.fst).Pairwise (· < ·)) ∧
    (calls.all SbjCall.apart = true →
      ∃ maps, mapApi.run (fun _ => none) (calls.map SbjCall.op) = some maps ∧
        ∀ p k, (Sbj.get (codeApi.find st p) k).map Sbj.toMap =
          MapValue.lookup (mapApi.find maps p) k) := by
  refine ⟨fun p m hm => ?_, fun hapart => ?_⟩
  · obtain ⟨maps, hst⟩ := codeRun_stands h
    have hfound := simulates.find hst p
    rw [hm] at hfound
    generalize mapApi.find maps p = out at hfound
    cases hfound with
    | some hv => exact List.pairwise_map.mpr (hv.1.1.imp lt_of_compare_key)
  · have hempty : Api.StoreRel Stands (fun _ => none) fun _ => none := fun _ => .none
    have hrun := simulates.run hempty (calls.map SbjCall.op)
    rw [← codeRun_apart hapart, h] at hrun
    generalize mapApi.run (fun _ => none) (calls.map SbjCall.op) = out at hrun
    cases hrun with
    | some hst =>
      refine ⟨_, rfl, fun p k => ?_⟩
      have hfound := simulates.find hst p
      generalize codeApi.find st p = x at hfound
      generalize mapApi.find _ p = y at hfound
      cases hfound with
      | none => rfl
      | some hv =>
        obtain ⟨hord, rfl⟩ := hv
        exact Sbj.get_toMap hord k

end

/-- Keys that begin alike, one with a NUL byte, and a copy that takes over from another object. -/
def exampleCalls : List SbjCall :=
  [.object 0, .scalar 1 (.int 1), .setn ⟨0, []⟩ [0x61, 0] 1, .scalar 1 (.int 2),
    .set ⟨0, []⟩ [0x61] 1, .clone 1 ⟨0, []⟩, .set ⟨0, []⟩ [0x62] 1, .parse 2 (lit "\x7b\"a\":3\x7d"),
    .update ⟨0, [.key [0x62]]⟩ ⟨2, []⟩, .take 1 ⟨0, []⟩ [0x61]]

theorem calls_keep_maps_example : ∃ st, (@codeRun .sample) exampleCalls = some st ∧
    ∃ maps, (@mapApi .sample).run (fun _ => none) (exampleCalls.map SbjCall.op) = some maps ∧
      ∀ p k, (Sbj.get ((@codeApi .sample).find st p) k).map Sbj.toMap =
        MapValue.lookup ((@mapApi .sample).find maps p) k := by
  have hsome : (@codeRun .sample exampleCalls).isSome = true := by decide +kernel
  obtain ⟨st, hst⟩ := Option.isSome_iff_exists.mp hsome
  exact ⟨st, hst, (@calls_keep_maps .sample exampleCalls st hst).2 (by decide +kernel)⟩

/-- **A part that is merged with the whole** gets a copy of itself as it is by then, which is not the
union of the two. -/
theorem update_into_part :
    (Sbj.get ((@codeRun .sample [.parse 0 (lit "\x7b\"A\":0,\"a\":\x7b\"x\":1\x7d\x7d"),
      .update ⟨0, [.key [0x61]]⟩ ⟨0, []⟩]).bind
        ((@codeApi .sample).find · ⟨0, [.key [0x61], .key [0x61]]⟩)) [0x41]).isSome = true ∧
    MapValue.lookup (MapValue.lookup (some ((Sbj.obj [([0x78], .int 1)]).toMap.update
      (Sbj.obj [([0x41], .int 0), ([0x61], .obj [([0x78], .int 1)])]).toMap)) [0x61]) [0x41] = none :=
  ⟨by decide +kernel, rfl⟩

end SbEasy
