import SbEasy.Render
import SbEasy.JsonTree

/-!
The tables of `store.c` for subscriptions, proxy nodes, WireGuard peers and settings, and the
readers of JSON members that its functions share.

A column of JSON text is modelled by the value the text reads as: `sbj_dump` writes a double
that is not finite as `null`, and any other value reads back as it was written. A primary key
or a `UNIQUE` column is tested where a row is inserted.
-/

namespace SbEasy

/-- An `sbj` as the program holds it. -/
abbrev Json := {v : Sbj // v.Ordered}

/-- `wireguard_peers`, with the defaults of `sb_wireguard_peer_init`. -/
structure WireguardPeer where
  id : Bytes := []
  name : Bytes := []
  privateKey : Bytes := []
  publicKey : Bytes := []
  presharedKey : Option Bytes := none
  address : Bytes := []
  dns : Bytes := lit "10.59.32.1"
  enabled : Bool := true
  persistentKeepalive : ℤ := 25
  allowedIps : Bytes := lit "0.0.0.0/0, ::/0"
  expireAt : Option Bytes := none
  quotaBytes : ℤ := 0
  createdAt : Bytes := []
  updatedAt : Bytes := []
  notes : Option Bytes := none
  hostId : Option Bytes := none
  deriving DecidableEq

/-- `proxy_nodes`. The configuration is missing if its text is no JSON. -/
structure ProxyRecord where
  id : Bytes
  tag : Bytes
  nodeType : Bytes
  enabled : Bool := true
  server : Bytes
  serverPort : ℤ
  protocolConfig : Option Sbj
  subscriptionId : Option Bytes := none
  fingerprint : Bytes
  latency : Option UInt64 := none
  lastLatencyTest : Option Bytes := none
  createdAt : Bytes
  updatedAt : Bytes
  sourceTag : Option Bytes := none

/-- `subscriptions` -/
structure Subscription where
  id : Bytes
  name : Bytes
  url : Bytes
  enabled : Bool := true
  refreshInterval : ℤ := 3600
  lastFetchedAt : Option Bytes := none
  lastFetchResult : Option Bytes := none
  usage : Sbj := .obj []
  lastAttemptAt : Option Bytes := none
  lastError : Option Bytes := none
  nextRefreshAt : ℤ := 0
  failureCount : ℤ := 0
  createdAt : Bytes
  updatedAt : Bytes

/-- `sb_store`, as far as these tables go. -/
structure Store where
  subscriptions : List Subscription := []
  nodes : List ProxyRecord := []
  peers : List WireguardPeer := []
  settings : List (Bytes × Json) := []

namespace Sbj

mutual
/-- What a value reads as once it has been written. -/
def written : Sbj → Sbj
  | .float x => if (x >>> 52) &&& 0x7FF = 0x7FF then .null else .float x
  | .arr l => .arr (writtenItems l)
  | .obj m => .obj (writtenMembers m)
  | v => v
def writtenItems : List Sbj → List Sbj
  | [] => []
  | v :: l => v.written :: writtenItems l
def writtenMembers : List (Bytes × Sbj) → List (Bytes × Sbj)
  | [] => []
  | (k, v) :: m => (k, v.written) :: writtenMembers m
end

lemma writtenMembers_eq (m : List (Bytes × Sbj)) :
    writtenMembers m = m.map fun p => (p.1, p.2.written) := by
  induction m with
  | nil => rfl
  | cons p m ih => rw [writtenMembers, ih, List.map_cons]

mutual
lemma Ordered.written (v : Sbj) (h : v.Ordered) : v.written.Ordered := by
  cases v with
  | float x =>
    rw [Sbj.written]
    split_ifs <;> trivial
  | arr l => exact orderedItems_written l h
  | obj m =>
    refine ⟨?_, orderedMembers_written m h.2⟩
    rw [writtenMembers_eq]
    exact SortedAssoc.sorted_map _ h.1
  | _ => trivial
lemma orderedItems_written (l : List Sbj) (h : OrderedItems l) : OrderedItems (writtenItems l) := by
  match l with
  | [] => trivial
  | v :: l => exact ⟨Ordered.written v h.1, orderedItems_written l h.2⟩
lemma orderedMembers_written (m : List (Bytes × Sbj)) (h : OrderedMembers m) :
    OrderedMembers (writtenMembers m) := by
  match m with
  | [] => trivial
  | (_, v) :: m => exact ⟨Ordered.written v h.1, orderedMembers_written m h.2⟩
end

lemma get_written (v : Sbj) (k : Bytes) :
    get (some v.written) k = (get (some v) k).map written := by
  cases v with
  | obj m =>
    change SortedAssoc.get (writtenMembers m) k = _
    rw [writtenMembers_eq]
    exact SortedAssoc.get_map _ _ _
  | float x =>
    rw [written]
    split_ifs <;> simp [get, members]
  | _ => simp [get, members, written]

end Sbj

/-- `dump_checked`: the text is modelled by what it reads as. -/
def dumpChecked (v : Json) : Except Err Json :=
  match v.1.validateUtf8 with
  | .error fault => .error ⟨.badJson, fault.text⟩
  | .ok () => .ok ⟨v.1.written, v.2.written⟩

lemma dumpChecked_ok {v w : Json} (h : dumpChecked v = .ok w) : w.1 = v.1.written := by
  unfold dumpChecked at h
  split at h
  · cases h
  · cases h
    rfl

namespace Sbj

mutual
lemma written_written (v : Sbj) : v.written.written = v.written := by
  cases v with
  | float x =>
    rw [written]
    split_ifs with h
    · rfl
    · rw [written, if_neg h]
  | arr l => rw [written, written, writtenItems_written]
  | obj m => rw [written, written, writtenMembers_written]
  | _ => rfl
lemma writtenItems_written (l : List Sbj) : writtenItems (writtenItems l) = writtenItems l := by
  match l with
  | [] => rfl
  | v :: l => rw [writtenItems, writtenItems, written_written v, writtenItems_written l]
lemma writtenMembers_written (m : List (Bytes × Sbj)) :
    writtenMembers (writtenMembers m) = writtenMembers m := by
  match m with
  | [] => rfl
  | (k, v) :: m => rw [writtenMembers, writtenMembers, written_written v, writtenMembers_written m]
end

mutual
lemma validateUtf8_written (v : Sbj) (h : v.validateUtf8 = .ok ()) :
    v.written.validateUtf8 = .ok () := by
  cases v with
  | float x =>
    rw [written]
    split_ifs <;> rfl
  | arr l => exact validateItems_written l h
  | obj m => exact validateMembers_written m h
  | _ => exact h
lemma validateItems_written (l : List Sbj) (h : validateItems l = .ok ()) :
    validateItems (writtenItems l) = .ok () := by
  match l with
  | [] => rfl
  | v :: l =>
    obtain ⟨⟨⟩, hv, h⟩ := bind_ok h
    rw [writtenItems, validateItems, validateUtf8_written v hv]
    exact validateItems_written l h
lemma validateMembers_written (m : List (Bytes × Sbj)) (h : validateMembers m = .ok ()) :
    validateMembers (writtenMembers m) = .ok () := by
  match m with
  | [] => rfl
  | (k, v) :: m =>
    obtain ⟨⟨⟩, hk, h⟩ := bind_ok h
    obtain ⟨⟨⟩, hv, h⟩ := bind_ok h
    rw [writtenMembers, validateMembers, hk, validateUtf8_written v hv]
    exact validateMembers_written m h
end

/-- A value as a JSON column holds it: it is written as it is. -/
structure Stored (v : Sbj) : Prop where
  written : v.written = v
  utf8 : v.validateUtf8 = .ok ()

end Sbj

lemma stored_of_dumpChecked {v w : Json} (h : dumpChecked v = .ok w) : w.1.Stored := by
  have hw := dumpChecked_ok h
  unfold dumpChecked at h
  split at h
  · cases h
  · rename_i hutf8
    rw [hw]
    exact ⟨Sbj.written_written _, Sbj.validateUtf8_written _ hutf8⟩

namespace Store

def typeError (want : String) (got : Option Sbj) : Err :=
  ⟨.badJson, "[json.exception.type_error.302] type must be " ++ want ++ ", but is " ++
    Sbj.typeName got⟩

/-- `jv_str`: a pointer to the bytes of the string, which a caller may read as a C string. -/
def jvStr (obj : Sbj) (key fallback : Bytes) : Except Err Bytes :=
  match Sbj.get (some obj) key with
  | none => .ok fallback
  | some (.str s) => .ok s
  | v => .error (typeError "string" v)

def jvBool (obj : Sbj) (key : Bytes) (fallback : Bool) : Except Err Bool :=
  match Sbj.get (some obj) key with
  | none => .ok fallback
  | some (.bool b) => .ok b
  | v => .error (typeError "boolean" v)

/-- `float_to_int64` -/
def floatToInt64 [Platform] (f : UInt64) : ℤ :=
  match Platform.truncate f with
  | some i => if int64Min ≤ i ∧ i ≤ int64Max then i else int64Min
  | none => int64Min

def jvInt [Platform] (obj : Sbj) (key : Bytes) (fallback : ℤ) : Except Err ℤ :=
  match Sbj.get (some obj) key with
  | none => .ok fallback
  | some (.int i) => .ok i
  | some (.uint u) => .ok (Int.bmod u (2 ^ 64))
  | some (.float f) => .ok (floatToInt64 f)
  | v => .error (typeError "number" v)

/-- `jv_opt_str` -/
def jvOptStr (obj : Sbj) (key : Bytes) : Option Bytes :=
  match Sbj.get (some obj) key with
  | some (.str s) => some s
  | _ => none

def optStr : Option Bytes → Sbj
  | none => .null
  | some s => .str s

/-- A text as a C string. -/
def strOf (s : Bytes) : Sbj := .str (Sbj.cstr s)

/-- `sb_store_app_setting` -/
def appSetting (s : Store) (key : Bytes) : Option Json := (s.settings.find? (·.1 == key)).map (·.2)

/-- The upsert of `settings_upsert_sql`. -/
def putSetting (s : Store) (key : Bytes) (value : Json) : Except Err Store := do
  let text ← dumpChecked value
  .ok { s with settings := Table.upsert (·.1 == key) (fun _ => (key, text)) (key, text) s.settings }

variable {s s' : Store} {key : Bytes} {value : Json}

lemma putSetting_ok (h : s.putSetting key value = .ok s') :
    ∃ text : Json, text.1 = value.1.written ∧ s' = { s with
      settings := Table.upsert (·.1 == key) (fun _ => (key, text)) (key, text) s.settings } := by
  obtain ⟨text, htext, h⟩ := bind_ok h
  cases h
  exact ⟨text, dumpChecked_ok htext, rfl⟩

lemma appSetting_put (h : s.putSetting key value = .ok s') :
    (s'.appSetting key).map (·.1) = some value.1.written := by
  obtain ⟨text, htext, rfl⟩ := putSetting_ok h
  have hfind : (Table.upsert (fun q : Bytes × Json => q.1 == key) (fun _ => (key, text)) (key, text)
      s.settings).find? (fun q => q.1 == key) = some (key, text) :=
    Table.find?_upsert_self (beq_self_eq_true _)
  simp [appSetting, hfind, htext]

/-- What SQLite says about a row that breaks a `UNIQUE` constraint. -/
def uniqueFailed (column : String) : Err :=
  ⟨.generic, "execute SQL failed (19): UNIQUE constraint failed: " ++ column⟩

end Store
end SbEasy
