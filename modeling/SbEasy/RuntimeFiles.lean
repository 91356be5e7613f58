import SbEasy.RuntimeExact

/-!
Which members with the name of a file or a directory reach the core: those of the candidate that no
pass takes away. The list of `unsafe_files` has some such names and not all of them.
-/

namespace SbEasy.WinRuntime

open Sbj JsonParse

/-- A name that ends like the name of a file or a directory. -/
def localName (k : Bytes) : Bool := (lit "_path").isSuffixOf k || (lit "_directory").isSuffixOf k

def nowhere (_ : Bytes) : Bool := false

/-- What the member under a key adds to the names of an object, unless it is one of `own`. -/
def contributes (own : List Bytes) (skip : Bytes → Bool) (k : Bytes) (v : Option Sbj) : Bool :=
  v.any fun v => !own.contains k && !skip k && (localName k || v.names skip localName)

/-- A member other than `own` names a file, or has one inside that does. -/
def namesBeside (own : List Bytes) (skip : Bytes → Bool) (o : Sbj) : Bool :=
  (members (some o)).any fun q => contributes own skip q.1 (some q.2)

/-- A file or a directory is named in an endpoint; where Tailscale keeps its state is the choice of
the service. -/
def endpointNames (e : Sbj) : Bool :=
  namesBeside (if isTailscale e then [lit "state_directory"] else []) nowhere e

/-- The configuration has a member that names a file or a directory, in one of the sections with
nodes, listeners and resolvers. -/
def fileNamed (c : Sbj) : Bool :=
  (items (Sbj.get (some c) (lit "outbounds"))).any (names nowhere localName) ||
    (items (Sbj.get (some c) (lit "inbounds"))).any (names nowhere localName) ||
    (items (Sbj.get (some c) (lit "endpoints"))).any endpointNames ||
    (Sbj.get (Sbj.get (some c) (lit "dns")) (lit "servers")).any (names nowhere localName)

/-- A member of an inbound that is kept names a file. -/
def inboundSupplies (i : Sbj) : Bool :=
  namesBeside (if isTun i then linuxKeys else [lit "listen", lit "set_system_proxy"]) nowhere i

/-- A member of an endpoint that is kept names a file. -/
def endpointSupplies (e : Sbj) : Bool :=
  namesBeside (if isTailscale e then lit "state_directory" :: lit "system_interface" :: tailscaleKeys
    else [lit "system", lit "name"]) isDialerKey e

/-- The candidate has a member that names a file or a directory, outside what the passes take away. -/
def fileSupplied (input : Sbj) : Bool :=
  (items (Sbj.get (some input) (lit "outbounds"))).any (names isDialerKey localName) ||
    (items (Sbj.get (some input) (lit "inbounds"))).any inboundSupplies ||
    (items (Sbj.get (some input) (lit "endpoints"))).any endpointSupplies ||
    (Sbj.get (Sbj.get (some input) (lit "dns")) (lit "servers")).any (names isDialerKey localName)

variable {own : List Bytes} {skip : Bytes → Bool}

variable {o e e' : Sbj} {own' : List Bytes} {k : Bytes} {w : Machine}

lemma namesBeside_iff (ho : o.IsObj) :
    namesBeside own skip o = true ↔ ∃ k, contributes own skip k (Sbj.get (some o) k) = true := by
  obtain ⟨m, rfl, hs⟩ := ho
  rw [namesBeside, members, List.any_eq_true]
  constructor
  · rintro ⟨⟨k, v⟩, hq, hc⟩
    refine ⟨k, ?_⟩
    have hget : Sbj.get (some (.obj m)) k = some v := (SortedAssoc.get_eq_some_iff hs).mpr hq
    rwa [hget]
  · rintro ⟨k, hc⟩
    cases hget : Sbj.get (some (.obj m)) k with
    | none => rw [hget] at hc; cases hc
    | some v =>
      rw [hget] at hc
      exact ⟨(k, v), (SortedAssoc.get_eq_some_iff hs).mp hget, hc⟩

lemma namesBeside_eq {skip' : Bytes → Bool} {o o' : Sbj} (ho : o.IsObj)
    (ho' : o'.IsObj) (h : ∀ k, contributes own' skip' k (Sbj.get (some o') k) =
      contributes own skip k (Sbj.get (some o) k)) :
    namesBeside own' skip' o' = namesBeside own skip o := by
  rw [Bool.eq_iff_iff, namesBeside_iff ho, namesBeside_iff ho']
  simp only [h]

lemma names_obj {o : Sbj} (ho : o.IsObj) : o.names skip localName = namesBeside [] skip o := by
  obtain ⟨m, rfl, -⟩ := ho
  rw [names, namesMembers_eq, namesBeside]
  simp [contributes, members]

lemma contributes_without (k : Bytes) (v : Option Sbj) :
    contributes own nowhere k (if isDialerKey k then none else v.map (Sbj.without isDialerKey)) =
      contributes own isDialerKey k v := by
  cases hk : isDialerKey k with
  | true => cases v <;> simp [contributes, hk]
  | false =>
    cases v with
    | none => rfl
    | some v =>
      have hnames : (v.without isDialerKey).names nowhere localName = v.names isDialerKey localName :=
        names_without v
      simp [contributes, hk, hnames, nowhere]

/-- A member of `own` adds nothing. -/
lemma contributes_own (hk : k ∈ own) (v : Option Sbj) : contributes own skip k v = false := by
  cases v <;> simp [contributes, hk]

/-- More of `own` does not matter for other members. -/
lemma contributes_other (hk : k ∉ own)
    (hk' : k ∉ own') (v : Option Sbj) : contributes own skip k v = contributes own' skip k v := by
  cases v <;> simp [contributes, hk, hk']

lemma any_of_forall₂ {R : Sbj → Sbj → Prop} {f g : Sbj → Bool} {l l' : List Sbj}
    (h : List.Forall₂ R l l') (hR : ∀ a b, R a b → f b = g a) : l'.any f = l.any g := by
  induction h with
  | nil => rfl
  | cons hab _ ih => rw [List.any_cons, List.any_cons, hR _ _ hab, ih]

lemma EndpointAdapted.isTailscale (h : EndpointAdapted w e e') :
    WinRuntime.isTailscale e' = WinRuntime.isTailscale e := by
  have htype : Sbj.get (some e') (lit "type") =
      (Sbj.get (some e) (lit "type")).map (Sbj.without isDialerKey) := by
    rw [h.get, endpointMember]
    split <;> rfl
  rw [WinRuntime.isTailscale, WinRuntime.isTailscale, htype]
  rcases Sbj.get (some e) (lit "type") with _ | v
  · rfl
  · cases v <;> rfl

lemma EndpointAdapted.names (h : EndpointAdapted w e e') :
    endpointNames e' = endpointSupplies e := by
  rw [endpointNames, endpointSupplies, h.isTailscale]
  refine namesBeside_eq h.source h.obj fun k => ?_
  rw [h.get, endpointMember]
  cases htail : WinRuntime.isTailscale e with
  | true =>
    simp only [if_true]
    by_cases hstate : k = lit "state_directory"
    · rw [contributes_own (by simp [hstate]), contributes_own (by simp [hstate])]
    rw [if_neg hstate]
    by_cases hsystem : k = lit "system_interface"
    · rw [if_pos hsystem]
      refine Eq.trans ?_ (contributes_own (by simp [hsystem]) _).symm
      rw [hsystem]
      rfl
    rw [if_neg hsystem]
    by_cases hkey : k ∈ tailscaleKeys
    · rw [if_pos hkey]
      exact (contributes_own (by simp [hkey]) _).symm
    rw [if_neg hkey, contributes_without]
    exact contributes_other (by simp [hstate]) (by simp [hstate, hsystem, hkey]) _
  | false =>
    simp only [Bool.false_eq_true, if_false]
    by_cases hsystem : k = lit "system"
    · rw [if_pos hsystem]
      refine Eq.trans ?_ (contributes_own (by simp [hsystem]) _).symm
      rw [hsystem]
      rfl
    rw [if_neg hsystem]
    by_cases hname : k = lit "name"
    · rw [if_pos hname]
      exact (contributes_own (by simp [hname]) _).symm
    rw [if_neg hname, contributes_without]
    exact contributes_other (by simp) (by simp [hsystem, hname]) _

lemma InboundAdapted.names {i i' : Sbj} (h : InboundAdapted i i') :
    i'.names nowhere localName = inboundSupplies i := by
  rw [names_obj h.obj, inboundSupplies]
  refine namesBeside_eq h.source h.obj fun k => ?_
  rw [h.get, inboundMember]
  cases htun : WinRuntime.isTun i with
  | true =>
    simp only [if_true]
    by_cases hkey : k ∈ linuxKeys
    · rw [if_pos hkey]
      exact (contributes_own hkey _).symm
    rw [if_neg hkey]
    refine Eq.trans ?_ (contributes_other List.not_mem_nil hkey _)
    by_cases hname : k = lit "interface_name"
    · rw [if_pos hname]
      cases hget : Sbj.get (some i) k with
      | none =>
        rw [hname]
        rfl
      | some v => rfl
    · rw [if_neg hname]
  | false =>
    simp only [Bool.false_eq_true, if_false]
    by_cases hlisten : k = lit "listen"
    · rw [if_pos hlisten]
      refine Eq.trans ?_ (contributes_own (by simp [hlisten]) _).symm
      rw [hlisten]
      rfl
    rw [if_neg hlisten]
    by_cases hproxy : k = lit "set_system_proxy"
    · rw [if_pos hproxy]
      exact (contributes_own (by simp [hproxy]) _).symm
    rw [if_neg hproxy]
    exact contributes_other (by simp) (by simp [hlisten, hproxy]) _

/-! ### The whole -/

/-- An object that is put together has no names but those put into it. -/
lemma names_build {p : Bytes → Bool} {l : List (Bytes × Sbj)} (h : namesMembers skip p l = false) :
    (build l).names skip p = false := by
  induction l using List.reverseRecOn with
  | nil => rfl
  | append_singleton l q ih =>
    rw [namesMembers_eq, List.any_append, ← namesMembers_eq, Bool.or_eq_false_iff] at h
    obtain ⟨m, hm, hs⟩ := isObj_build l
    have hl := ih h.1
    rw [build_snoc, hm, Sbj.set, names, namesMembers_eq, List.any_eq_false]
    rw [hm, names, namesMembers_eq, List.any_eq_false] at hl
    intro r hr
    rcases SortedAssoc.mem_set hs hr with rfl | hr
    · simpa using h.2
    · exact hl r hr

lemma names_diagnosticListener (secret : Bytes) (port : UInt16) :
    (diagnosticListener secret port).names nowhere localName = false := by
  have husers : (build [(lit "username", .str (lit "sb-easy-probe")), (lit "password", .str secret)]).names
      nowhere localName = false := names_build rfl
  refine names_build ?_
  simp only [namesMembers, names, namesItems, husers]
  rfl

/-- What is written names a file exactly where the candidate does, outside what is taken away. -/
lemma Exact.fileNamed {host : Option Bytes} {input c : Sbj} {out : RuntimeConfig}
    (hinput : input.Ordered) (h : Exact w host input c out) :
    WinRuntime.fileNamed c = fileSupplied input := by
  have hwithout : ∀ v : Sbj, (v.without isDialerKey).names nowhere localName =
      v.names isDialerKey localName := fun v => names_without v
  have houtbounds : (items (Sbj.get (some c) (lit "outbounds"))).any (names nowhere localName) =
      (items (Sbj.get (some input) (lit "outbounds"))).any (names isDialerKey localName) := by
    have hdirect : ownOutbound.names nowhere localName = false := names_build rfl
    rw [h.outbounds]
    simp [items, Function.comp_def, hwithout, hdirect]
  have hinbounds : (items (Sbj.get (some c) (lit "inbounds"))).any (names nowhere localName) =
      (items (Sbj.get (some input) (lit "inbounds"))).any inboundSupplies := by
    obtain ⟨own, hget, hown⟩ := h.inbounds
    rw [hget, ← any_of_forall₂ hown fun _ _ hab => hab.names]
    simp [items, names_diagnosticListener]
  have hendpoints : (items (Sbj.get (some c) (lit "endpoints"))).any endpointNames =
      (items (Sbj.get (some input) (lit "endpoints"))).any endpointSupplies :=
    any_of_forall₂ h.endpoints fun _ _ hab => hab.names
  have hservers : (Sbj.get (Sbj.get (some c) (lit "dns")) (lit "servers")).any (names nowhere localName) =
      (Sbj.get (Sbj.get (some input) (lit "dns")) (lit "servers")).any (names isDialerKey localName) := by
    rw [h.dns]
    rcases hdns : Sbj.get (some input) (lit "dns") with _ | v
    · rfl
    · rw [Option.map_some, (hinput.get hdns).get_without, if_neg (by decide)]
      cases Sbj.get (some v) (lit "servers") with
      | none => rfl
      | some x => exact hwithout x
  rw [WinRuntime.fileNamed, fileSupplied, houtbounds, hinbounds, hendpoints, hservers]

variable [Platform]

/-- **Names of files**: what is prepared has a member that names a file or a directory exactly if
the candidate has one outside the members that are taken away. -/
theorem prepare_files (w : Machine) (json server : Bytes) (out : RuntimeConfig)
    (h : runtimeConfigPrepare w json server = .ok out) :
    ∃ input c, sbwJsonParse json 40 = some input ∧ out.json = dump c (-1) ∧
      (fileNamed c = false ↔ fileSupplied input = false) := by
  obtain ⟨⟨c, out'⟩, htree, h⟩ := bind_ok h
  cases h
  obtain ⟨input, hinput, hordered, hexact⟩ := prepareTree_ok htree
  exact ⟨input, c, hinput, rfl, by rw [hexact.fileNamed hordered]⟩

omit [Platform]

/-- Nothing but the interface of the tunnel is named. -/
theorem prepare_files_example :
    ∃ out, @runtimeConfigPrepare .sample .sample exampleCandidate (lit "https://c") = .ok out ∧
      ∃ input c, @sbwJsonParse .sample exampleCandidate 40 = some input ∧
        out.json = @dump .sample c (-1) ∧ (fileNamed c = false ↔ fileSupplied input = false) := by
  obtain ⟨out, h⟩ := exampleCandidate_ok
  exact ⟨out, h, @prepare_files .sample .sample _ _ out h⟩

def exampleTor : Bytes :=
  ["\x7b\"outbounds\":[\x7b", "\"type\":\"tor\",\"tag\":\"t\",", "\"executable_path\":",
   "\"C:/x.exe\"\x7d]\x7d"].flatMap lit

/-- A program that the core is to start reaches it. -/
theorem prepare_names_program :
    ∃ out c, @runtimeConfigPrepare .sample .sample exampleTor [] = .ok out ∧
      out.json = @dump .sample c (-1) ∧ fileNamed c = true := by
  have hrun : (@prepareTree .sample .sample exampleTor []).toOption.any (fun r => fileNamed r.1) = true := by
    decide +kernel
  cases h : @prepareTree .sample .sample exampleTor [] with
  | error e =>
    rw [h] at hrun
    cases hrun
  | ok r =>
    rw [h] at hrun
    refine ⟨{ r.2 with json := @dump .sample r.1 (-1) }, r.1, ?_, rfl, hrun⟩
    unfold runtimeConfigPrepare
    rw [h]
    rfl

end SbEasy.WinRuntime
