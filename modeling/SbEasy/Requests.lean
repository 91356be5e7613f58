import SbEasy.Node
import SbEasy.PolicyDecode

/-!
The reports of an engine and the request they go into, on their way from the engine through the
runtime's JSON and back.
-/

namespace SbEasy

open JsonParse GoVal

def ProxyReport.toSbj (r : ProxyReport) : Sbj :=
  .obj [(lit "lease_id", .str r.leaseId), (lit "used_bytes", .int r.used)]

/-- Reports with distinct identifiers and counters in range. -/
structure ReportsGood (rs : List ProxyReport) : Prop where
  count : rs.length ≤ 4096
  ids : ∀ r ∈ rs, proxyID r.leaseId = true
  used : ∀ r ∈ rs, 0 ≤ r.used ∧ r.used ≤ safeInteger
  distinct : (rs.map ProxyReport.leaseId).Nodup

lemma ProxyReport.get (r : ProxyReport) :
    Sbj.get (some r.toSbj) (lit "lease_id") = some (.str r.leaseId) ∧
    Sbj.get (some r.toSbj) (lit "used_bytes") = some (.int r.used) ∧
    Sbj.isObject (some r.toSbj) = true ∧ (Sbj.members (some r.toSbj)).length = 2 := by
  rw [toSbj]
  exact ⟨by cbv, by cbv, rfl, rfl⟩

lemma ProxyReport.readable {r : ProxyReport} (hid : proxyID r.leaseId = true)
    (hused : 0 ≤ r.used ∧ r.used ≤ safeInteger) : Readable 1 r.toSbj := by
  have hmin : int64Min ≤ 0 := by decide
  have hmax : safeInteger ≤ int64Max := by decide
  refine Readable.obj (by cbv) ?_
  simp only [List.forall_mem_cons]
  exact ⟨.str (proxyID_valid hid), .int (by omega), by simp⟩

variable {rs : List ProxyReport}

lemma ReportsGood.readable (h : ReportsGood rs) : Readable 2 (.arr (rs.map ProxyReport.toSbj)) := by
  apply Readable.arr
  intro v hv
  obtain ⟨r, hr, rfl⟩ := List.mem_map.mp hv
  exact ProxyReport.readable (h.ids r hr) (h.used r hr)

section
variable [Platform]

lemma reportValid_shape {v : Sbj} (hv : v.Wf) (h : reportValid v = true) :
    ∃ r : ProxyReport, v = r.toSbj := by
  simp only [reportValid, Bool.and_eq_true, beq_iff_eq] at h
  obtain ⟨⟨⟨hobj, hlen⟩, hid⟩, hused⟩ := h
  obtain ⟨id, hid, -⟩ := identifier_some hid
  obtain ⟨used, hused, -, -⟩ := integer_some hv le_rfl hused
  refine ⟨⟨id, used⟩, ?_⟩
  refine obj_eq hv (by cbv) hlen hobj ?_
  simp only [List.forall_mem_cons]
  exact ⟨hid, hused, by simp⟩

lemma reportValid_toSbj (r : ProxyReport) : reportValid r.toSbj = true ↔
    proxyID r.leaseId = true ∧ 0 ≤ r.used ∧ r.used ≤ safeInteger := by
  obtain ⟨hid, hused, hobj, hlen⟩ := r.get
  simp [reportValid, hobj, hlen, hid, identifier_str, integer_int hused]

lemma reportsValid_toSbj (rs : List ProxyReport) :
    reportsValid (some (.arr (rs.map ProxyReport.toSbj))) = true ↔ ReportsGood rs := by
  have hids : (∀ r ∈ rs, proxyID r.leaseId = true) → (rs.map ProxyReport.toSbj).map
      (fun r => Sbj.getStr (some r) (lit "lease_id") []) = rs.map ProxyReport.leaseId := by
    intro h
    rw [List.map_map]
    refine List.map_congr_left fun r hr => ?_
    rw [Function.comp_apply, Sbj.getStr, r.get.1]
    exact cstr_of_proxyID (h r hr)
  simp only [reportsValid, Sbj.isArray, Sbj.items, Bool.and_eq_true, List.length_map, List.all_map,
    List.all_eq_true, Function.comp_apply, reportValid_toSbj, distinct_iff, Bool.not_eq_true',
    decide_eq_false_iff_not, not_lt, gt_iff_lt, true_and]
  constructor
  · rintro ⟨⟨h1, h2⟩, h3⟩
    have hid : ∀ r ∈ rs, proxyID r.leaseId = true := fun r hr => (h2 r hr).1
    exact ⟨h1, hid, fun r hr => (h2 r hr).2, by rwa [hids hid] at h3⟩
  · rintro ⟨h1, h2, h3, h4⟩
    exact ⟨⟨h1, fun r hr => ⟨h2 r hr, h3 r hr⟩⟩, by rwa [hids h2]⟩

/-- `reports_valid` accepts the JSON of good reports, and nothing else. -/
lemma reportsValid_iff {v : Sbj} (hv : v.Wf) : reportsValid (some v) = true ↔
    ∃ rs, v = .arr (rs.map ProxyReport.toSbj) ∧ ReportsGood rs := by
  constructor
  · intro h
    have hparts := h
    simp only [reportsValid, Bool.and_eq_true, List.all_eq_true] at hparts
    obtain ⟨⟨⟨harr, -⟩, hall⟩, -⟩ := hparts
    match v, harr with
    | .arr l, _ =>
      obtain ⟨rs, rfl⟩ := exists_map fun r hr =>
        reportValid_shape (Sbj.wfItems_iff.mp hv r hr) (hall r hr)
      exact ⟨rs, rfl, (reportsValid_toSbj rs).mp h⟩
  · rintro ⟨rs, rfl, h⟩
    exact (reportsValid_toSbj rs).mpr h

end

lemma reportsLoop_ok {seen : List Bytes}
    (hids : ∀ r ∈ rs, proxyID r.leaseId = true) (hused : ∀ r ∈ rs, 0 ≤ r.used ∧ r.used ≤ safeInteger)
    (hnew : ∀ r ∈ rs, r.leaseId ∉ seen) (hdistinct : (rs.map ProxyReport.leaseId).Nodup) :
    reportsLoop seen rs = true := by
  induction rs generalizing seen with
  | nil => rfl
  | cons r rs ih =>
    rw [List.map_cons, List.nodup_cons] at hdistinct
    obtain ⟨hid, hids⟩ := List.forall_mem_cons.mp hids
    obtain ⟨hu, hused⟩ := List.forall_mem_cons.mp hused
    obtain ⟨hn, hnew⟩ := List.forall_mem_cons.mp hnew
    rw [reportsLoop, if_neg]
    · refine ih hids hused (fun x hx => ?_) hdistinct.2
      have hne : x.leaseId ≠ r.leaseId := fun he => hdistinct.1 (he ▸ List.mem_map_of_mem hx)
      simpa [hne] using hnew x hx
    · rw [safeInteger] at hu
      simp only [Bool.not_eq_true, Bool.or_eq_false_iff, decide_eq_false_iff_not]
      simp [hid, hn, proxyMaxInteger]
      omega

lemma ReportsGood.valid (h : ReportsGood rs) : proxyReportsValid (some rs) = true := by
  have hcount := h.count
  have hloop : reportsLoop [] rs = true := reportsLoop_ok h.ids h.used (by simp) h.distinct
  simp [proxyReportsValid, hloop, hcount]

lemma decodes_report (r : ProxyReport) : Decodes decodeReport reportShape r.toSbj r := by
  rw [ProxyReport.toSbj, reportShape]
  refine decodes_struct (by simp) fun m h => ?_
  have hf := fields_read [lit "lease_id", lit "used_bytes"] h (by simp)
  obtain ⟨h1, s1⟩ := field_read (lit "lease_id") h (decodes_string r.leaseId) (by simp) []
  obtain ⟨h2, s2⟩ := field_read (lit "used_bytes") h (decodes_int r.used) (by simp) 0
  refine ⟨by simp [decodeReport, hf, h1, h2], ?_⟩
  simp only [requiredFields, s1, s2, Bool.and_self]

lemma decodes_reports (rs : List ProxyReport) : Decodes (slice decodeReport) (.slice reportShape)
    (.arr (rs.map ProxyReport.toSbj)) (some rs) := by
  have h := decodes_map decodes_report rs
  rwa [List.map_id'] at h

lemma requestJson_eq (boot : Bytes) (sequence : ℤ) (reports : Sbj) :
    Node.requestJson boot sequence reports = .obj [(lit "boot_id", .str boot),
      (lit "reports", reports), (lit "request_seq", .int sequence), (lit "version", .int 1)] := by
  cbv

lemma requestJson_readable {boot : Bytes} {sequence : ℤ}
    (hboot : proxyID boot = true) (hseq : 1 ≤ sequence ∧ sequence ≤ safeInteger) (h : ReportsGood rs) :
    Readable 3 (Node.requestJson boot sequence (.arr (rs.map ProxyReport.toSbj))) := by
  have hmin : int64Min ≤ 0 := by decide
  have hmax : safeInteger ≤ int64Max := by decide
  rw [requestJson_eq]
  refine Readable.obj (by cbv) ?_
  simp only [List.forall_mem_cons]
  exact ⟨.str (proxyID_valid hboot), h.readable, .int (by omega), .int (by decide), by simp⟩

lemma decodes_request (boot : Bytes) (sequence : ℤ) (rs : List ProxyReport) :
    Decodes decodeRequest requestShape
      (Node.requestJson boot sequence (.arr (rs.map ProxyReport.toSbj))) ⟨1, boot, sequence, some rs⟩ := by
  rw [requestJson_eq, requestShape]
  refine decodes_struct (by simp) fun m h => ?_
  have hf := fields_read [lit "version", lit "boot_id", lit "request_seq", lit "reports"] h (by simp)
  obtain ⟨h1, s1⟩ := field_read (lit "version") h (decodes_int 1) (by simp) 0
  obtain ⟨h2, s2⟩ := field_read (lit "boot_id") h (decodes_string boot) (by simp) []
  obtain ⟨h3, s3⟩ := field_read (lit "request_seq") h (decodes_int sequence) (by simp) 0
  obtain ⟨h4, s4⟩ := field_read (lit "reports") h (decodes_reports rs) (by simp) none
  refine ⟨by simp [decodeRequest, hf, h1, h2, h3, h4], ?_⟩
  simp only [requiredFields, s1, s2, s3, s4, Bool.and_self]

section
variable [Platform]

/-- Both sides read a pending request, and its reports, as what they were made of. -/
structure Pending.Holds (boot : Bytes) (sequence : ℤ) (p : Pending) (rs : List ProxyReport) : Prop where
  good : ReportsGood rs
  request : p.request = dump (Node.requestJson boot sequence (.arr (rs.map ProxyReport.toSbj))) (-1)
  reports : p.reports = dump (.arr (rs.map ProxyReport.toSbj)) (-1)
  short : p.request.length ≤ proxyRequestLimit
  boot : proxyID boot = true
  seq : 1 ≤ sequence ∧ sequence ≤ safeInteger

namespace Pending.Holds

variable {boot : Bytes} {sequence : ℤ} {p : Pending} {rs : List ProxyReport}

lemma parse (h : p.Holds boot sequence rs) : sbjParseStrict p.request =
    .ok (Node.requestJson boot sequence (.arr (rs.map ProxyReport.toSbj))) := by
  rw [h.request]
  exact ((requestJson_readable h.boot h.seq h.good).mono (by decide)).parseStrict (-1)

lemma decode (h : p.Holds boot sequence rs) :
    proxyDecode decodeRequest requestShape (goString p.request) = some ⟨1, boot, sequence, some rs⟩ := by
  have hdepth := (requestJson_readable h.boot h.seq h.good).fits.2
  have hshort := h.short
  exact proxyDecode_of_strict h.parse (by rw [proxyRequestLimit] at hshort; omega) (by omega)
    (decodes_request boot sequence rs)

end Pending.Holds

end

end SbEasy
