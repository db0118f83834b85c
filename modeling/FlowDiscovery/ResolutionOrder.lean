import FlowDiscovery.AppResolver

/-!
# The order of the resolution stages

What each stage of `resolve` looks for, stated on the lists that were loaded, and
the precedence of the five stages with the best match at each of them. The stages
are characterised one by one from the sorted lists; the precedence is then a case
distinction. The third stage compares ids with the number in `dns:saas`, for which
a text that is no number stands as -1.
-/
namespace FlowDiscovery.AppResolver
open PyText PyIpaddress

/-! ## What the stages look for -/

/-- Prefix length of a loaded application. -/
def prefixlenOf (a : ManualApp) : ℕ := (a.network.map Network.prefixlen).getD 0

/-- The application has the address, the protocol and the port of the flow; a missing
protocol or end of the port range restricts nothing. -/
structure Matching (manual : List ManualApp) (d : Destination) (a : ManualApp) : Prop where
  mem : a ∈ manual
  address : ∃ ip network, ipAddress d.dstIp.toList = some ip ∧ a.network = some network ∧
    network.version = ip.version ∧
    ip.ip &&& ipIntFromPrefix network.version network.prefixlen = network.networkAddress
  proto : ∀ p ∈ a.proto, p = d.proto
  portMin : ∀ least ∈ a.portMin, least ≤ d.dstPort
  portMax : ∀ greatest ∈ a.portMax, d.dstPort ≤ greatest

/-- The firewall gave a name, and the pattern ends it but for the case of letters. -/
structure Named (lower : String → String) (saas : List SaasEntry) (d : Destination)
    (s : SaasEntry) : Prop where
  mem : s ∈ saas
  suffix : ∃ name, d.firewallFqdn = some name ∧ name ≠ "" ∧
    (lower s.pattern).toList <:+ (lower name).toList

/-- There is a cached name, and the text under `dns:saas` stands for the id. -/
structure Pointed (idIn : String → Option ℤ) (saas : List SaasEntry)
    (redis : String → Option String) (d : Destination) (s : SaasEntry) : Prop where
  mem : s ∈ saas
  ptr : ∃ name, redis ("dns:ptr:" ++ d.dstIp) = some name ∧ name ≠ ""
  id : ∃ text, redis ("dns:saas:" ++ d.dstIp) = some text ∧ idIn text = some s.id

/-- The application comes before the other one in priority, then prefix length. -/
def Outranks (a b : ManualApp) : Prop :=
  b.priority < a.priority ∨ b.priority = a.priority ∧ prefixlenOf b < prefixlenOf a

/-- The entry comes before the other one in priority, then length of the pattern, then
the smaller id. -/
def SaasOutranks (s t : SaasEntry) : Prop :=
  t.priority < s.priority ∨ t.priority = s.priority ∧
    (t.pattern.length < s.pattern.length ∨ t.pattern.length = s.pattern.length ∧ s.id < t.id)

/-- A default for the port and protocol of the flow. -/
def HasPort (ports : List PortDefault) (d : Destination) : Prop :=
  ∃ p ∈ ports, p.port = d.dstPort ∧ p.proto = d.proto

/-- The declared precedence: every kind is given exactly when its stage finds something
and no earlier one does, with the best match of the stage; an address is queued for
the DNS worker exactly when the names gave nothing and nothing is cached for it. -/
structure Precedence (idIn : String → Option ℤ) (lower : String → String)
    (manual : List ManualApp) (saas : List SaasEntry) (ports : List PortDefault)
    (redis : String → Option String) (d : Destination) (result : AppCandidate × List String) :
    Prop where
  manual_iff : result.1.labelKind = .manual ↔ ∃ a, Matching manual d a
  manual_best : result.1.labelKind = .manual → ∃ a, Matching manual d a ∧
    result.1 = ⟨.manual, a.name, some a.id⟩ ∧ ∀ b, Matching manual d b → ¬ Outranks b a
  saas_iff : result.1.labelKind = .saas ↔ (¬ ∃ a, Matching manual d a) ∧ ∃ s, Named lower saas d s
  saas_best : result.1.labelKind = .saas → ∃ s, Named lower saas d s ∧
    result.1 = ⟨.saas, s.name, some s.id⟩ ∧ ∀ t, Named lower saas d t → ¬ SaasOutranks t s
  ptr_iff : result.1.labelKind = .ptr ↔ (¬ ∃ a, Matching manual d a) ∧
    (¬ ∃ s, Named lower saas d s) ∧ ∃ s, Pointed idIn saas redis d s
  ptr_entry : result.1.labelKind = .ptr → ∃ s, Pointed idIn saas redis d s ∧
    result.1 = ⟨.ptr, s.name, some s.id⟩
  port_iff : result.1.labelKind = .port ↔ (¬ ∃ a, Matching manual d a) ∧
    (¬ ∃ s, Named lower saas d s) ∧ (¬ ∃ s, Pointed idIn saas redis d s) ∧ HasPort ports d
  port_entry : result.1.labelKind = .port → ∃ p ∈ ports, p.port = d.dstPort ∧
    p.proto = d.proto ∧ result.1 = ⟨.port, p.name, none⟩
  raw_iff : result.1.labelKind = .raw ↔ (¬ ∃ a, Matching manual d a) ∧
    (¬ ∃ s, Named lower saas d s) ∧ (¬ ∃ s, Pointed idIn saas redis d s) ∧ ¬ HasPort ports d
  raw_entry : result.1.labelKind = .raw →
    result.1 = ⟨.raw, d.dstIp ++ ":" ++ toString d.dstPort, none⟩
  queued : ((¬ ∃ a, Matching manual d a) ∧ (¬ ∃ s, Named lower saas d s) ∧
      redis ("dns:ptr:" ++ d.dstIp) = none → result.2 = [d.dstIp]) ∧
    (¬ ((¬ ∃ a, Matching manual d a) ∧ (¬ ∃ s, Named lower saas d s) ∧
      redis ("dns:ptr:" ++ d.dstIp) = none) → result.2 = [])

/-! ## The stages -/

lemma load_eq_some_iff (manual : List ManualApp) (saas : List SaasEntry)
    (ports : List PortDefault) (r : AppResolver) :
    load manual saas ports = some r ↔ (∀ a ∈ manual, a.network.isSome = true) ∧
      r = ⟨sortedBy ManualApp.sortKey manual, sortedBy SaasEntry.sortKey saas,
        ports.foldl (fun d p => d.set p.key p) .empty⟩ := by
  unfold load
  split_ifs with h
  · rw [Option.some.injEq]
    exact ⟨fun he => ⟨h, he.symm⟩, fun he => he.2.symm⟩
  · exact iff_of_false (by simp) fun he => h he.1

lemma covers_iff (a : ManualApp) (ip : Address) (port proto : ℤ) :
    a.covers ip port proto = true ↔ (∃ network, a.network = some network ∧
      network.version = ip.version ∧
      ip.ip &&& ipIntFromPrefix network.version network.prefixlen = network.networkAddress) ∧
      (∀ p ∈ a.proto, p = proto) ∧ (∀ least ∈ a.portMin, least ≤ port) ∧
      ∀ greatest ∈ a.portMax, port ≤ greatest := by
  simp only [ManualApp.covers, Network.contains, Bool.and_eq_true, Option.any_eq_true,
    Option.all_eq_true, decide_eq_true_eq, and_assoc, Option.mem_def]

lemma matching_iff (manual : List ManualApp) (d : Destination) (a : ManualApp) :
    Matching manual d a ↔ a ∈ manual ∧ ∃ ip, ipAddress d.dstIp.toList = some ip ∧
      a.covers ip d.dstPort d.proto = true := by
  simp only [covers_iff]
  constructor
  · intro h
    obtain ⟨ip, network, hip, hnet, hmatch⟩ := h.address
    exact ⟨h.mem, ip, hip, ⟨network, hnet, hmatch⟩, h.proto, h.portMin, h.portMax⟩
  · rintro ⟨hmem, ip, hip, ⟨network, hnet, hmatch⟩, hproto, hmin, hmax⟩
    exact ⟨hmem, ⟨ip, network, hip, hnet, hmatch⟩, hproto, hmin, hmax⟩

lemma not_outranks_of_sortKey_le {a b : ManualApp} (h : a.sortKey ≤ b.sortKey) :
    ¬ Outranks b a := by
  rw [ManualApp.sortKey, ManualApp.sortKey, Prod.Lex.toLex_le_toLex] at h
  unfold Outranks prefixlenOf
  omega

lemma not_saasOutranks_of_sortKey_le {s t : SaasEntry} (h : s.sortKey ≤ t.sortKey) :
    ¬ SaasOutranks t s := by
  simp only [SaasEntry.sortKey, Prod.Lex.toLex_le_toLex] at h
  unfold SaasOutranks
  omega

section Stages

variable {manual : List ManualApp} {saas : List SaasEntry} {ports : List PortDefault}
  {r : AppResolver}

lemma manualHit_best (hload : load manual saas ports = some r) {d : Destination} {a : ManualApp}
    (h : r.manualHit d.dstIp d.dstPort d.proto = some a) :
    Matching manual d a ∧ ∀ b, Matching manual d b → ¬ Outranks b a := by
  obtain ⟨_, rfl⟩ := (load_eq_some_iff manual saas ports r).mp hload
  obtain ⟨ip, hip, hfind⟩ := Option.bind_eq_some_iff.mp h
  obtain ⟨hmem, hcovers, hleast⟩ := find?_sortedBy_least hfind
  refine ⟨(matching_iff manual d a).mpr ⟨hmem, ip, hip, hcovers⟩, fun b hb => ?_⟩
  obtain ⟨hbmem, ip', hip', hbcovers⟩ := (matching_iff manual d b).mp hb
  obtain rfl := Option.some.inj (hip.symm.trans hip')
  exact not_outranks_of_sortKey_le (hleast b hbmem hbcovers)

lemma manualHit_none (hload : load manual saas ports = some r) {d : Destination}
    (h : r.manualHit d.dstIp d.dstPort d.proto = none) : ¬ ∃ a, Matching manual d a := by
  obtain ⟨_, rfl⟩ := (load_eq_some_iff manual saas ports r).mp hload
  rintro ⟨a, ha⟩
  obtain ⟨hmem, ip, hip, hcovers⟩ := (matching_iff manual d a).mp ha
  rw [manualHit, hip, Option.bind_some, List.find?_eq_none] at h
  exact h a ((mem_sortedBy _ _ _).mpr hmem) hcovers

lemma fqdnHit_eq (lower : String → String) (r : AppResolver) (fqdn : Option String) :
    r.fqdnHit lower fqdn = r.saasSorted.find? fun s =>
      fqdn.any fun name => name ≠ "" ∧ (lower s.pattern).toList <:+ (lower name).toList := by
  cases fqdn with
  | none => exact (List.find?_eq_none.mpr (by simp)).symm
  | some name =>
    by_cases hname : name = ""
    · rw [fqdnHit, if_pos hname]
      exact (List.find?_eq_none.mpr (by simp [hname])).symm
    · rw [fqdnHit, if_neg hname, saasHit]
      congr 1
      funext s
      rw [Bool.eq_iff_iff, List.isSuffixOf_iff_suffix, Option.any_some, decide_eq_true_eq]
      exact (and_iff_right hname).symm

lemma named_iff (lower : String → String) (saas : List SaasEntry) (d : Destination)
    (s : SaasEntry) : Named lower saas d s ↔ s ∈ saas ∧ (d.firewallFqdn.any fun name =>
      name ≠ "" ∧ (lower s.pattern).toList <:+ (lower name).toList) = true := by
  simp only [Option.any_eq_true, decide_eq_true_eq]
  exact ⟨fun h => ⟨h.mem, h.suffix⟩, fun h => ⟨h.1, h.2⟩⟩

lemma fqdnHit_best (hload : load manual saas ports = some r) {lower : String → String}
    {d : Destination} {s : SaasEntry} (h : r.fqdnHit lower d.firewallFqdn = some s) :
    Named lower saas d s ∧ ∀ t, Named lower saas d t → ¬ SaasOutranks t s := by
  obtain ⟨_, rfl⟩ := (load_eq_some_iff manual saas ports r).mp hload
  rw [fqdnHit_eq] at h
  obtain ⟨hmem, hnamed, hleast⟩ := find?_sortedBy_least h
  refine ⟨(named_iff lower saas d s).mpr ⟨hmem, hnamed⟩, fun t ht => ?_⟩
  obtain ⟨htmem, htnamed⟩ := (named_iff lower saas d t).mp ht
  exact not_saasOutranks_of_sortKey_le (hleast t htmem htnamed)

lemma fqdnHit_none (hload : load manual saas ports = some r) {lower : String → String}
    {d : Destination} (h : r.fqdnHit lower d.firewallFqdn = none) :
    ¬ ∃ s, Named lower saas d s := by
  obtain ⟨_, rfl⟩ := (load_eq_some_iff manual saas ports r).mp hload
  rintro ⟨s, hs⟩
  obtain ⟨hmem, hnamed⟩ := (named_iff lower saas d s).mp hs
  rw [fqdnHit_eq, List.find?_eq_none] at h
  exact h s ((mem_sortedBy _ _ _).mpr hmem) hnamed

/-- The number that the code reads in the text. -/
def numberIn (text : String) : Option ℤ := some ((int? text.toList).getD (-1))

lemma ptrHit_entry (hload : load manual saas ports = some r) {redis : String → Option String}
    {d : Destination} {s : SaasEntry} (h : r.ptrHit redis d.dstIp = some s) :
    Pointed numberIn saas redis d s := by
  obtain ⟨_, rfl⟩ := (load_eq_some_iff manual saas ports r).mp hload
  unfold ptrHit at h
  cases hptr : redis ("dns:ptr:" ++ d.dstIp) with
  | none => simp [hptr] at h
  | some name =>
    by_cases hname : name = ""
    · simp [hptr, hname] at h
    cases hsaas : redis ("dns:saas:" ++ d.dstIp) with
    | none => simp [hptr, hname, hsaas] at h
    | some text =>
      simp only [hptr, hname, hsaas, if_false] at h
      have hid : s.id = (int? text.toList).getD (-1) := by simpa using List.find?_some h
      have hmem := (mem_sortedBy _ _ _).mp (List.mem_of_find?_eq_some h)
      exact ⟨hmem, ⟨name, hptr, hname⟩, ⟨text, hsaas, by rw [numberIn, hid]⟩⟩

lemma ptrHit_none (hload : load manual saas ports = some r) {redis : String → Option String}
    {d : Destination} (h : r.ptrHit redis d.dstIp = none) :
    ¬ ∃ s, Pointed numberIn saas redis d s := by
  obtain ⟨_, rfl⟩ := (load_eq_some_iff manual saas ports r).mp hload
  rintro ⟨s, hmem, ⟨name, hptr, hname⟩, ⟨text, hsaas, hid⟩⟩
  unfold ptrHit at h
  simp only [hptr, hname, hsaas, if_false, List.find?_eq_none, decide_eq_true_eq] at h
  exact h s ((mem_sortedBy _ _ _).mpr hmem) (Option.some.inj hid).symm

lemma portHit_entry (hload : load manual saas ports = some r) {d : Destination}
    {p : PortDefault} (h : r.portDefaults.get? (d.dstPort, d.proto) = some p) :
    p ∈ ports ∧ p.port = d.dstPort ∧ p.proto = d.proto := by
  obtain ⟨_, rfl⟩ := (load_eq_some_iff manual saas ports r).mp hload
  rw [Dict.get?_foldl_set, Dict.get?_empty, Option.or_none] at h
  have hkey : p.key = (d.dstPort, d.proto) := by simpa using List.find?_some h
  exact ⟨List.mem_reverse.mp (List.mem_of_find?_eq_some h), Prod.mk.inj hkey⟩

lemma portHit_none (hload : load manual saas ports = some r) {d : Destination}
    (h : r.portDefaults.get? (d.dstPort, d.proto) = none) : ¬ HasPort ports d := by
  obtain ⟨_, rfl⟩ := (load_eq_some_iff manual saas ports r).mp hload
  rintro ⟨p, hp, hport, hproto⟩
  rw [Dict.get?_foldl_set, Dict.get?_empty, Option.or_none, List.find?_eq_none] at h
  refine h p (List.mem_reverse.mpr hp) ?_
  simp [PortDefault.key, hport, hproto]

end Stages

/-! ## The precedence -/

/-- The stages after the names, where these have given nothing. -/
lemma resolveAddress_precedence (lower : String → String) {manual : List ManualApp}
    {saas : List SaasEntry} {ports : List PortDefault} {r : AppResolver}
    (hload : load manual saas ports = some r) (redis : String → Option String)
    {d : Destination} (hmanual : ¬ ∃ a, Matching manual d a)
    (hnamed : ¬ ∃ s, Named lower saas d s) :
    Precedence numberIn lower manual saas ports redis d (r.resolveAddress redis d,
      if redis ("dns:ptr:" ++ d.dstIp) = none then [d.dstIp] else []) := by
  have hqueued : (redis ("dns:ptr:" ++ d.dstIp) = none →
        (if redis ("dns:ptr:" ++ d.dstIp) = none then [d.dstIp] else []) = [d.dstIp]) ∧
      (¬ redis ("dns:ptr:" ++ d.dstIp) = none →
        (if redis ("dns:ptr:" ++ d.dstIp) = none then [d.dstIp] else []) = []) :=
    ⟨fun h => if_pos h, fun h => if_neg h⟩
  unfold resolveAddress
  cases hptr : r.ptrHit redis d.dstIp with
  | some s =>
    have hs := ptrHit_entry hload hptr
    have hex : ∃ s, Pointed numberIn saas redis d s := ⟨s, hs⟩
    constructor <;> simp only [hmanual, hnamed, hex, not_true_eq_false, not_false_eq_true,
      true_and, false_and, and_self, reduceCtorEq, false_imp_iff, forall_const]
    · exact ⟨s, hs, rfl⟩
    · exact hqueued
  | none =>
    have hnoptr := ptrHit_none hload hptr
    cases hport : r.portDefaults.get? (d.dstPort, d.proto) with
    | some p =>
      obtain ⟨hp, hkey⟩ := portHit_entry hload hport
      have hex : HasPort ports d := ⟨p, hp, hkey⟩
      constructor <;> simp only [hmanual, hnamed, hnoptr, hex, not_true_eq_false,
        not_false_eq_true, true_and, and_self, reduceCtorEq, false_imp_iff, forall_const, and_false]
      · exact ⟨p, hp, hkey.1, hkey.2, rfl⟩
      · exact hqueued
    | none =>
      have hnoport := portHit_none hload hport
      constructor <;> simp only [hmanual, hnamed, hnoptr, hnoport, not_false_eq_true, true_and,
        and_self, reduceCtorEq, false_imp_iff, forall_const, and_false]
      exact hqueued

lemma resolve_precedence (lower : String → String) {manual : List ManualApp}
    {saas : List SaasEntry} {ports : List PortDefault} {r : AppResolver}
    (hload : load manual saas ports = some r) (redis : String → Option String)
    (d : Destination) :
    Precedence numberIn lower manual saas ports redis d (r.resolve lower redis d) := by
  unfold resolve
  cases hmanual : r.manualHit d.dstIp d.dstPort d.proto with
  | some a =>
    obtain ⟨ha, hbest⟩ := manualHit_best hload hmanual
    have hex : ∃ a, Matching manual d a := ⟨a, ha⟩
    constructor <;> simp only [hex, not_true_eq_false, false_and, reduceCtorEq, false_imp_iff,
      not_false_eq_true, forall_const, and_self]
    exact ⟨a, ha, rfl, hbest⟩
  | none =>
    have hnomanual := manualHit_none hload hmanual
    cases hfqdn : r.fqdnHit lower d.firewallFqdn with
    | some s =>
      obtain ⟨hs, hbest⟩ := fqdnHit_best hload hfqdn
      have hex : ∃ s, Named lower saas d s := ⟨s, hs⟩
      constructor <;> simp only [hnomanual, hex, not_true_eq_false, not_false_eq_true, true_and,
        false_and, reduceCtorEq, false_imp_iff, forall_const, and_self]
      exact ⟨s, hs, rfl, hbest⟩
    | none => exact resolveAddress_precedence lower hload redis hnomanual (fqdnHit_none hload hfqdn)

/-- Two readings of `dns:saas` that point to the same entries. -/
lemma Precedence.congr {idIn idIn' : String → Option ℤ} {lower : String → String}
    {manual : List ManualApp} {saas : List SaasEntry} {ports : List PortDefault}
    {redis : String → Option String} {d : Destination} {result : AppCandidate × List String}
    (hiff : ∀ s, Pointed idIn saas redis d s ↔ Pointed idIn' saas redis d s)
    (h : Precedence idIn lower manual saas ports redis d result) :
    Precedence idIn' lower manual saas ports redis d result where
  manual_iff := h.manual_iff
  manual_best := h.manual_best
  saas_iff := h.saas_iff
  saas_best := h.saas_best
  ptr_iff := by simpa only [hiff] using h.ptr_iff
  ptr_entry := by simpa only [hiff] using h.ptr_entry
  port_iff := by simpa only [hiff] using h.port_iff
  port_entry := h.port_entry
  raw_iff := by simpa only [hiff] using h.raw_iff
  raw_entry := h.raw_entry
  queued := h.queued

/-- The id that a text holds, if it is a number. -/
def idIn (text : String) : Option ℤ := int? text.toList

lemma pointed_numberIn_iff {saas : List SaasEntry} (hids : ∀ s ∈ saas, s.id ≠ -1)
    (redis : String → Option String) (d : Destination) (s : SaasEntry) :
    Pointed numberIn saas redis d s ↔ Pointed idIn saas redis d s := by
  have hread : ∀ text, s ∈ saas → (numberIn text = some s.id ↔ idIn text = some s.id) := by
    intro text hs
    unfold numberIn idIn
    cases int? text.toList with
    | none => simpa using (hids s hs).symm
    | some n => simp
  constructor
  · rintro ⟨hmem, hptr, text, htext, hid⟩
    exact ⟨hmem, hptr, text, htext, (hread text hmem).mp hid⟩
  · rintro ⟨hmem, hptr, text, htext, hid⟩
    exact ⟨hmem, hptr, text, htext, (hread text hmem).mpr hid⟩

/-- Resolution of every flow on every loaded catalog follows the precedence, with the
best match at each stage; a text under `dns:saas` that is no number stands for -1,
which makes no difference unless an entry has that id. -/
theorem resolve_follows_precedence (lower : String → String) (manual : List ManualApp)
    (saas : List SaasEntry) (ports : List PortDefault) (r : AppResolver)
    (hload : load manual saas ports = some r) (redis : String → Option String)
    (d : Destination) :
    Precedence numberIn lower manual saas ports redis d (r.resolve lower redis d) ∧
      ((∀ s ∈ saas, s.id ≠ -1) →
        Precedence idIn lower manual saas ports redis d (r.resolve lower redis d)) := by
  have hprec := resolve_precedence lower hload redis d
  exact ⟨hprec, fun hids => hprec.congr (pointed_numberIn_iff hids redis d)⟩

/-- Two networks, an entry, a port, and a flow that all of them match. -/
def overlapManual : List ManualApp :=
  [⟨1, "intranet", "10.0.0.0/8", none, none, none, 100⟩,
    ⟨2, "payroll", "10.1.0.0/16", some 443, none, some 6, 100⟩]

def overlapSaas : List SaasEntry := [⟨3, "Zoom", ".zoom.us", 100⟩]

def overlapPorts : List PortDefault := [⟨443, 6, "HTTPS"⟩]

/-- The longer prefix gives the label. -/
theorem resolve_follows_precedence_overlap :
    ∃ r, load overlapManual overlapSaas overlapPorts = some r ∧
      (r.resolve id (fun _ => none) ⟨"10.1.2.3", 443, 6, some "eu.zoom.us"⟩).1 =
        ⟨.manual, "payroll", some 2⟩ ∧
      Precedence numberIn id overlapManual overlapSaas overlapPorts (fun _ => none)
        ⟨"10.1.2.3", 443, 6, some "eu.zoom.us"⟩
        (r.resolve id (fun _ => none) ⟨"10.1.2.3", 443, 6, some "eu.zoom.us"⟩) := by
  have hnetworks : ∀ a ∈ overlapManual, a.network.isSome = true := by decide +kernel
  have hload := (load_eq_some_iff overlapManual overlapSaas overlapPorts _).mpr ⟨hnetworks, rfl⟩
  refine ⟨_, hload, by decide +kernel, ?_⟩
  exact (resolve_follows_precedence id _ _ _ _ hload _ _).1

/-- With an entry of id -1, a text that is no number points to it. -/
theorem garbledSaasKey_points : ∃ r, load [] [⟨-1, "Zoom", ".zoom.us", 100⟩] [] = some r ∧
    ¬ Precedence idIn id [] [⟨-1, "Zoom", ".zoom.us", 100⟩] []
      (fun key => some (if key = "dns:saas:10.1.2.3" then "x" else "host.zoom.us"))
      ⟨"10.1.2.3", 443, 6, none⟩
      (r.resolve id (fun key => some (if key = "dns:saas:10.1.2.3" then "x" else "host.zoom.us"))
        ⟨"10.1.2.3", 443, 6, none⟩) := by
  refine ⟨_, (load_eq_some_iff _ _ _ _).mpr ⟨by simp, rfl⟩, fun h => ?_⟩
  obtain ⟨_, _, s, _, _, text, htext, hid⟩ := h.ptr_iff.mp (by decide +kernel)
  have hread : text = "x" := by
    rw [← Option.some.inj htext]
    decide
  rw [hread] at hid
  have hnone : idIn "x" = none := by decide
  simp [hnone] at hid

end FlowDiscovery.AppResolver
