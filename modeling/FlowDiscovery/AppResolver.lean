import FlowDiscovery.KeyedSort
import FlowDiscovery.PyIpaddress
import FlowDiscovery.SankeyPublisher

/-!
# Labels of destinations

A destination is labelled by the first manual application that covers it, then by
the SaaS entry of its name, then by the entry the DNS worker found for its
address, then by its port. Manual applications are sorted by priority and prefix
length, SaaS entries also by their id. So two applications that tie on a
destination keep the order in which the database returned them.
-/
namespace FlowDiscovery
open PyText PyIpaddress

structure ManualApp where
  id : ℤ
  name : String
  cidr : String
  portMin : Option ℤ
  portMax : Option ℤ
  proto : Option ℤ
  priority : ℤ
  deriving DecidableEq, Repr

structure SaasEntry where
  id : ℤ
  name : String
  pattern : String
  priority : ℤ
  deriving DecidableEq, Repr

structure PortDefault where
  port : ℤ
  proto : ℤ
  name : String
  deriving DecidableEq, Repr

namespace ManualApp

/-- `ipaddress.ip_network(a.cidr)`. -/
def network (a : ManualApp) : Option Network := ipNetwork true a.cidr.toList

/-- The sort key of a loaded application; its network has been parsed. -/
def sortKey (a : ManualApp) : ℤ ×ₗ ℤ :=
  toLex (-a.priority, -((a.network.map Network.prefixlen).getD 0 : ℤ))

/-- The checks of `_manual_hit` on one application. -/
def covers (a : ManualApp) (ip : Address) (port proto : ℤ) : Bool :=
  a.network.any (fun network => network.contains ip) &&
    a.proto.all (fun p => p = proto) &&
    a.portMin.all (fun least => least ≤ port) &&
    a.portMax.all (fun greatest => port ≤ greatest)

end ManualApp

def SaasEntry.sortKey (s : SaasEntry) : ℤ ×ₗ ℤ ×ₗ ℤ :=
  toLex (-s.priority, toLex (-(s.pattern.length : ℤ), s.id))

def PortDefault.key (p : PortDefault) : ℤ × ℤ := (p.port, p.proto)

structure AppResolver where
  manual : List ManualApp
  saasSorted : List SaasEntry
  portDefaults : Dict (ℤ × ℤ) PortDefault

/-- A flow as `resolve` sees it; its argument `app_id` is not read. -/
structure Destination where
  dstIp : String
  dstPort : ℤ
  proto : ℤ
  firewallFqdn : Option String

namespace AppResolver

/-- `none` is the `ValueError` of a CIDR that does not parse. -/
def load (manual : List ManualApp) (saas : List SaasEntry) (portDefaults : List PortDefault) :
    Option AppResolver :=
  if ∀ a ∈ manual, a.network.isSome = true then
    some {
      manual := sortedBy ManualApp.sortKey manual
      saasSorted := sortedBy SaasEntry.sortKey saas
      portDefaults := portDefaults.foldl (fun d p => d.set p.key p) .empty }
  else none

def manualHit (r : AppResolver) (ip : String) (port proto : ℤ) : Option ManualApp :=
  (ipAddress ip.toList).bind fun address =>
    r.manual.find? fun a => a.covers address port proto

section

/- `str.lower`; nothing below depends on what it does to a letter. -/
variable (lower : String → String)

def saasHit (r : AppResolver) (fqdn : String) : Option SaasEntry :=
  r.saasSorted.find? fun s => (lower s.pattern).toList.isSuffixOf (lower fqdn).toList

/-- The entry for the name the firewall reported, if there is a name. -/
def fqdnHit (r : AppResolver) (fqdn : Option String) : Option SaasEntry :=
  match fqdn with
  | none => none
  | some name => if name = "" then none else r.saasHit lower name

/-- The entry whose id the DNS worker stored for the address. -/
def ptrHit (r : AppResolver) (redis : String → Option String) (dstIp : String) :
    Option SaasEntry :=
  match redis ("dns:ptr:" ++ dstIp) with
  | none => none
  | some ptr =>
    if ptr = "" then none
    else
      match redis ("dns:saas:" ++ dstIp) with
      | none => none
      | some text =>
        let saasId := (int? text.toList).getD (-1)
        r.saasSorted.find? fun s => s.id = saasId

/-- The lookups after the names: the reverse DNS, the port, the address itself. -/
def resolveAddress (r : AppResolver) (redis : String → Option String) (d : Destination) :
    AppCandidate :=
  match r.ptrHit redis d.dstIp with
  | some s => ⟨.ptr, s.name, some s.id⟩
  | none =>
    match r.portDefaults.get? (d.dstPort, d.proto) with
    | some p => ⟨.port, p.name, none⟩
    | none => ⟨.raw, d.dstIp ++ ":" ++ toString d.dstPort, none⟩

/-- The candidate, and what is pushed to `dns:unresolved`. -/
def resolve (r : AppResolver) (redis : String → Option String) (d : Destination) :
    AppCandidate × List String :=
  match r.manualHit d.dstIp d.dstPort d.proto with
  | some a => (⟨.manual, a.name, some a.id⟩, [])
  | none =>
    match r.fqdnHit lower d.firewallFqdn with
    | some s => (⟨.saas, s.name, some s.id⟩, [])
    | none =>
      (r.resolveAddress redis d,
        if redis ("dns:ptr:" ++ d.dstIp) = none then [d.dstIp] else [])

end

/-! ## Catalogs and the property -/

/-- The three tables with what their columns guarantee: primary keys, the unique
pattern, and a CIDR in the form in which the database writes it. -/
structure Catalog where
  manual : List ManualApp
  saas : List SaasEntry
  portDefaults : List PortDefault
  manual_ids : (manual.map ManualApp.id).Nodup
  manual_networks : ∀ a ∈ manual, a.network.isSome = true
  saas_ids : (saas.map SaasEntry.id).Nodup
  saas_patterns : (saas.map SaasEntry.pattern).Nodup
  port_keys : (portDefaults.map PortDefault.key).Nodup

/-- The label of a destination after a load of the three lists. -/
def labelOf (lower : String → String) (manual : List ManualApp) (saas : List SaasEntry)
    (portDefaults : List PortDefault) (redis : String → Option String) (d : Destination) :
    Option AppCandidate :=
  (load manual saas portDefaults).map fun r => (r.resolve lower redis d).1

/-- Every order of the rows gives every destination the same label. -/
def OrderIndependent (lower : String → String) (c : Catalog) : Prop :=
  ∀ manual saas portDefaults, manual.Perm c.manual → saas.Perm c.saas →
    portDefaults.Perm c.portDefaults → ∀ redis d,
      labelOf lower manual saas portDefaults redis d =
        labelOf lower c.manual c.saas c.portDefaults redis d

/-- The application covers the destination, and no other one that does has a
higher priority, or the same and a longer prefix. -/
def Foremost (manual : List ManualApp) (ip : Address) (port proto : ℤ) (a : ManualApp) : Prop :=
  a ∈ manual ∧ a.covers ip port proto = true ∧
    ∀ b ∈ manual, b.covers ip port proto = true → a.sortKey ≤ b.sortKey

/-- No destination has two foremost applications. -/
def TieFree (manual : List ManualApp) : Prop :=
  ∀ (dstIp : String) (ip : Address) (port proto : ℤ) (a b : ManualApp),
    ipAddress dstIp.toList = some ip → Foremost manual ip port proto a →
      Foremost manual ip port proto b → a = b

/-! ## The lookups under a reordering -/

lemma load_perm (c : Catalog) {manual : List ManualApp} (hmanual : manual.Perm c.manual)
    (saas : List SaasEntry) (portDefaults : List PortDefault) :
    load manual saas portDefaults = some {
      manual := sortedBy ManualApp.sortKey manual
      saasSorted := sortedBy SaasEntry.sortKey saas
      portDefaults := portDefaults.foldl (fun d p => d.set p.key p) .empty } := by
  have hnetworks : ∀ a ∈ manual, a.network.isSome = true := by
    intro a ha
    exact c.manual_networks a (hmanual.mem_iff.mp ha)
  rw [load, if_pos hnetworks]

lemma foremost_of_find? {manual : List ManualApp} {ip : Address} {port proto : ℤ} {a : ManualApp}
    (h : (sortedBy ManualApp.sortKey manual).find? (fun a => a.covers ip port proto) = some a) :
    Foremost manual ip port proto a := by
  obtain ⟨hmem, hcovers, hleast⟩ := find?_sortedBy_least h
  exact ⟨hmem, hcovers, hleast⟩

/-- The manual lookup does not see the order if there is at most one foremost
application. -/
lemma find?_manual_perm {manual manual' : List ManualApp} (hperm : manual'.Perm manual)
    {ip : Address} {port proto : ℤ}
    (huniq : ∀ a b, Foremost manual ip port proto a → Foremost manual ip port proto b → a = b) :
    (sortedBy ManualApp.sortKey manual').find? (fun a => a.covers ip port proto) =
      (sortedBy ManualApp.sortKey manual).find? (fun a => a.covers ip port proto) := by
  have hforemost : ∀ a, Foremost manual' ip port proto a → Foremost manual ip port proto a := by
    intro a ⟨hmem, hcovers, hleast⟩
    exact ⟨hperm.mem_iff.mp hmem, hcovers, fun b hb => hleast b (hperm.mem_iff.mpr hb)⟩
  have hnone : ∀ l : List ManualApp,
      (sortedBy ManualApp.sortKey l).find? (fun a => a.covers ip port proto) = none ↔
        ∀ a ∈ l, ¬ a.covers ip port proto = true := by
    intro l
    simp only [List.find?_eq_none, mem_sortedBy]
  cases h : (sortedBy ManualApp.sortKey manual').find? fun a => a.covers ip port proto with
  | none =>
    refine ((hnone manual).mpr fun a ha => ?_).symm
    exact (hnone manual').mp h a (hperm.mem_iff.mpr ha)
  | some a =>
    have ha : Foremost manual ip port proto a := hforemost a (foremost_of_find? h)
    cases h' : (sortedBy ManualApp.sortKey manual).find? fun a => a.covers ip port proto with
    | none => exact absurd ha.2.1 ((hnone manual).mp h' a ha.1)
    | some b => rw [huniq a b ha (foremost_of_find? h')]

lemma saasSorted_perm (c : Catalog) {saas : List SaasEntry} (hperm : saas.Perm c.saas) :
    sortedBy SaasEntry.sortKey saas = sortedBy SaasEntry.sortKey c.saas := by
  refine sortedBy_eq_of_perm hperm fun s hs t ht hkey => ?_
  -- the id is the last component of the key
  have hid : s.id = t.id := congrArg (fun k => (ofLex (ofLex k).2).2) hkey
  exact List.inj_on_of_nodup_map c.saas_ids (hperm.mem_iff.mp hs) (hperm.mem_iff.mp ht) hid

lemma portDefaults_perm (c : Catalog) {ports : List PortDefault} (hperm : ports.Perm c.portDefaults)
    (key : ℤ × ℤ) :
    (ports.foldl (fun d p => d.set p.key p) Dict.empty).get? key =
      (c.portDefaults.foldl (fun d p => d.set p.key p) Dict.empty).get? key := by
  have hreverse : ports.reverse.Perm c.portDefaults.reverse :=
    (ports.reverse_perm).trans (hperm.trans c.portDefaults.reverse_perm.symm)
  rw [Dict.get?_foldl_set, Dict.get?_foldl_set]
  congr 1
  refine find?_eq_of_perm hreverse fun p hp q hq hpk hqk => ?_
  simp only [decide_eq_true_eq] at hpk hqk
  rw [List.mem_reverse, hperm.mem_iff] at hp hq
  exact List.inj_on_of_nodup_map c.port_keys hp hq (hpk.trans hqk.symm)

/-- Resolvers that agree on the three lookups agree on every label. -/
lemma resolve_congr (lower : String → String) {r r' : AppResolver} {d : Destination}
    (hmanual : r.manualHit d.dstIp d.dstPort d.proto = r'.manualHit d.dstIp d.dstPort d.proto)
    (hsaas : r.saasSorted = r'.saasSorted)
    (hport : r.portDefaults.get? (d.dstPort, d.proto) = r'.portDefaults.get? (d.dstPort, d.proto))
    (redis : String → Option String) : r.resolve lower redis d = r'.resolve lower redis d := by
  have hfqdn : r.fqdnHit lower d.firewallFqdn = r'.fqdnHit lower d.firewallFqdn := by
    simp only [fqdnHit, saasHit, hsaas]
  have hptr : r.ptrHit redis d.dstIp = r'.ptrHit redis d.dstIp := by
    simp only [ptrHit, hsaas]
  simp only [resolve, resolveAddress, hmanual, hfqdn, hptr, hport]

theorem orderIndependent_of_tieFree (lower : String → String) (c : Catalog)
    (h : TieFree c.manual) : OrderIndependent lower c := by
  intro manual saas ports hmanual hsaas hports redis d
  rw [labelOf, labelOf, load_perm c hmanual, load_perm c (List.Perm.refl c.manual),
    Option.map_some, Option.map_some]
  congr 2
  apply resolve_congr lower _ (saasSorted_perm c hsaas) (portDefaults_perm c hports _)
  simp only [manualHit]
  cases hip : ipAddress d.dstIp.toList with
  | none => rfl
  | some ip =>
    exact find?_manual_perm hmanual fun a b ha hb =>
      h d.dstIp ip d.dstPort d.proto a b hip ha hb

/-- An order in which a foremost application comes first gives its label. -/
lemma labelOf_foremost (lower : String → String) (c : Catalog) {dstIp : String} {ip : Address}
    {port proto : ℤ} {a : ManualApp} (hip : ipAddress dstIp.toList = some ip)
    (ha : Foremost c.manual ip port proto a) (redis : String → Option String) :
    labelOf lower (a :: c.manual.erase a) c.saas c.portDefaults redis ⟨dstIp, port, proto, none⟩ =
      some ⟨.manual, a.name, some a.id⟩ := by
  obtain ⟨hmem, hcovers, hleast⟩ := ha
  have hperm : (a :: c.manual.erase a).Perm c.manual := (List.perm_cons_erase hmem).symm
  have hfind : (sortedBy ManualApp.sortKey (a :: c.manual.erase a)).find?
      (fun a => a.covers ip port proto) = some a :=
    find?_sortedBy_cons hcovers fun b hb => hleast b (List.mem_of_mem_erase hb)
  rw [labelOf, load_perm c hperm, Option.map_some]
  simp only [resolve, manualHit, hip, Option.bind_some, hfind]

/-- For every catalog: no order of the rows changes a label if and only if no
destination has two foremost manual applications. -/
theorem orderIndependent_iff_tieFree (lower : String → String) (c : Catalog) :
    OrderIndependent lower c ↔ TieFree c.manual := by
  refine ⟨fun h dstIp ip port proto a b hip ha hb => ?_, orderIndependent_of_tieFree lower c⟩
  have hfirst : ∀ x, Foremost c.manual ip port proto x →
      labelOf lower c.manual c.saas c.portDefaults (fun _ => none) ⟨dstIp, port, proto, none⟩ =
        some ⟨.manual, x.name, some x.id⟩ := by
    intro x hx
    rw [← labelOf_foremost lower c hip hx]
    exact (h (x :: c.manual.erase x) c.saas c.portDefaults (List.perm_cons_erase hx.1).symm
      (List.Perm.refl _) (List.Perm.refl _) _ _).symm
  have heq := (hfirst a ha).symm.trans (hfirst b hb)
  simp only [Option.some.injEq, AppCandidate.mk.injEq] at heq
  exact List.inj_on_of_nodup_map c.manual_ids ha.1 hb.1 heq.2.2

/-- Two applications on one network with overlapping port ranges. -/
def overlappingApps : List ManualApp :=
  [⟨1, "intranet", "10.0.0.0/8", some 80, some 443, none, 100⟩,
    ⟨2, "payroll", "10.0.0.0/8", some 443, some 8443, some 6, 100⟩]

def overlappingCatalog : Catalog where
  manual := overlappingApps
  saas := []
  portDefaults := []
  manual_ids := by decide
  manual_networks := by decide +kernel
  saas_ids := by decide
  saas_patterns := by decide
  port_keys := by decide

/-- A flow to port 443 is labelled after the application that was returned first. -/
theorem overlappingCatalog_order_dependent :
    let d : Destination := ⟨"10.1.2.3", 443, 6, none⟩
    labelOf id overlappingApps [] [] (fun _ => none) d = some ⟨.manual, "intranet", some 1⟩ ∧
      labelOf id overlappingApps.reverse [] [] (fun _ => none) d =
        some ⟨.manual, "payroll", some 2⟩ ∧
      ¬ OrderIndependent id overlappingCatalog := by
  have hfirst : labelOf id overlappingApps [] [] (fun _ => none) ⟨"10.1.2.3", 443, 6, none⟩ =
      some ⟨.manual, "intranet", some 1⟩ := by decide +kernel
  have hsecond : labelOf id overlappingApps.reverse [] [] (fun _ => none)
      ⟨"10.1.2.3", 443, 6, none⟩ = some ⟨.manual, "payroll", some 2⟩ := by decide +kernel
  refine ⟨hfirst, hsecond, fun h => ?_⟩
  have hsame := h overlappingApps.reverse [] [] (List.reverse_perm _) (List.Perm.refl _)
    (List.Perm.refl _) (fun _ => none) ⟨"10.1.2.3", 443, 6, none⟩
  have hne := hsecond.symm.trans (hsame.trans hfirst)
  revert hne
  decide

end AppResolver

end FlowDiscovery
