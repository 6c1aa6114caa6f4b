import WireProxy.Proofs.AccessTable
import WireProxy.Proofs.Encoding
import WireProxy.Proxy.Lowering

/-!
# Protocols that grow

A document that goes on where another one ends describes the same interfaces and then some more.
The proxies of the old interfaces stay as they are but for one thing: the access table is the only
way in which an interface can reach into the code of another one, and so the new interfaces may be
granted access to the old proxies.
-/

namespace WireProxy

namespace Loading

open Xml (Element)

section Origins

variable {o o' : Origin} {interfaceName owner : String} {e : Element}

/-! The path is named by faults only.  What is scanned depends on the stem alone. -/

theorem argument_eq_ok_congr (stems : o.stem = o'.stem) {arg : Argument} :
    argument o interfaceName owner e = .ok arg ↔ argument o' interfaceName owner e = .ok arg := by
  rw [argument_eq_ok, argument_eq_ok, stems]

theorem arguments_eq_ok_congr (stems : o.stem = o'.stem) {args : List Argument} :
    arguments o interfaceName owner e = .ok args ↔
      arguments o' interfaceName owner e = .ok args := by
  rw [arguments_eq_ok, arguments_eq_ok]
  simp only [argument_eq_ok_congr stems]

theorem request_eq_ok_congr (stems : o.stem = o'.stem) {name : String} {opcode : UInt32}
    {r : Request} :
    request o interfaceName name opcode e = .ok r ↔
      request o' interfaceName name opcode e = .ok r := by
  rw [request_eq_ok, request_eq_ok, arguments_eq_ok_congr stems]

theorem requests_eq_ok_congr (stems : o.stem = o'.stem) {next : UInt32}
    {destroy recorded : Option UInt32} {es : List Element} {rs : List Request} :
    requests o interfaceName next destroy es = .ok (rs, recorded) ↔
      requests o' interfaceName next destroy es = .ok (rs, recorded) := by
  induction es generalizing next destroy rs with
  | nil => rw [requests_nil_eq_ok, requests_nil_eq_ok]
  | cons e es ih =>
      rw [requests_cons_eq_ok, requests_cons_eq_ok]
      simp only [request_eq_ok_congr stems, ih]

theorem event_eq_ok_congr (stems : o.stem = o'.stem) {message : Message} :
    event o interfaceName e = .ok message ↔ event o' interfaceName e = .ok message := by
  rw [event_eq_ok, event_eq_ok, arguments_eq_ok_congr stems]

theorem enumeration_eq_ok_congr (o o' : Origin) {scanned : Enumeration} :
    enumeration o interfaceName e = .ok scanned ↔
      enumeration o' interfaceName e = .ok scanned := by
  rw [enumeration_eq_ok, enumeration_eq_ok]
  simp only [enumEntry_eq_ok]

theorem interface_eq_ok_congr (stems : o.stem = o'.stem) {i : Interface} :
    interface o e = .ok i ↔ interface o' e = .ok i := by
  rw [interface_eq_ok, interface_eq_ok, interfaceName_eq_ok, interfaceName_eq_ok, version_eq_ok,
    version_eq_ok, requests_eq_ok_congr stems, stems]
  simp only [event_eq_ok_congr stems, enumeration_eq_ok_congr o o']

end Origins

/-- A scan of more elements begins with what the scan of the first ones gives. -/
theorem interfaces_append {o o' : Origin} {before after : List Element} {is js : List Interface}
    (scanned : List.Forall₂ (fun e i => interface o e = .ok i) before is)
    (scanned' : List.Forall₂ (fun e i => interface o' e = .ok i) (before ++ after) js)
    (stems : o.stem = o'.stem) :
    ∃ added, List.Forall₂ (fun e i => interface o' e = .ok i) after added ∧ js = is ++ added := by
  have first := List.forall₂_take before.length scanned'
  have others := List.forall₂_drop before.length scanned'
  rw [List.take_left] at first
  rw [List.drop_left] at others
  have same : is = js.take before.length := by
    refine List.right_unique_forall₂' ?_ scanned (first.imp fun e i => ?_)
    · intro e i j found found'
      rw [found] at found'
      exact Except.ok.inj found'
    · exact (interface_eq_ok_congr stems).mpr
  exact ⟨_, others, by rw [same, List.take_append_drop]⟩

end Loading

namespace Proxy

/-- The new proxy is the old one, with access for those of the added interfaces that need it. -/
structure GrownBy (added : List Interface) (old new : Proxy) : Prop where
  unchanged : new = { old with grants := new.grants }
  sorted : new.grants.Pairwise (· < ·)
  mem_grants : ∀ name, name ∈ new.grants ↔
    name ∈ old.grants ∨ ∃ i ∈ added, i.name = name ∧ i.RefersTo old.name

end Proxy

namespace Protocol

variable {p q : Protocol} {added : List Interface}

theorem mem_grantedTo_append (more : q.interfaces = p.interfaces ++ added) {target name : String} :
    name ∈ q.access.grantedTo target ↔
      name ∈ p.access.grantedTo target ∨
        ∃ i ∈ added, i.name = name ∧ i.RefersTo target := by
  rw [mem_grantedTo, mem_grantedTo, more]
  simp only [List.mem_append, or_and_right, exists_or]

theorem proxies_append (more : q.interfaces = p.interfaces ++ added) (settings : Settings) :
    (q.binding settings).proxies =
      (p.generated settings).map (·.proxy settings.stem q.access) ++
        (added.filter (!settings.isHandMaintained ·.name)).map
          (·.proxy settings.stem q.access) := by
  rw [binding, Binding.ofProxies, generated, more, List.filter_append, List.map_append, generated]

theorem grownBy_proxy (more : q.interfaces = p.interfaces ++ added) (stem : String)
    (i : Interface) : Proxy.GrownBy added (i.proxy stem p.access) (i.proxy stem q.access) where
  unchanged := rfl
  sorted := Access.grantedTo_sorted q.access i.name
  mem_grants _ := mem_grantedTo_append more

/-- More interface elements add interfaces at the end, leave the proxies that were there alone but
for their grants, and add exactly the grants that the new interfaces need. -/
theorem load_append_binding {stem path path' text text' : String} {root root' : Xml.Element}
    {before after : List Xml.Element}
    (parsed : Xml.root? text = some root) (parsed' : Xml.root? text' = some root')
    (elements : root.children "interface" = before)
    (elements' : root'.children "interface" = before ++ after)
    (loaded : Protocol.load ⟨path, stem⟩ text = .ok p)
    (loaded' : Protocol.load ⟨path', stem⟩ text' = .ok q) :
    ∃ added, List.Forall₂ (fun e i => Loading.interface ⟨path', stem⟩ e = .ok i) after added ∧
      q.interfaces = p.interfaces ++ added ∧
      ∀ settings : Settings, ∃ kept fresh, (q.binding settings).proxies = kept ++ fresh ∧
        List.Forall₂ (Proxy.GrownBy added) (p.binding settings).proxies kept ∧
        fresh = (added.filter (!settings.isHandMaintained ·.name)).map
          (·.proxy settings.stem q.access) ∧
        ∀ a ∈ fresh, a.grants.Pairwise (· < ·) ∧
          ∀ name, name ∈ a.grants ↔ name ∈ p.access.grantedTo a.name ∨
            ∃ i ∈ added, i.name = name ∧ i.RefersTo a.name := by
  obtain ⟨found, foundEq, -, -, scanned, -⟩ := Protocol.load_eq_ok.mp loaded
  obtain ⟨found', foundEq', -, -, scanned', -⟩ := Protocol.load_eq_ok.mp loaded'
  obtain rfl : root = found := Option.some.inj (parsed.symm.trans foundEq)
  obtain rfl : root' = found' := Option.some.inj (parsed'.symm.trans foundEq')
  rw [elements] at scanned
  rw [elements'] at scanned'
  obtain ⟨added, others, more⟩ := Loading.interfaces_append scanned scanned' rfl
  refine ⟨added, others, more, fun settings => ⟨_, _, proxies_append more settings, ?_, rfl, ?_⟩⟩
  · rw [binding, Binding.ofProxies, List.forall₂_map_left_iff, List.forall₂_map_right_iff,
      List.forall₂_same]
    intro i _
    exact grownBy_proxy more settings.stem i
  · intro a member
    obtain ⟨i, -, rfl⟩ := List.mem_map.mp member
    have grown := grownBy_proxy more settings.stem i
    exact ⟨grown.sorted, grown.mem_grants⟩

end Protocol

/-- A surface, and an output that a surface enters. -/
def surfaceProtocol : Protocol where
  name := some "base"
  entries :=
    [("surface", {
        name := "surface"
        events := [⟨"enter", [⟨"output", .object, some "output", false⟩]⟩] }),
      ("output", { name := "output" })]
  keys_nodup := by decide

/-- An interface that refers to the surface and to itself. -/
def popupInterface : Interface where
  name := "popup"
  requests :=
    [{ name := "attach", opcode := 0,
       args := [⟨"parent", .object, some "popup", true⟩, ⟨"to", .object, some "surface", false⟩] }]

def popupProtocol : Protocol where
  name := some "extended"
  entries := surfaceProtocol.entries ++ [("popup", popupInterface)]
  keys_nodup := by decide

theorem Protocol.load_append_binding_popup :
    Protocol.load ⟨"base.xml", "wl_"⟩ (surfaceProtocol.document "wl_") = .ok surfaceProtocol ∧
      Protocol.load ⟨"more.xml", "wl_"⟩ (popupProtocol.document "wl_") = .ok popupProtocol ∧
      ∃ added kept fresh, popupProtocol.interfaces = surfaceProtocol.interfaces ++ added ∧
        (popupProtocol.binding {}).proxies = kept ++ fresh ∧
        List.Forall₂ (Proxy.GrownBy added) (surfaceProtocol.binding {}).proxies kept ∧
        kept.map (·.grants) = [["popup"], ["surface"]] := by
  have old : surfaceProtocol.WellFormed := by decide +kernel
  have new : popupProtocol.WellFormed := by decide +kernel
  have loaded := Protocol.load_document ⟨"base.xml", "wl_"⟩ old
  have loaded' := Protocol.load_document ⟨"more.xml", "wl_"⟩ new
  have elements : (popupProtocol.toElement "wl_").children "interface" =
      surfaceProtocol.interfaces.map (·.toElement "wl_") ++ [popupInterface.toElement "wl_"] :=
    Protocol.children_toElement "wl_" popupProtocol
  obtain ⟨added, -, more, grown⟩ := Protocol.load_append_binding
    (Protocol.root?_document "wl_" old) (Protocol.root?_document "wl_" new)
    (Protocol.children_toElement "wl_" _) elements loaded loaded'
  obtain ⟨kept, fresh, proxies, related, -⟩ := grown {}
  have size : kept.length = 2 := by
    rw [← related.length_eq]
    decide +kernel
  have granted : (popupProtocol.binding {}).proxies.map (·.grants) =
      [["popup"], ["surface"]] ++ [["popup"]] := by
    decide +kernel
  rw [proxies, List.map_append] at granted
  refine ⟨loaded, loaded', added, kept, fresh, more, proxies, related, ?_⟩
  exact (List.append_inj granted (by simpa using size)).1

end WireProxy
