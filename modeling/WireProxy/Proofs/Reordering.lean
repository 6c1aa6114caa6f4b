import WireProxy.Proofs.Grants
import WireProxy.Proofs.Growth
import WireProxy.Proofs.Rearranging
import WireProxy.Proofs.Texts

/-!
# The order of interfaces

Interfaces may stand in any order in a document.  Each one is scanned on its own, access is a set
of pairs that can be granted in any order, and a proxy is made from its interface and the access
table.  So the order of the document is the order of the output and nothing else.
-/

namespace WireProxy

/-- What is sorted by names is determined by its members. -/
theorem eq_of_sorted {α : Type} {name : α → String} {xs ys : List α}
    (xsSorted : (xs.map name).Pairwise (· < ·)) (ysSorted : (ys.map name).Pairwise (· < ·))
    (same : ∀ x, x ∈ xs ↔ x ∈ ys) : xs = ys := by
  rw [List.pairwise_map] at xsSorted ysSorted
  have nodup {zs : List α} (sorted : zs.Pairwise fun x y => name x < name y) : zs.Nodup := by
    refine sorted.imp fun {x y} before same => ?_
    exact String.lt_irrefl _ (same ▸ before)
  have perm := (List.perm_ext_iff_of_nodup (nodup xsSorted) (nodup ysSorted)).mpr same
  refine perm.eq_of_pairwise (fun x y _ _ before after => ?_) xsSorted ysSorted
  exact absurd (String.lt_trans before after) (String.lt_irrefl _)

theorem names_eq_of_sorted {xs ys : List String} (xsSorted : xs.Pairwise (· < ·))
    (ysSorted : ys.Pairwise (· < ·)) (same : ∀ x, x ∈ xs ↔ x ∈ ys) : xs = ys := by
  rw [← List.map_id xs] at xsSorted
  rw [← List.map_id ys] at ysSorted
  exact eq_of_sorted xsSorted ysSorted same

theorem NameSet.insert_right_comm (s : NameSet) (x y : String) :
    (s.insert x).insert y = (s.insert y).insert x := by
  rw [NameSet.mk.injEq]
  refine names_eq_of_sorted ((s.insert x).insert y).sorted ((s.insert y).insert x).sorted
    fun z => ?_
  rw [← mem_def, ← mem_def, mem_insert, mem_insert, mem_insert, mem_insert]
  exact or_left_comm

theorem lookup_eq_some_iff_mem {α : Type} {key : String} {value : α} {rows : List (String × α)}
    (distinct : (rows.map Prod.fst).Nodup) :
    rows.lookup key = some value ↔ (key, value) ∈ rows := by
  induction rows with
  | nil => simp
  | cons row rest ih =>
      obtain ⟨first, set⟩ := row
      obtain ⟨firstOnce, restDistinct⟩ := List.nodup_cons.mp distinct
      by_cases same : key = first
      · subst same
        have later : (key, value) ∉ rest := fun member =>
          firstOnce (List.mem_map.mpr ⟨_, member, rfl⟩)
        simp [later, eq_comm]
      · simp [List.lookup_cons, beq_false_of_ne same, same, ih restDistinct]

theorem lookup_eq_some {target : String} {owners : NameSet} {rows : AccessRows}
    (sorted : (rows.map Prod.fst).Pairwise (· < ·)) :
    rows.lookup target = some owners ↔ (target, owners) ∈ rows :=
  lookup_eq_some_iff_mem (sorted.imp fun before => String.ne_of_lt before)

namespace Access

/-- A table is determined by its rows, whatever was granted first. -/
theorem ext_lookup {a b : Access} (same : ∀ target, a.rows.lookup target = b.rows.lookup target) :
    a = b := by
  have rows : a.rows = b.rows := by
    refine eq_of_sorted a.sorted b.sorted fun ⟨target, owners⟩ => ?_
    rw [← lookup_eq_some a.sorted, ← lookup_eq_some b.sorted, same]
  obtain ⟨_, _⟩ := a
  subst rows
  rfl

theorem lookup_grant (a : Access) (target owner sought : String) :
    (a.grant target owner).rows.lookup sought =
      if sought = target then some (((a.rows.lookup target).getD .empty).insert owner)
      else a.rows.lookup sought := by
  split
  · next same =>
      subst same
      exact lookup_grantIn_self _ _ _ a.sorted
  · next different => exact lookup_grantIn_of_ne _ _ _ _ different

theorem grant_right_comm (a : Access) (target owner target' owner' : String) :
    (a.grant target owner).grant target' owner' = (a.grant target' owner').grant target owner := by
  apply ext_lookup
  intro sought
  simp only [lookup_grant]
  by_cases same : target = target'
  · subst same
    by_cases found : sought = target
    · simp [found, NameSet.insert_right_comm _ owner owner']
    · simp [found]
  · by_cases found : sought = target
    · simp [found, same]
    · simp [found, Ne.symm same]

theorem foldl_grantAll_eq (is : List Interface) (a : Access) :
    is.foldl grantAll a =
      (is.flatMap fun i => (i.arguments.filterMap (·.interface)).map (·, i.name)).foldl
        (fun a need => a.grant need.1 need.2) a := by
  rw [List.foldl_flatMap]
  congr
  funext a i
  rw [List.foldl_map, grantAll]

theorem foldl_grantAll_perm {is js : List Interface} (perm : is.Perm js) (a : Access) :
    is.foldl grantAll a = js.foldl grantAll a := by
  rw [foldl_grantAll_eq, foldl_grantAll_eq]
  exact (perm.flatMap_right _).foldl_eq' (fun _ _ _ _ _ => grant_right_comm ..) a

end Access

theorem Protocol.access_perm {p q : Protocol} (perm : p.interfaces.Perm q.interfaces) :
    p.access = q.access :=
  Access.foldl_grantAll_perm perm .empty

/-! ## Documents -/

namespace Loading

open Xml (Element)

def interface? (o : Origin) (e : Element) : Option Interface :=
  (interface o e).toOption

theorem interface?_eq_some {o : Origin} {e : Element} {i : Interface} :
    interface? o e = some i ↔ interface o e = .ok i := by
  unfold interface?
  cases interface o e <;> simp [Except.toOption]

theorem interface?_congr {o o' : Origin} (stems : o.stem = o'.stem) :
    interface? o = interface? o' := by
  funext e
  ext i
  rw [interface?_eq_some, interface?_eq_some, interface_eq_ok_congr stems]

/-- The proxy that an interface element gets; there is none for what is maintained by hand. -/
def proxy? (o : Origin) (settings : Settings) (access : Access) (e : Element) : Option Proxy :=
  (interface? o e).bind fun i =>
    if settings.isHandMaintained i.name then none else some (i.proxy settings.stem access)

theorem proxy?_congr {o o' : Origin} (stems : o.stem = o'.stem) : proxy? o = proxy? o' := by
  funext settings access e
  rw [proxy?, proxy?, interface?_congr stems]

theorem filterMap_interface? {o : Origin} {es : List Element} {is : List Interface}
    (scanned : List.Forall₂ (fun e i => interface o e = .ok i) es is) :
    es.filterMap (interface? o) = is := by
  induction scanned with
  | nil => rfl
  | cons first _ ih => rw [List.filterMap_cons, interface?_eq_some.mpr first, ih]

end Loading

namespace Protocol

variable {p q : Protocol}

theorem interfaces_of_load {o : Origin} {text : String} {root : Xml.Element}
    (parsed : Xml.root? text = some root) (loaded : Protocol.load o text = .ok p) :
    p.interfaces = (root.children "interface").filterMap (Loading.interface? o) := by
  obtain ⟨found, foundEq, -, -, scanned, -⟩ := Protocol.load_eq_ok.mp loaded
  obtain rfl : root = found := Option.some.inj (parsed.symm.trans foundEq)
  exact (Loading.filterMap_interface? scanned).symm

theorem proxies_of_load {o : Origin} {text : String} {root : Xml.Element}
    (parsed : Xml.root? text = some root) (loaded : Protocol.load o text = .ok p)
    (settings : Settings) :
    (p.binding settings).proxies =
      (root.children "interface").filterMap (Loading.proxy? o settings p.access) := by
  rw [binding, Binding.ofProxies, generated, interfaces_of_load parsed loaded,
    ← List.filterMap_eq_filter, List.map_filterMap, List.filterMap_filterMap]
  refine List.filterMap_congr fun e _ => ?_
  rw [Loading.proxy?]
  congr
  funext i
  cases maintained : settings.isHandMaintained i.name <;> simp [maintained]

theorem exists_load_of_perm {o o' : Origin} {text text' : String} {root root' : Xml.Element}
    (parsed : Xml.root? text = some root) (parsed' : Xml.root? text' = some root')
    (stems : o.stem = o'.stem) (base : root'.name.base = root.name.base)
    (perm : (root.children "interface").Perm (root'.children "interface"))
    (loaded : Protocol.load o text = .ok p) : ∃ q, Protocol.load o' text' = .ok q := by
  obtain ⟨found, foundEq, isProtocol, -, scanned, -⟩ := Protocol.load_eq_ok.mp loaded
  obtain rfl : root = found := Option.some.inj (parsed.symm.trans foundEq)
  have scan : ∃ is, List.Forall₂ (fun e i => Loading.interface o' e = .ok i)
      (root'.children "interface") is := by
    rw [exists_forall₂]
    intro e member
    simp only [← Loading.interface_eq_ok_congr stems]
    exact exists_forall₂.mp ⟨_, scanned⟩ e (perm.mem_iff.mpr member)
  obtain ⟨is, scanned'⟩ := scan
  have permuted : p.interfaces.Perm is := by
    rw [← Loading.filterMap_interface? scanned, ← Loading.filterMap_interface? scanned',
      Loading.interface?_congr stems]
    exact perm.filterMap _
  have nodup : ((is.map fun i => (i.name, i)).map Prod.fst).Nodup := by
    rw [List.map_map]
    exact (permuted.map (·.name)).nodup (Protocol.nodup_names_of_load loaded)
  let q : Protocol := ⟨root'.attribute? "name", is.map fun i => (i.name, i), nodup⟩
  have interfaces : q.interfaces = is := by
    simp [q, Protocol.interfaces, Function.comp_def]
  refine ⟨q, Protocol.load_eq_ok.mpr ⟨root', parsed', base.trans isProtocol, rfl, ?_, ?_⟩⟩
  · rw [interfaces]
    exact scanned'
  · rw [interfaces]

theorem access_of_load_perm {o o' : Origin} {text text' : String} {root root' : Xml.Element}
    (parsed : Xml.root? text = some root) (parsed' : Xml.root? text' = some root')
    (stems : o.stem = o'.stem)
    (perm : (root.children "interface").Perm (root'.children "interface"))
    (loaded : Protocol.load o text = .ok p) (loaded' : Protocol.load o' text' = .ok q) :
    q.access = p.access := by
  apply access_perm
  rw [interfaces_of_load parsed loaded, interfaces_of_load parsed' loaded',
    Loading.interface?_congr stems]
  exact perm.symm.filterMap _

/-- Interface elements in another order make another document, which loads if and only if the first
one does and differs in the order of the proxies alone. -/
theorem load_withChildren (stem path path' : String) {text : String} {root : Xml.Element}
    {es : List Xml.Element} (parsed : Xml.root? text = some root)
    (perm : (root.children "interface").Perm es) :
    (∃ text', Xml.root? text' = some (root.withChildren "interface" es)) ∧
    ∀ text', Xml.root? text' = some (root.withChildren "interface" es) →
      ((∃ p, Protocol.load ⟨path, stem⟩ text = .ok p) ↔
        ∃ q, Protocol.load ⟨path', stem⟩ text' = .ok q) ∧
      ∀ p q, Protocol.load ⟨path, stem⟩ text = .ok p →
        Protocol.load ⟨path', stem⟩ text' = .ok q →
        q.access = p.access ∧ ∀ settings : Settings,
          (p.binding settings).proxies =
            (root.children "interface").filterMap
              (Loading.proxy? ⟨path, stem⟩ settings p.access) ∧
          (q.binding settings).proxies =
            es.filterMap (Loading.proxy? ⟨path, stem⟩ settings p.access) ∧
          (p.render settings).definitions =
            Code.text settings.output.definitionsHead ++
              String.join ((p.binding settings).proxies.map (·.definitionText)) ∧
          (q.render settings).definitions =
            Code.text settings.output.definitionsHead ++
              String.join ((q.binding settings).proxies.map (·.definitionText)) := by
  refine ⟨Xml.exists_root?_withChildren parsed perm, fun text' parsed' => ?_⟩
  have children := Xml.Element.children_withChildren perm
  have permuted : (root.children "interface").Perm
      ((root.withChildren "interface" es).children "interface") := by
    rwa [children]
  refine ⟨⟨?_, ?_⟩, fun p q loaded loaded' => ?_⟩
  · rintro ⟨p, loaded⟩
    exact exists_load_of_perm parsed parsed' (by rfl) rfl permuted loaded
  · rintro ⟨q, loaded'⟩
    exact exists_load_of_perm parsed' parsed (by rfl) rfl permuted.symm loaded'
  · have access := access_of_load_perm parsed parsed' (by rfl) permuted loaded loaded'
    refine ⟨access, fun settings => ⟨proxies_of_load parsed loaded settings, ?_,
      p.definitions_render settings, q.definitions_render settings⟩⟩
    have origins : Loading.proxy? ⟨path', stem⟩ = Loading.proxy? ⟨path, stem⟩ :=
      Loading.proxy?_congr rfl
    rw [proxies_of_load parsed' loaded' settings, children, access, origins]

end Protocol

theorem Protocol.load_withChildren_seat :
    Xml.root? (seatProtocol.document "wl_") = some (seatProtocol.toElement "wl_") ∧
      ∃ text q, Xml.root? text = some ((seatProtocol.toElement "wl_").withChildren "interface"
          (seatProtocol.interfaces.reverse.map (·.toElement "wl_"))) ∧
        Protocol.load ⟨"taes.xml", "wl_"⟩ text = .ok q ∧ q.access = seatProtocol.access ∧
        (q.binding {}).proxies.map (fun a => (a.name, a.grants)) =
          [("touch", ["seat"]), ("seat", ["display"])] := by
  have wellFormed : seatProtocol.WellFormed := by decide +kernel
  have parsed := Protocol.root?_document "wl_" wellFormed
  have loaded := Protocol.load_document ⟨"seat.xml", "wl_"⟩ wellFormed
  have perm : ((seatProtocol.toElement "wl_").children "interface").Perm
      (seatProtocol.interfaces.reverse.map (·.toElement "wl_")) := by
    rw [Protocol.children_toElement]
    exact (List.reverse_perm _).symm.map _
  obtain ⟨⟨text, parsed'⟩, same⟩ :=
    Protocol.load_withChildren "wl_" "seat.xml" "taes.xml" parsed perm
  obtain ⟨loads, agree⟩ := same text parsed'
  obtain ⟨q, loaded'⟩ := loads.mp ⟨_, loaded⟩
  obtain ⟨access, proxies⟩ := agree _ q loaded loaded'
  obtain ⟨-, proxies, -⟩ := proxies {}
  refine ⟨parsed, text, q, parsed', loaded', access, ?_⟩
  rw [proxies]
  decide +kernel

end WireProxy
