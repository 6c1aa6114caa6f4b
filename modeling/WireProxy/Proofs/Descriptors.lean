import WireProxy.Proofs.Calls
import WireProxy.Proofs.Reordering

/-!
# Descriptors

A scan takes the stem off the names of interfaces and off references to them, if it is there; a
descriptor symbol puts it in front of a name in any case.  So a name that lacks the stem does not
come back, but names and references that are equal without the stem lead to one descriptor.
-/

namespace WireProxy

theorem stem_append_stripStem {stem name : String} (begins : stem.toList <+: name.toList) :
    stem ++ stripStem stem name = name := by
  obtain ⟨rest, whole⟩ := begins
  have isPrefix : stem.toList.isPrefixOf name.toList = true :=
    List.isPrefixOf_iff_prefix.mpr ⟨rest, whole⟩
  apply String.toList_injective
  rw [stripStem, if_pos isPrefix, String.toList_append, String.toList_ofList, ← whole,
    List.drop_left]

theorem stem_append_stripStem_eq_iff {stem name : String} :
    stem ++ stripStem stem name = name ↔ stem.toList <+: name.toList := by
  constructor
  · intro same
    refine ⟨(stripStem stem name).toList, ?_⟩
    rw [← String.toList_append, same]
  · exact stem_append_stripStem

theorem descriptorSymbol_eq_iff {stem name raw : String} :
    descriptorSymbol stem name = raw ++ "_interface" ↔ stem ++ name = raw :=
  String.append_left_inj _

theorem descriptorSymbol_injective (stem : String) :
    Function.Injective (descriptorSymbol stem) := by
  intro name other same
  have same := descriptorSymbol_eq_iff.mp same
  exact (String.append_right_inj stem).mp same

namespace Loading

open Xml (Element)

variable {o : Origin} {settings : Settings} {access : Access} {e : Element} {a : Proxy}

theorem proxy?_eq_some {i : Interface} (scanned : interface o e = .ok i) :
    proxy? o settings access e = some a ↔
      settings.isHandMaintained i.name = false ∧ i.proxy settings.stem access = a := by
  rw [proxy?, interface?_eq_some.mpr scanned, Option.bind_some]
  cases settings.isHandMaintained i.name <;> simp

theorem descriptor_of_proxy? {raw : String} (named : e.attribute? "name" = some raw)
    (made : proxy? o settings access e = some a) :
    a.name = stripStem o.stem raw ∧
      a.descriptor = descriptorSymbol settings.stem (stripStem o.stem raw) := by
  obtain ⟨i, scanned, -⟩ := Option.bind_eq_some_iff.mp made
  have scanned := interface?_eq_some.mp scanned
  obtain ⟨-, rfl⟩ := (proxy?_eq_some scanned).mp made
  obtain ⟨found, found', name⟩ := interfaceName_eq_ok.mp (interface_eq_ok.mp scanned).1
  obtain rfl : raw = found := Option.some.inj (named.symm.trans found')
  rw [name]
  exact ⟨rfl, rfl⟩

end Loading

/-- The method makes objects of the interface that the proxy stands for. -/
structure Method.Makes (a : Proxy) (m : Method) : Prop where
  returns : m.returns = some (.proxy a.name)
  target : m.call.target? = some (.descriptor a.descriptor)

theorem Method.MakesTyped.makes {stem interface : String} {m : Method} {a : Proxy}
    (typed : m.MakesTyped stem interface) (name : a.name = interface)
    (descriptor : a.descriptor = descriptorSymbol stem interface) : m.Makes a where
  returns := by
    rw [name]
    exact typed.returns
  target := by
    rw [descriptor]
    exact typed.target

namespace Loading

open Xml (Element)

/-- The request element has a new object, and that refers to the other element: the reference and
the name of the element are equal once the stem is off. -/
def CreatesFor (stem : String) (request e : Element) : Prop :=
  ∃ arg ∈ request.children "arg", arg.attribute? "type" = some "new_id" ∧
    ∃ reference raw, arg.attribute? "interface" = some reference ∧
      e.attribute? "name" = some raw ∧ stripStem stem reference = stripStem stem raw

variable {o : Origin} {interfaceName : String} {request e : Element} {r : Request}

/-- The new object of a request element is an argument of the request, under the name that the
element is scanned with. -/
theorem exists_argument_of_createsFor (described : Describes o interfaceName request r.toMessage)
    (creates : CreatesFor o.stem request e) :
    ∃ arg ∈ r.args, arg.kind = .newId ∧ ∃ raw, e.attribute? "name" = some raw ∧
      arg.interface = some (stripStem o.stem raw) := by
  obtain ⟨child, isChild, isNew, reference, raw, refers, named, same⟩ := creates
  have scanned := arguments_eq_ok.mp described.2
  obtain ⟨arg, member, found⟩ := exists_of_forall₂ scanned.flip isChild
  obtain ⟨-, ⟨token, typed, kind⟩, interface, -⟩ := argument_eq_ok.mp found
  obtain rfl : "new_id" = token := Option.some.inj (isNew.symm.trans typed)
  refine ⟨arg, member, kind, raw, named, ?_⟩
  rw [interface, refers, Option.map_some, same]

theorem makes_of_createsFor {settings : Settings} {access : Access} {a : Proxy}
    (described : Describes o interfaceName request r.toMessage) (returns : r.ReturnsNewObject)
    (creates : CreatesFor o.stem request e) (made : proxy? o settings access e = some a) :
    (r.method settings.stem).Makes a := by
  obtain ⟨arg, member, kind, raw, named, interface⟩ :=
    exists_argument_of_createsFor described creates
  obtain ⟨name, descriptor⟩ := descriptor_of_proxy? named made
  have result := Request.result_eq_some returns member kind
  exact (Request.makesTyped settings.stem returns result interface).makes name descriptor

end Loading

namespace Protocol

theorem nodup_descriptors {o : Origin} {text : String} {p : Protocol}
    (loaded : Protocol.load o text = .ok p) (settings : Settings) :
    ((p.binding settings).proxies.map (·.descriptor)).Nodup := by
  have names : ((p.generated settings).map (·.name)).Nodup :=
    (Protocol.nodup_names_of_load loaded).sublist (List.filter_sublist.map _)
  have descriptors : (p.binding settings).proxies.map (·.descriptor) =
      ((p.generated settings).map (·.name)).map (descriptorSymbol settings.stem) := by
    rw [binding, Binding.ofProxies, List.map_map, List.map_map]
    rfl
  rw [descriptors]
  exact names.map (descriptorSymbol_injective settings.stem)

/-- A descriptor spells the name of the interface element exactly if that has the stem, no two
proxies share one, and a request for a new object names the descriptor of the proxy that it
returns. -/
theorem load_descriptors {o : Origin} {text : String} {p : Protocol}
    (loaded : Protocol.load o text = .ok p) (settings : Settings)
    (stems : settings.stem = o.stem) :
    ∃ root, Xml.root? text = some root ∧
      (p.binding settings).proxies =
        (root.children "interface").filterMap (Loading.proxy? o settings p.access) ∧
      ((p.binding settings).proxies.map (·.descriptor)).Nodup ∧
      (∀ e ∈ root.children "interface", ∃ raw, e.attribute? "name" = some raw ∧
        ∀ a, Loading.proxy? o settings p.access e = some a →
          (a.descriptor = raw ++ "_interface" ↔ o.stem.toList <+: raw.toList)) ∧
      List.Forall₂ (fun owner i =>
          List.Forall₂ (fun request m =>
              ∀ e ∈ root.children "interface", Loading.CreatesFor o.stem request e →
                ∀ a, Loading.proxy? o settings p.access e = some a → Method.Makes a m)
            ((owner.children "request").filter (!Loading.isDestroy ·))
            (i.proxy settings.stem p.access).methods)
        (root.children "interface") p.interfaces := by
  obtain ⟨root, parsed, -, -, scanned, -⟩ := Protocol.load_eq_ok.mp loaded
  refine ⟨root, parsed, proxies_of_load parsed loaded settings,
    nodup_descriptors loaded settings, ?_, ?_⟩
  · intro e member
    obtain ⟨i, -, found⟩ := exists_of_forall₂ scanned.flip member
    obtain ⟨raw, named, -⟩ := Loading.interfaceName_eq_ok.mp (Loading.interface_eq_ok.mp found).1
    refine ⟨raw, named, fun a made => ?_⟩
    obtain ⟨-, descriptor⟩ := Loading.descriptor_of_proxy? named made
    rw [descriptor, descriptorSymbol_eq_iff, stems, stem_append_stripStem_eq_iff]
  · have returning : ∀ i ∈ p.interfaces, ∀ r ∈ i.requests, r.ReturnsNewObject := fun i member =>
      Protocol.returnsNewObject_of_load loaded member
    have paired := (List.forall₂_and_left _ _).mpr ⟨returning, scanned.flip⟩
    refine paired.flip.imp fun owner i pair => ?_
    obtain ⟨returns, found⟩ := pair
    obtain ⟨-, -, requested, -⟩ := Loading.interface_eq_ok.mp found
    have described := Loading.requests_described requested
    rw [List.forall₂_map_right_iff] at described
    rw [Interface.proxy, List.forall₂_map_right_iff]
    have paired := (List.forall₂_and_left _ _).mpr ⟨returns, described.flip⟩
    refine paired.flip.imp fun request r pair e _ creates a made => ?_
    obtain ⟨returns, described⟩ := pair
    exact Loading.makes_of_createsFor described returns creates made

end Protocol

/-- One name has the stem twice, and one does not have it while the reference to it does. -/
def menuText : String :=
  "<protocol><interface name='wl_wl_seat'><request name='get_menu'>" ++
    "<arg name='id' type='new_id' interface='wl_menu'/></request></interface>" ++
    "<interface name='menu'/></protocol>"

namespace Menu

def requestElement : Xml.Element :=
  .plain "request" [("name", "get_menu")]
    [.plain "arg" [("name", "id"), ("type", "new_id"), ("interface", "wl_menu")] []]

def seatElement : Xml.Element :=
  .plain "interface" [("name", "wl_wl_seat")] [requestElement]

def menuElement : Xml.Element :=
  .plain "interface" [("name", "menu")] []

def root : Xml.Element :=
  .plain "protocol" [] [seatElement, menuElement]

def seat : Interface where
  name := "wl_seat"
  requests :=
    [{ name := "get_menu", opcode := 0, args := [⟨"id", .newId, some "menu", false⟩],
       result := some ⟨"id", .newId, some "menu", false⟩ }]

def protocol : Protocol where
  name := none
  entries := [("wl_seat", seat), ("menu", { name := "menu" })]
  keys_nodup := by decide

end Menu

theorem Protocol.load_descriptors_menu :
    Protocol.load ⟨"menu.xml", "wl_"⟩ menuText = .ok Menu.protocol ∧
      ∃ seat menu m, (Menu.protocol.binding {}).proxies = [seat, menu] ∧ seat.methods = [m] ∧
        seat.descriptor = "wl_wl_seat_interface" ∧ menu.descriptor ≠ "menu_interface" ∧
        seat.descriptor ≠ menu.descriptor ∧ Method.Makes menu m := by
  have parsed : Xml.root? menuText = some Menu.root := by decide +kernel
  have loaded : Protocol.load ⟨"menu.xml", "wl_"⟩ menuText = .ok Menu.protocol := by
    rw [Protocol.load, parsed]
    decide +kernel
  obtain ⟨root, found, proxies, distinct, spelled, makes⟩ :=
    Protocol.load_descriptors loaded {} rfl
  obtain rfl : Menu.root = root := Option.some.inj (parsed.symm.trans found)
  have children : Menu.root.children "interface" = [Menu.seatElement, Menu.menuElement] := by
    decide +kernel
  rw [children] at proxies spelled makes
  have seatMade : Loading.proxy? ⟨"menu.xml", "wl_"⟩ {} Menu.protocol.access Menu.seatElement =
      some (Menu.seat.proxy "wl_" Menu.protocol.access) := by
    decide +kernel
  have menuMade : Loading.proxy? ⟨"menu.xml", "wl_"⟩ {} Menu.protocol.access Menu.menuElement =
      some (({ name := "menu" } : Interface).proxy "wl_" Menu.protocol.access) := by
    decide +kernel
  rw [List.filterMap_cons_some seatMade, List.filterMap_cons_some menuMade] at proxies
  obtain ⟨raw, named, seatSpelled⟩ := spelled Menu.seatElement (by simp)
  obtain ⟨raw', named', menuSpelled⟩ := spelled Menu.menuElement (by simp)
  obtain rfl : "wl_wl_seat" = raw := Option.some.inj named
  obtain rfl : "menu" = raw' := Option.some.inj named'
  rw [proxies] at distinct
  have creates : Loading.CreatesFor "wl_" Menu.requestElement Menu.menuElement :=
    ⟨_, List.mem_singleton_self _, rfl, "wl_menu", "menu", rfl, rfl, by decide⟩
  obtain ⟨made, -⟩ := List.forall₂_cons.mp makes
  obtain ⟨made, -⟩ := List.forall₂_cons.mp made
  refine ⟨loaded, _, _, _, proxies, rfl, (seatSpelled _ seatMade).mpr (by decide), ?_, ?_,
    made Menu.menuElement (by simp) creates _ menuMade⟩
  · intro same
    exact absurd ((menuSpelled _ menuMade).mp same) (by decide)
  · simpa using distinct

end WireProxy
