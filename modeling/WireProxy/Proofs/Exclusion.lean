import WireProxy.Proofs.AccessTable
import WireProxy.Proofs.Texts

/-!
# Interfaces maintained by hand

An interface that is maintained by hand is left out when proxies are made, after access has been
worked out.  So it is only missing: the other proxies are as they would be without it being left
out, still grant it access, and are written in the same blocks.
-/

namespace WireProxy

def Settings.byHand (settings : Settings) (names : NameSet) : Settings :=
  { settings with handMaintained := names }

namespace Protocol

variable (p : Protocol) (settings : Settings) (names : NameSet)

/-- Of the proxies that there are if nothing is maintained by hand, those of other names. -/
def proxiesBut : List Proxy :=
  (p.binding (settings.byHand .empty)).proxies.filter (!names.contains ·.name)

theorem generated_byHand_empty : p.generated (settings.byHand .empty) = p.interfaces := by
  rw [generated, List.filter_eq_self]
  intro i _
  rfl

theorem proxies_byHand :
    (p.binding (settings.byHand names)).proxies = p.proxiesBut settings names := by
  rw [proxiesBut, binding, binding, generated_byHand_empty, Binding.ofProxies, Binding.ofProxies,
    List.filter_map]
  rfl

/-- Leaving interfaces out filters the proxies and changes nothing in those that are kept. -/
theorem binding_byHand :
    (p.binding (settings.byHand names)).proxies = p.proxiesBut settings names ∧
      (p.binding (settings.byHand names)).forwards =
        (p.proxiesBut settings names).map (·.name) ∧
      (∀ a ∈ p.proxiesBut settings names, ∀ i ∈ p.interfaces, i.name ∈ names →
        i.RefersTo a.name → i.name ∈ a.grants) ∧
      (p.render (settings.byHand names)).definitions =
        Code.text settings.output.definitionsHead ++
          String.join ((p.proxiesBut settings names).map (·.definitionText)) ∧
      (p.render (settings.byHand names)).declarations =
        Code.text settings.output.preamble ++
          String.join ((p.proxiesBut settings names).map fun a => "class " ++ a.name ++ "_t;\n") ++
          "\n" ++ String.join ((p.proxiesBut settings names).map (·.declarationText)) ++
          "#endif\n" := by
  have proxies := p.proxies_byHand settings names
  refine ⟨proxies, ?_, ?_, ?_, ?_⟩
  · rw [← proxies]
    rfl
  · intro a member i isInterface _ refers
    rw [proxiesBut, binding, Binding.ofProxies] at member
    obtain ⟨j, -, rfl⟩ := List.mem_map.mp (List.mem_of_mem_filter member)
    exact Protocol.mem_grantedTo.mpr ⟨i, isInterface, rfl, refers⟩
  · rw [definitions_render, proxies]
    rfl
  · rw [declarations_render, proxies]
    simp only [forwardLine, className, String.append_assoc]
    rfl

end Protocol

end WireProxy
